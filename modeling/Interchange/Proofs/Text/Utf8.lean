import Interchange.Text.Utf8

/-!
# UTF-8 is read as it is written

The bytes of a character do not depend on what follows them, and neither does the
character that is read from them (`Utf8.next?_append`).  So the decoder gives back
what was encoded, and takes nothing else: bytes decode to a text if and only if they
are its encoding (`Utf8.decode?_eq_some_iff`).
-/

namespace Interchange.Utf8

variable {c : Char} {b : UInt8} {bytes passed : Bytes} {cs : List Char}

/-! ## One character -/

/-- A character has a first byte, and passing over it leaves one byte less than the character takes. -/
theorem exists_encodeChar_eq (c : Char) :
    ∃ b passed, String.utf8EncodeChar c = b :: passed ∧ passed.length = c.utf8Size - 1 := by
  have hlength : (String.utf8EncodeChar c).length = c.utf8Size := String.length_utf8EncodeChar c
  cases hbytes : String.utf8EncodeChar c with
  | nil =>
    rw [hbytes] at hlength
    exact absurd hlength (Nat.ne_of_lt c.utf8Size_pos)
  | cons b passed =>
    rw [hbytes, List.length_cons] at hlength
    exact ⟨b, passed, rfl, by omega⟩

/-- The character that the bytes start with is read whatever follows. -/
theorem next?_append (c : Char) (bytes : Bytes) : next? (String.utf8EncodeChar c ++ bytes) = some c := by
  have hlength : (String.utf8EncodeChar c).length ≤ 4 := by
    rw [String.length_utf8EncodeChar]
    exact c.utf8Size_le_four
  rw [next?, List.take_append, List.take_of_length_le hlength, List.toByteArray_append]
  exact ByteArray.utf8DecodeChar?_utf8EncodeChar_append

/-- Only the bytes of a character are read as that character. -/
theorem exists_of_next? (h : next? bytes = some c) :
    ∃ behind, bytes = String.utf8EncodeChar c ++ behind := by
  obtain ⟨l, hl⟩ := ByteArray.exists_of_utf8DecodeChar?_eq_some h
  have htake : bytes.take 4 = String.utf8EncodeChar c ++ l.data.toList := by
    have hdata := congrArg (·.data.toList) hl
    simpa using hdata
  refine ⟨l.data.toList ++ bytes.drop 4, ?_⟩
  rw [← List.append_assoc, ← htake, List.take_append_drop]

/-! ## All of them -/

theorem decodeAfter_append (passed bytes : Bytes) :
    decodeAfter passed.length (passed ++ bytes) = decodeAfter 0 bytes := by
  induction passed with
  | nil => rfl
  | cons b passed ih => exact ih

theorem decodeAfter_encodeChar (c : Char) (bytes : Bytes) :
    decodeAfter 0 (String.utf8EncodeChar c ++ bytes) = (decodeAfter 0 bytes).map (c :: ·) := by
  obtain ⟨b, passed, hbytes, hlength⟩ := exists_encodeChar_eq c
  have hnext := next?_append c bytes
  rw [hbytes, List.cons_append] at hnext ⊢
  rw [decodeAfter, hnext]
  change (decodeAfter (c.utf8Size - 1) (passed ++ bytes)).map (c :: ·) = _
  rw [← hlength, decodeAfter_append]

theorem decodeAfter_eq_some_iff : decodeAfter 0 bytes = some cs ↔ bytes = encodeChars cs := by
  constructor
  · intro h
    induction cs generalizing bytes with
    | nil =>
      cases bytes with
      | nil => rfl
      | cons b rest =>
        rw [decodeAfter] at h
        split at h
        · simp at h
        · cases h
    | cons c cs ih =>
      cases bytes with
      | nil => cases h
      | cons b rest =>
        -- What is read is the first character of the bytes, and the others are read from what follows it.
        have hnext : next? (b :: rest) = some c := by
          rw [decodeAfter] at h
          split at h
          · next c' hc' =>
            obtain ⟨cs', -, hcs⟩ := Option.map_eq_some_iff.mp h
            rw [hc', (List.cons.inj hcs).1]
          · cases h
        obtain ⟨behind, hbehind⟩ := exists_of_next? hnext
        rw [hbehind, decodeAfter_encodeChar] at h
        obtain ⟨cs', hcs', heq⟩ := Option.map_eq_some_iff.mp h
        rw [(List.cons.inj heq).2] at hcs'
        rw [hbehind, ih hcs', encodeChars_cons]
  · rintro rfl
    induction cs with
    | nil => rfl
    | cons c cs ih => rw [encodeChars_cons, decodeAfter_encodeChar, ih, Option.map_some]

/-- Bytes decode to a text if and only if they are its encoding. -/
theorem decode?_eq_some_iff {s : String} : decode? bytes = some s ↔ bytes = encode s := by
  rw [decode?, Option.map_eq_some_iff]
  constructor
  · rintro ⟨cs, hcs, rfl⟩
    rw [decodeAfter_eq_some_iff.mp hcs, encode, String.toList_ofList]
  · rintro rfl
    exact ⟨s.toList, decodeAfter_eq_some_iff.mpr rfl, String.ofList_toList⟩

end Interchange.Utf8
