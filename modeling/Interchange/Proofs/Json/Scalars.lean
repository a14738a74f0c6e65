import Interchange.Json.Written
import Interchange.Proofs.Json.Reading
import Interchange.Proofs.Text.Utf8
import Mathlib.Tactic.SplitIfs

/-!
# Strings and numbers in a text

A reader does not look behind what it reads, except for a number, which goes on as
long as there are bytes that can belong to it.  So a string comes back from its
written form whatever follows (`Json.Reader.stringBody_append`), and a number that is
read from some bytes is read if more bytes follow them, unless these go on with it
(`Json.Reader.number_append`).

Of an integer of at most 64 bits every digit is kept, so it comes back as well
(`Json.Reader.number_digitChars`).
-/

namespace Interchange.Json.Reader

variable {bytes after : Bytes}

/-! ## Strings -/

theorem stringTail_passed (passed bytes : Bytes) :
    stringTail passed.length (passed ++ bytes) = stringTail 0 bytes := by
  induction passed with
  | nil => rfl
  | cons b passed ih => exact ih

/-- A character in front of a string that is read, written as an escape. -/
theorem stringTail_escape {passed : Bytes} {c : Char} {cs : List Char}
    (hescape : escape (passed ++ bytes) = .ok (c, passed.length))
    (h : stringTail 0 bytes = .ok (cs, after)) :
    stringTail 0 ('\\'.toUInt8 :: (passed ++ bytes)) = .ok (c :: cs, after) := by
  change escape (passed ++ bytes) >>= _ = _
  rw [hescape]
  change stringTail passed.length (passed ++ bytes) >>= _ = _
  rw [stringTail_passed, h]
  rfl

/-- A character of several bytes begins with none that is an ASCII character. -/
theorem toNat_eq_of_encodeChar {c : Char} {b : UInt8} {passed : Bytes}
    (h : String.utf8EncodeChar c = b :: passed) (hb : b.toNat < 0x80) : c.toNat = b.toNat := by
  have hvalue : c.val.toNat = c.toNat := rfl
  unfold String.utf8EncodeChar at h
  dsimp only at h
  split_ifs at h
  all_goals
    have hfirst := congrArg UInt8.toNat (List.cons.inj h).1
    rw [UInt8.toNat_ofNat'] at hfirst
    omega

/-- A character in front of a string that is read, written as itself. -/
theorem stringTail_plain {c : Char} {cs : List Char} (hletter : escapeLetter? c = none)
    (hcontrol : ¬ c.toNat < 0x20) (h : stringTail 0 bytes = .ok (cs, after)) :
    stringTail 0 (String.utf8EncodeChar c ++ bytes) = .ok (c :: cs, after) := by
  obtain ⟨b, passed, hbytes, hlength⟩ := Utf8.exists_encodeChar_eq c
  have hnext := Utf8.next?_append c bytes
  rw [hbytes, List.cons_append] at hnext ⊢
  -- Of the bytes below 128 only those of an escaped character mean anything to the reader.
  have hne (letter : Char) (hescaped : (escapeLetter? letter).isSome = true) (hascii : letter.toNat < 0x80) :
      b ≠ letter.toUInt8 := by
    rintro rfl
    have hsmall : letter.toUInt8.toNat = letter.toNat := by
      rw [Char.toUInt8, UInt32.toNat_toUInt8]
      change letter.toNat % 256 = _
      omega
    have hsame : c = letter := by
      apply Char.toNat_inj.mp
      rw [toNat_eq_of_encodeChar hbytes (by omega), hsmall]
    rw [← hsame, hletter] at hescaped
    cases hescaped
  have hquote : b ≠ '\"'.toUInt8 := hne _ rfl (by decide)
  have hbackslash : b ≠ '\\'.toUInt8 := hne _ rfl (by decide)
  have hlow : ¬ b < 0x20 := by
    intro hb
    have hb : b.toNat < 0x20 := UInt8.lt_iff_toNat_lt.mp hb
    exact hcontrol (by rw [toNat_eq_of_encodeChar hbytes (by omega)]; exact hb)
  rw [stringTail, if_neg hquote, if_neg hbackslash, if_neg hlow, hnext]
  change stringTail (c.utf8Size - 1) (passed ++ bytes) >>= _ = _
  rw [← hlength, stringTail_passed, h]
  rfl

theorem hexDigit?_digitChar : ∀ n < 16, hexDigit? (Nat.digitChar n).toUInt8 = some n := by decide

/-- The code of a control character. -/
theorem escape_control {c : Char} (hcontrol : c.toNat < 0x20) (bytes : Bytes) :
    escape ('u'.toUInt8 :: '0'.toUInt8 :: '0'.toUInt8 :: (Nat.digitChar (c.toNat / 16)).toUInt8 ::
      (Nat.digitChar (c.toNat % 16)).toUInt8 :: bytes) = .ok (c, 5) := by
  have hcode : hexFour ('0'.toUInt8 :: '0'.toUInt8 :: (Nat.digitChar (c.toNat / 16)).toUInt8 ::
      (Nat.digitChar (c.toNat % 16)).toUInt8 :: bytes) = .ok c.toNat := by
    rw [hexFour, hexDigit?_digitChar _ (by omega), hexDigit?_digitChar _ (by omega)]
    change Except.ok (((0 * 16 + 0) * 16 + c.toNat / 16) * 16 + c.toNat % 16) = _
    congr 1
    omega
  have hlow : isLowSurrogate c.toNat = false := by
    simp only [isLowSurrogate, Bool.and_eq_false_iff, decide_eq_false_iff_not]
    omega
  have hhigh : isHighSurrogate c.toNat = false := by
    simp only [isHighSurrogate, Bool.and_eq_false_iff, decide_eq_false_iff_not]
    omega
  change codeEscape _ >>= _ = _
  rw [codeEscape, hcode]
  change (if isLowSurrogate c.toNat = true then _ else _) >>= _ = _
  rw [if_neg (by simp [hlow]), if_neg (by simp [hhigh]), Char.ofNat_toNat]
  rfl

theorem encodeChar_digitChar : ∀ n < 16,
    String.utf8EncodeChar (Nat.digitChar n) = [(Nat.digitChar n).toUInt8] := by decide

theorem unescape?_of_escapeLetter? {c letter : Char} (h : escapeLetter? c = some letter) :
    unescape? letter.toUInt8 = some c ∧ String.utf8EncodeChar letter = [letter.toUInt8] := by
  unfold escapeLetter? at h
  split at h <;> cases h <;> exact ⟨rfl, rfl⟩

/-- A character in front of a string that is read. -/
theorem stringTail_stringChar (c : Char) {cs : List Char} (h : stringTail 0 bytes = .ok (cs, after)) :
    stringTail 0 (Utf8.encodeChars (stringChar c) ++ bytes) = .ok (c :: cs, after) := by
  unfold stringChar
  split
  · next letter hletter =>
    obtain ⟨hunescape, hencode⟩ := unescape?_of_escapeLetter? hletter
    have hescape : escape ([letter.toUInt8] ++ bytes) = .ok (c, 1) := by
      rw [List.singleton_append, escape, hunescape]
    have hbytes : Utf8.encodeChars ['\\', letter] = '\\'.toUInt8 :: [letter.toUInt8] := by
      rw [Utf8.encodeChars_cons, Utf8.encodeChars_cons, hencode]
      rfl
    rw [hbytes]
    exact stringTail_escape hescape h
  · next hletter =>
    split
    · next hcontrol =>
      have hbytes : Utf8.encodeChars ['\\', 'u', '0', '0', Nat.digitChar (c.toNat / 16),
          Nat.digitChar (c.toNat % 16)] = '\\'.toUInt8 :: ['u'.toUInt8, '0'.toUInt8, '0'.toUInt8,
            (Nat.digitChar (c.toNat / 16)).toUInt8, (Nat.digitChar (c.toNat % 16)).toUInt8] := by
        simp only [Utf8.encodeChars_cons, encodeChar_digitChar (c.toNat / 16) (by omega),
          encodeChar_digitChar (c.toNat % 16) (by omega)]
        rfl
      rw [hbytes]
      exact stringTail_escape (escape_control hcontrol bytes) h
    · next hcontrol =>
      rw [Utf8.encodeChars_cons, Utf8.encodeChars_nil, List.append_nil]
      exact stringTail_plain hletter hcontrol h

/-- A string behind its opening quote. -/
def bodyBytes (s : String) : Bytes := Utf8.encodeChars (s.toList.flatMap stringChar ++ ['\"'])

/-- A text comes back from what stands behind its opening quote. -/
theorem stringBody_append (s : String) (bytes : Bytes) :
    stringBody (bodyBytes s ++ bytes) = .ok (s, bytes) := by
  have htail (cs : List Char) :
      stringTail 0 (Utf8.encodeChars (cs.flatMap stringChar ++ ['\"']) ++ bytes) = .ok (cs, bytes) := by
    induction cs with
    | nil => rfl
    | cons c cs ih =>
      rw [List.flatMap_cons, List.append_assoc, Utf8.encodeChars_append, List.append_assoc]
      exact stringTail_stringChar c ih
  rw [stringBody, bodyBytes, htail]
  change Except.ok (String.ofList s.toList, bytes) = _
  rw [String.ofList_toList]

/-! ## Numbers -/

/-- What can stand behind a number that has been read to its end. -/
def Ends : Bytes → Prop
  | [] => True
  | b :: _ => digit? b = none ∧ b ≠ '.'.toUInt8 ∧ isExponentLetter b = false

section

variable {rest : Bytes} (hrest : Ends rest)

include hrest

theorem takeDigits_append (bytes : Bytes) :
    takeDigits (bytes ++ rest) = ((takeDigits bytes).1, (takeDigits bytes).2 ++ rest) := by
  induction bytes with
  | nil =>
    cases rest with
    | nil => rfl
    | cons b rest =>
      have hstop : takeDigits (b :: rest) = ([], b :: rest) := by rw [takeDigits, hrest.1]
      exact hstop
  | cons b bytes ih =>
    rw [List.cons_append, takeDigits, takeDigits]
    cases digit? b with
    | none => rfl
    | some d => simp only [ih]

theorem exponentDigits_append {refuse : Bool} {e : Nat} {x : Option Nat}
    (h : exponentDigits refuse e bytes = .ok (x, after)) :
    exponentDigits refuse e (bytes ++ rest) = .ok (x, after ++ rest) := by
  induction bytes generalizing e with
  | nil =>
    cases h
    cases rest with
    | nil => rfl
    | cons b rest => rw [List.nil_append, exponentDigits, hrest.1]
  | cons b bytes ih =>
    rw [List.cons_append]
    rw [exponentDigits] at h ⊢
    split at h
    · cases h
      rfl
    · next d hd =>
      split at h
      · next hfits =>
        rw [if_pos hfits]
        exact ih h
      · next hfits =>
        rw [if_neg hfits]
        split at h
        · cases h
        · next hrefuse =>
          cases h
          rw [if_neg hrefuse, takeDigits_append hrest]

theorem exponent_append {zero : Bool} {x : Option Int} (h : exponent zero bytes = .ok (x, after)) :
    exponent zero (bytes ++ rest) = .ok (x, after ++ rest) := by
  cases bytes with
  | nil => cases h
  | cons b bytes =>
    have hsign : exponentSign (b :: bytes ++ rest) =
        ((exponentSign (b :: bytes)).1, (exponentSign (b :: bytes)).2 ++ rest) := by
      rw [List.cons_append, exponentSign, exponentSign]
      split
      · rfl
      · split <;> rfl
    unfold exponent at h ⊢
    rw [hsign]
    dsimp only at h ⊢
    split at h
    · cases h
    · next c behind hdigits =>
      rw [hdigits, List.cons_append]
      dsimp only
      split at h
      · cases h
      · next d hd =>
        obtain ⟨⟨e, left⟩, he, h⟩ := bind_eq_ok.mp h
        cases h
        exact bind_eq_ok.mpr ⟨_, exponentDigits_append hrest he, rfl⟩

theorem doubleTail_append {negative : Bool} {sum : Nat} {place : Int} {j : Json}
    (h : doubleTail negative sum place bytes = .ok (j, after)) :
    doubleTail negative sum place (bytes ++ rest) = .ok (j, after ++ rest) := by
  unfold doubleTail at h ⊢
  dsimp only at h ⊢
  cases bytes with
  | nil =>
    dsimp only at h
    split at h <;> cases h
    cases rest with
    | nil => rfl
    | cons b rest =>
      rw [List.nil_append]
      dsimp only
      rw [if_neg (by simp [hrest.2.2])]
  | cons b bytes =>
    rw [List.cons_append]
    dsimp only at h ⊢
    split at h
    · next hletter =>
      obtain ⟨⟨e, left⟩, he, h⟩ := bind_eq_ok.mp h
      rw [if_pos hletter]
      refine bind_eq_ok.mpr ⟨_, exponent_append hrest he, ?_⟩
      dsimp only at h ⊢
      split at h
      · split at h <;> cases h
        rfl
      · cases h
        rfl
    · next hletter =>
      rw [if_neg hletter]
      split at h <;> cases h
      rfl

theorem numberTail_append {negative : Bool} {whole : List Nat} {j : Json}
    (h : numberTail negative whole bytes = .ok (j, after)) :
    numberTail negative whole (bytes ++ rest) = .ok (j, after ++ rest) := by
  unfold numberTail at h ⊢
  dsimp only at h ⊢
  cases bytes with
  | nil =>
    dsimp only at h
    cases rest with
    | nil =>
      rw [List.append_nil, List.append_nil]
      exact h
    | cons b rest =>
      have hletter : isExponentLetter b = false := hrest.2.2
      rw [List.nil_append]
      dsimp only
      rw [if_neg hrest.2.1, hletter]
      split at h
      · next hkept =>
        cases h
        rw [if_neg (by simp [hkept])]
        rfl
      · next hdropped =>
        rw [if_pos (by simp [hdropped])]
        exact doubleTail_append hrest h
  | cons b bytes =>
    rw [List.cons_append]
    dsimp only at h ⊢
    split at h
    · next hpoint =>
      rw [if_pos hpoint, takeDigits_append hrest]
      dsimp only
      split at h
      · split at h <;> cases h
      · next hfraction =>
        rw [if_neg hfraction]
        exact doubleTail_append hrest h
    · next hpoint =>
      rw [if_neg hpoint]
      split at h
      · next hmore =>
        rw [if_pos hmore]
        exact doubleTail_append hrest h
      · next hmore =>
        cases h
        rw [if_neg hmore]
        rfl

/-- A number that is read from some bytes is read if more bytes follow them that do not go on with it. -/
theorem number_append {negative : Bool} {j : Json} (h : number negative bytes = .ok (j, after)) :
    number negative (bytes ++ rest) = .ok (j, after ++ rest) := by
  cases bytes with
  | nil => cases h
  | cons b bytes =>
    rw [List.cons_append]
    unfold number at h ⊢
    dsimp only at h ⊢
    split at h
    · cases h
    · next d hd =>
      rw [takeDigits_append hrest]
      dsimp only at h ⊢
      split at h
      · cases h
      · next hzero =>
        rw [if_neg hzero]
        exact numberTail_append hrest h

end

/-! ### Integers -/

/-- Digits as they stand in a text. -/
def digitBytes (ds : List Nat) : Bytes := Utf8.encodeChars (ds.map Nat.digitChar)

/-- The number that digits make, behind a number that was made before. -/
def ofDigits (sum : Nat) (ds : List Nat) : Nat := ds.foldl (fun sum d ↦ sum * 10 + d) sum

theorem le_ofDigits (sum : Nat) (ds : List Nat) : sum ≤ ofDigits sum ds := by
  induction ds generalizing sum with
  | nil => exact Nat.le_refl sum
  | cons d ds ih =>
    have hrest : sum * 10 + d ≤ ofDigits sum (d :: ds) := ih (sum * 10 + d)
    omega

/-- Of a number of at most 64 bits every digit is kept. -/
theorem gatherWhole_of_lt {sum : Nat} {ds : List Nat} (h : ofDigits sum ds < 0x10000000000000000) :
    gatherWhole sum ds = (ofDigits sum ds, 0) := by
  induction ds generalizing sum with
  | nil => rfl
  | cons d ds ih =>
    have hfits : sum * 10 + d < 0x10000000000000000 :=
      Nat.lt_of_le_of_lt (le_ofDigits (sum * 10 + d) ds) h
    rw [gatherWhole, if_pos hfits]
    exact ih h

theorem digit?_digitChar : ∀ d < 10, digit? (Nat.digitChar d).toUInt8 = some d := by decide

theorem digitBytes_cons {d : Nat} (hd : d < 10) (ds : List Nat) :
    digitBytes (d :: ds) = (Nat.digitChar d).toUInt8 :: digitBytes ds := by
  rw [digitBytes, List.map_cons, Utf8.encodeChars_cons, encodeChar_digitChar d (by omega)]
  rfl

theorem takeDigits_digitBytes {ds : List Nat} (hds : ∀ d ∈ ds, d < 10) :
    takeDigits (digitBytes ds) = (ds, []) := by
  induction ds with
  | nil => rfl
  | cons d ds ih =>
    obtain ⟨hd, hds⟩ := List.forall_mem_cons.mp hds
    rw [digitBytes_cons hd, takeDigits, digit?_digitChar d hd]
    dsimp only
    rw [ih hds]

/-- The digits of a number: the first is zero only if there is no other. -/
theorem exists_digits (n : Nat) : ∃ d ds, Decimal.digitChars n = (d :: ds).map Nat.digitChar ∧
    (∀ x ∈ d :: ds, x < 10) ∧ (d = 0 → n = 0 ∧ ds = []) ∧ ofDigits 0 (d :: ds) = n := by
  -- The writer cuts digits off at the end, but the reader begins at the front, so the first digit is
  -- known only of the number without its last one.
  induction n using Nat.strongRecOn with
  | ind n ih =>
    by_cases hsmall : n < 10
    · refine ⟨n, [], Nat.toDigits_of_lt_base hsmall, ?_, fun hzero ↦ ⟨hzero, rfl⟩, ?_⟩
      · simpa using hsmall
      · simp [ofDigits]
    · obtain ⟨d, ds, hchars, hlt, hzero, hsum⟩ := ih (n / 10) (by omega)
      refine ⟨d, ds ++ [n % 10], ?_, ?_, ?_, ?_⟩
      · rw [Decimal.digitChars, Nat.toDigits_of_base_le (by decide) (by omega)]
        change Decimal.digitChars (n / 10) ++ _ = _
        rw [hchars, ← List.cons_append, List.map_append]
        rfl
      · rw [← List.cons_append]
        intro x hx
        rcases List.mem_append.mp hx with hx | hx
        · exact hlt x hx
        · rw [List.mem_singleton.mp hx]
          omega
      · intro hd
        have hquotient := (hzero hd).1
        omega
      · rw [← List.cons_append, ofDigits, List.foldl_append]
        change ofDigits 0 (d :: ds) * 10 + n % 10 = n
        rw [hsum]
        omega

/-- The digits of a number of at most 64 bits are read as that number. -/
theorem number_digitChars (negative : Bool) {n : Nat} (hn : n < 0x10000000000000000) :
    number negative (Utf8.encodeChars (Decimal.digitChars n)) = .ok (wholeNumber negative n, []) := by
  obtain ⟨d, ds, hchars, hlt, hzero, hsum⟩ := exists_digits n
  obtain ⟨hd, hds⟩ := List.forall_mem_cons.mp hlt
  have hbytes : Utf8.encodeChars (Decimal.digitChars n) = digitBytes (d :: ds) := by
    rw [hchars]
    rfl
  rw [hbytes, digitBytes_cons hd, number, digit?_digitChar d hd]
  dsimp only
  rw [takeDigits_digitBytes hds]
  dsimp only
  rw [if_neg (fun h ↦ h.2 (hzero h.1).2), numberTail, gatherWhole_of_lt (by rwa [hsum]), hsum]
  rfl

end Interchange.Json.Reader
