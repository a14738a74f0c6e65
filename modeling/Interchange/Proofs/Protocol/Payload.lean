import Interchange.Proofs.Json.Shapes
import Interchange.Proofs.Protocol.Acceptance

/-!
# Payloads in canonical form

A payload is the written form of a value.  If all numbers in the value are integers
of at most 64 bits, then it is read as the value (`Codec.decode_of_encode`): the written
form begins with a byte that is not blank, so the rule that a blank payload stands
for `null` never gets in between.

A REST message becomes a call by being read and written once.  The payload that
comes of it is therefore the same however the body was spelt, and to cross again
changes nothing more (`Rest.payload_canonical`).
-/

namespace Interchange

namespace Json

mutual

/-- Every number in the value is an integer of at most 64 bits, with or without a sign. -/
def Integral : Json → Prop
  | .int n => -0x8000000000000000 ≤ n ∧ n < 0x10000000000000000
  | .float _ => False
  | .array items => IntegralItems items
  | .object members => IntegralMembers members
  | _ => True

/-- Every number in the items of an array is such an integer. -/
def IntegralItems : List Json → Prop
  | [] => True
  | j :: rest => Integral j ∧ IntegralItems rest

/-- Every number in the members of an object is such an integer. -/
def IntegralMembers : List (String × Json) → Prop
  | [] => True
  | (_, j) :: rest => Integral j ∧ IntegralMembers rest

end

mutual

/-- Such integers come back from their text. -/
theorem exact_of_integral {j : Json} (h : j.Integral) : j.Exact := by
  cases j with
  | null | bool | string => trivial
  | int n => exact exact_int h.1 h.2
  | float x => cases h
  | array items => exact exactItems_of_integral h
  | object members => exact exactMembers_of_integral h

theorem exactItems_of_integral {items : List Json} (h : IntegralItems items) : ExactItems items := by
  cases items with
  | nil => trivial
  | cons j rest => exact ⟨exact_of_integral h.1, exactItems_of_integral h.2⟩

theorem exactMembers_of_integral {members : List (String × Json)} (h : IntegralMembers members) :
    ExactMembers members := by
  match members, h with
  | [], _ => trivial
  | (_, j) :: rest, h => exact ⟨exact_of_integral h.1, exactMembers_of_integral h.2⟩

end

/-- A digit is not blank. -/
theorem isBlankByte_of_digit {b : UInt8} (h : (Reader.digit? b).isSome = true) :
    Codec.isBlankByte b = false := by
  by_contra hblank
  rw [Bool.not_eq_false] at hblank
  simp only [Codec.isBlankByte, Bool.or_eq_true, beq_iff_eq] at hblank
  rcases hblank with (((rfl | rfl) | rfl) | rfl) | rfl <;> cases h

/-- The written form of a value begins with a byte that is not blank. -/
theorem exists_byte {j : Json} (h : j.Integral) :
    ∃ b rest, j.bytes = b :: rest ∧ Codec.isBlankByte b = false := by
  cases j with
  | null => exact ⟨_, _, rfl, rfl⟩
  | bool b => cases b <;> exact ⟨_, _, rfl, rfl⟩
  | int n =>
    obtain ⟨b, rest, hbytes, -, hdigit⟩ := Reader.exists_digit n.natAbs
    change ∃ b rest, Utf8.encodeChars (intChars n) = b :: rest ∧ _
    unfold intChars
    split
    · exact ⟨_, _, rfl, rfl⟩
    · exact ⟨b, rest, hbytes, isBlankByte_of_digit hdigit⟩
  | float x => cases h
  | string s => exact ⟨_, _, rfl, rfl⟩
  | array items => cases items <;> exact ⟨_, _, rfl, rfl⟩
  | object members => cases members <;> exact ⟨_, _, rfl, rfl⟩

end Json

variable {payload : Bytes} {v : Json}

namespace Codec

theorem depth_le_of_decode (h : json.decode payload = .ok v) : v.depth ≤ 127 := by
  rcases eq_null_or_parse h with rfl | hparse
  · exact Nat.zero_le _
  · exact Json.depth_le_of_parse hparse

/-- What was encoded is not blank. -/
theorem all_isBlankByte_of_encode (h : v.Integral) (hv : json.encode v = .ok payload) :
    payload.all isBlankByte = false := by
  obtain ⟨b, rest, hbytes, hblank⟩ := Json.exists_byte h
  cases hv
  rw [hbytes, List.all_cons, hblank, Bool.false_and]

/-- What was encoded is decoded, with its objects in order. -/
theorem decode_of_encode (h : v.Integral) (hdepth : v.depth ≤ 127) (hv : json.encode v = .ok payload) :
    json.decode payload = .ok v.canonical := by
  have hblank := all_isBlankByte_of_encode h hv
  cases hv
  change (if v.bytes.all isBlankByte then Except.ok Json.null else Json.decode v.bytes) = _
  rw [hblank, if_neg Bool.false_ne_true]
  exact Json.legible_of_exact (Json.exact_of_integral h) hdepth

end Codec

variable {m : Inbound} {c : Call} {fresh : TraceId}

namespace Rest

variable {template : Option PathTemplate}

/-- The payload of a call is what was read from the body, encoded. -/
theorem exists_payload_eq (h : Rest.accept { template } fresh m = .ok c) :
    ∃ v, Codec.json.decode m.body = .ok v ∧ Codec.json.encode v = .ok c.payload := by
  obtain ⟨-, service, method, v, payload, -, hbody, hpayload, rfl⟩ := accept_eq_ok_iff.mp h
  exact ⟨v, hbody, hpayload⟩

/-- With another body that holds the same value the same call comes of a message. -/
theorem accept_of_decode_eq (h : Rest.accept { template } fresh m = .ok c) {body : Bytes}
    (hbody : Codec.json.decode body = Codec.json.decode m.body) :
    Rest.accept { template } fresh { m with body } = .ok c := by
  obtain ⟨hrest, service, method, v, payload, htarget, hv, hpayload, rfl⟩ := accept_eq_ok_iff.mp h
  exact accept_eq_ok_iff.mpr
    ⟨hrest, service, method, v, payload, htarget, hbody.trans hv, hpayload, rfl⟩

/-- Encoding is undone by decoding, for every value whose numbers are integers of at most 64 bits and
that is not nested more than 127 deep:

* the value can be encoded, what comes of it is not blank, and what is decoded from that is the value,
  with the members of its objects in order, as they are in every value that is read; so it is the same
  value if they were.

Hence, whatever paths a REST adapter reads, the payload of every call that it accepts is the encoding of
the value in the body, and if the numbers in that are such integers,

* the payload decodes to the same value as the body, and is not empty;
* as the body of the same message it makes the same call;
* as the body of any other message that is accepted it makes a call with the same payload. -/
theorem payload_canonical :
    (∀ v : Json, v.Integral → v.depth ≤ 127 →
      ∃ payload, Codec.json.encode v = .ok payload ∧ payload.all Codec.isBlankByte = false ∧
        Codec.json.decode payload = .ok v.canonical ∧
        (v.Ordered → Codec.json.decode payload = .ok v)) ∧
    ∀ (template : Option PathTemplate) (fresh : TraceId) (m : Inbound) (c : Call),
      Rest.accept { template } fresh m = .ok c →
      ∃ v, Codec.json.decode m.body = .ok v ∧ Codec.json.encode v = .ok c.payload ∧
        (v.Integral →
          Codec.json.decode c.payload = .ok v ∧ c.payload ≠ [] ∧
          Rest.accept { template } fresh { m with body := c.payload } = .ok c ∧
          ∀ (template' : Option PathTemplate) (fresh' : TraceId) (m' : Inbound) (c' : Call),
            m'.body = c.payload → Rest.accept { template := template' } fresh' m' = .ok c' →
              c'.payload = c.payload) := by
  refine ⟨fun v hv hdepth ↦ ?_, fun template fresh m c hc ↦ ?_⟩
  · have hback := Codec.decode_of_encode hv hdepth (Codec.json_encode v)
    refine ⟨v.bytes, rfl, Codec.all_isBlankByte_of_encode hv rfl, hback, fun hordered ↦ ?_⟩
    rw [hback, Json.canonical_of_ordered hordered]
  · obtain ⟨v, hbody, hpayload⟩ := exists_payload_eq hc
    refine ⟨v, hbody, hpayload, fun hv ↦ ?_⟩
    have hback : Codec.json.decode c.payload = .ok v := by
      rw [Codec.decode_of_encode hv (Codec.depth_le_of_decode hbody) hpayload,
        Json.canonical_of_ordered (Codec.ordered_decode hbody)]
    refine ⟨hback, fun hempty ↦ ?_, accept_of_decode_eq hc (hback.trans hbody.symm),
      fun template' fresh' m' c' hbody' hc' ↦ ?_⟩
    · have hblank := Codec.all_isBlankByte_of_encode hv hpayload
      rw [hempty] at hblank
      cases hblank
    · obtain ⟨v', hv', hpayload'⟩ := exists_payload_eq hc'
      rw [hbody', hback] at hv'
      cases hv'
      exact Except.ok.inj (hpayload'.symm.trans hpayload)

/-- Integers at either end of what 64 bits hold, in a body that is spelt in another way. -/
theorem payload_canonical_respelt :
    let v : Json := .object
      [("a", .int 18446744073709551615), ("é\n", .array [.int (-9223372036854775808), .string "\""])]
    let fresh : TraceId := ⟨"t", by decide⟩
    let m : Inbound :=
      { protocol := .rest
        service := some "s"
        method := some "m"
        body := Utf8.encode
          (" \x7b\"\\u00e9\\n\":[-9223372036854775808, \"\\u0022\"], " ++
            "\"a\":1, \"a\":18446744073709551615\x7d") }
    (v.Integral ∧ v.depth ≤ 127 ∧ v.Ordered ∧
      ∃ payload, Codec.json.encode v = .ok payload ∧ Codec.json.decode payload = .ok v) ∧
      ∃ c, Rest.accept { template := none } fresh m = .ok c ∧ Codec.json.decode m.body = .ok v ∧
        c.payload ≠ m.body ∧ Codec.json.decode c.payload = .ok v ∧
        Rest.accept { template := none } fresh { m with body := c.payload } = .ok c := by
  intro v fresh m
  have hintegral : v.Integral :=
    ⟨⟨by decide, by decide⟩, ⟨⟨by decide, by decide⟩, trivial, trivial⟩, trivial⟩
  have hdepth : v.depth ≤ 127 := by decide
  have hbody : Codec.json.decode m.body = .ok v := by decide +kernel
  have hordered : v.Ordered := Codec.ordered_decode hbody
  have hdiffers : v.bytes ≠ m.body := by decide +kernel
  obtain ⟨c, hc⟩ : ∃ c, Rest.accept { template := none } fresh m = .ok c :=
    ⟨_, accept_eq_ok_iff.mpr ⟨rfl, "s", "m", v, _, by decide +kernel, hbody, rfl, rfl⟩⟩
  obtain ⟨hvalues, hcalls⟩ := payload_canonical
  obtain ⟨v', hv', hpayload, hcanonical⟩ := hcalls none fresh m c hc
  cases hbody.symm.trans hv'
  obtain ⟨hback, -, hagain, -⟩ := hcanonical hintegral
  obtain ⟨payload, hencode, -, -, hsame⟩ := hvalues v hintegral hdepth
  have hpayload : v.bytes = c.payload := Except.ok.inj hpayload
  exact ⟨⟨hintegral, hdepth, hordered, payload, hencode, hsame hordered⟩,
    c, hc, hbody, hpayload ▸ hdiffers, hback, hagain⟩

end Rest

end Interchange
