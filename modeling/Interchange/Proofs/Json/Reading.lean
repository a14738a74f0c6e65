import Interchange.Failure
import Interchange.Json.Shape
import Interchange.Proofs.Dictionary

/-!
# What is read

Whatever a reader answers has come of one step after another, and is taken apart in
the same way.  Two things are said here of what is read.

A value that was read has its objects in order (`Json.ordered_parse`), so no key
has two values in it.  The readers of numbers and strings answer scalars, and the
loops over items and members only what the reader of values answered before.

A record that was filled from the members of an object holds what the object holds
(`Json.Shape.fillFromMembers_of_none`, `Json.Shape.fillFromMembers_of_get?`): a field
is set by the member of its name, and by no other.
-/

namespace Interchange

/-! ## One step after another -/

/-- What comes of two steps has come of each of them. -/
theorem bind_eq_ok {ε α β : Type} {x : Except ε α} {f : α → Except ε β} {b : β} :
    x >>= f = .ok b ↔ ∃ a, x = .ok a ∧ f a = .ok b := by
  cases x with
  | error e => exact ⟨nofun, fun ⟨_, h, _⟩ ↦ nomatch h⟩
  | ok a => exact ⟨fun h ↦ ⟨a, rfl, h⟩, fun ⟨_, h, hb⟩ ↦ Except.ok.inj h ▸ hb⟩

/-- Where the first step comes to something, and so does the second, both together do. -/
theorem exists_bind {ε α β : Type} {x : Except ε α} {f : α → Except ε β} {a : α} (h : x = .ok a)
    (hf : ∃ b, f a = .ok b) : ∃ b, x >>= f = .ok b := by
  subst h
  exact hf

namespace Json

/-! ## Scalars -/

/-- A value that is neither an array nor an object. -/
def Scalar : Json → Prop
  | .null | .bool _ | .int _ | .float _ | .string _ => True
  | .array _ | .object _ => False

/-- A value that is a number. -/
def IsNumber : Json → Prop
  | .int _ | .float _ => True
  | _ => False

theorem IsNumber.scalar {j : Json} (h : j.IsNumber) : j.Scalar := by
  cases j with
  | int | float => trivial
  | null | bool | string | array | object => cases h

theorem Scalar.ordered {j : Json} (h : j.Scalar) : j.Ordered := by
  cases j with
  | array | object => cases h
  | null | bool | int | float | string => simp [Ordered]

theorem orderedItems_iff {items : List Json} : OrderedItems items ↔ ∀ j ∈ items, j.Ordered := by
  induction items with
  | nil => simp [OrderedItems]
  | cons j rest ih => simp [OrderedItems, ih]

theorem orderedMembers_iff {members : List (String × Json)} :
    OrderedMembers members ↔ ∀ e ∈ members, e.2.Ordered := by
  induction members with
  | nil => simp [OrderedMembers]
  | cons e rest ih => simp [OrderedMembers, ih]

/-- An object that is made of members is in order if their values are. -/
theorem ordered_ofMembers {members : List (String × Json)} (h : ∀ e ∈ members, e.2.Ordered) :
    (ofMembers members).Ordered := by
  refine ⟨Dictionary.sorted_ofList members, orderedMembers_iff.mpr fun e he ↦ ?_⟩
  exact h e (Dictionary.mem_of_mem_ofList he)

namespace Reader

variable {α : Type} {bytes after : Bytes} {j : Json}

theorem isNumber_wholeNumber (negative : Bool) (sum : Nat) : (wholeNumber negative sum).IsNumber := by
  unfold wholeNumber
  split
  · trivial
  · split <;> trivial

theorem isNumber_doubleTail {negative : Bool} {sum : Nat} {place : Int}
    (h : doubleTail negative sum place bytes = .ok (j, after)) : j.IsNumber := by
  unfold doubleTail at h
  dsimp only at h
  split at h
  · split at h <;> cases h
    trivial
  · split at h
    · obtain ⟨⟨e, left⟩, -, h⟩ := bind_eq_ok.mp h
      dsimp only at h
      split at h
      · split at h <;> cases h
        trivial
      · cases h
        trivial
    · split at h <;> cases h
      trivial

theorem isNumber_numberTail {negative : Bool} {whole : List Nat}
    (h : numberTail negative whole bytes = .ok (j, after)) : j.IsNumber := by
  unfold numberTail at h
  dsimp only at h
  split at h
  · split at h
    · cases h; exact isNumber_wholeNumber ..
    · exact isNumber_doubleTail h
  · split at h
    · split at h
      · split at h <;> cases h
      · exact isNumber_doubleTail h
    · split at h
      · exact isNumber_doubleTail h
      · cases h; exact isNumber_wholeNumber ..

theorem isNumber_number {negative : Bool} (h : number negative bytes = .ok (j, after)) : j.IsNumber := by
  unfold number at h
  split at h
  · cases h
  · split at h
    · cases h
    · dsimp only at h
      split at h
      · cases h
      · exact isNumber_numberTail h

/-! ## Arrays and objects -/

/-- What the loop over items answers was answered by the reader of items. -/
theorem forall_items {P : α → Prop} {item : Bytes → Except Fault (α × Bytes)}
    (hitem : ∀ {bytes x after}, item bytes = .ok (x, after) → P x) {rounds : Nat} {first : Bool}
    {xs : List α} (h : items item rounds first bytes = .ok (xs, after)) : ∀ x ∈ xs, P x := by
  induction rounds generalizing first bytes xs after with
  | zero => cases h
  | succ rounds ih =>
    obtain ⟨⟨more, here⟩, -, h⟩ := bind_eq_ok.mp h
    dsimp only at h
    split at h
    · obtain ⟨⟨x, left⟩, hx, h⟩ := bind_eq_ok.mp h
      obtain ⟨⟨xs, left⟩, hxs, h⟩ := bind_eq_ok.mp h
      cases h
      exact List.forall_mem_cons.mpr ⟨hitem hx, ih hxs⟩
    · cases h
      exact List.forall_mem_nil _

/-- What the loop over members answers was answered by the reader of values. -/
theorem forall_members {P : α → Prop} {value : Bytes → Except Fault (α × Bytes)}
    (hvalue : ∀ {bytes x after}, value bytes = .ok (x, after) → P x) {rounds : Nat} {first : Bool}
    {ms : List (String × α)} (h : members value rounds first bytes = .ok (ms, after)) :
    ∀ e ∈ ms, P e.2 := by
  induction rounds generalizing first bytes ms after with
  | zero => cases h
  | succ rounds ih =>
    obtain ⟨⟨more, here⟩, -, h⟩ := bind_eq_ok.mp h
    dsimp only at h
    split at h
    · obtain ⟨⟨key, left⟩, -, h⟩ := bind_eq_ok.mp h
      obtain ⟨left, -, h⟩ := bind_eq_ok.mp h
      obtain ⟨⟨x, left⟩, hx, h⟩ := bind_eq_ok.mp h
      obtain ⟨⟨ms, left⟩, hms, h⟩ := bind_eq_ok.mp h
      cases h
      exact List.forall_mem_cons.mpr ⟨hvalue hx, ih hms⟩
    · cases h
      exact List.forall_mem_nil _

/-- How a value is read, from the first byte that is not blank and those behind it. -/
inductive Leads (array object : Bytes → Except Fault (Json × Bytes)) (b : UInt8) (rest after : Bytes) :
    Json → Prop
  | null (hb : b = 'n'.toUInt8) : Leads array object b rest after .null
  | bool (x : Bool) : Leads array object b rest after (.bool x)
  | string (s : String) : Leads array object b rest after (.string s)
  | negative {j : Json} (hb : b = '-'.toUInt8) (h : number true rest = .ok (j, after)) :
      Leads array object b rest after j
  | digits {j : Json} (hb : (digit? b).isSome = true) (h : number false (b :: rest) = .ok (j, after)) :
      Leads array object b rest after j
  | array {j : Json} (h : array rest = .ok (j, after)) : Leads array object b rest after j
  | object {j : Json} (h : object rest = .ok (j, after)) : Leads array object b rest after j

section

variable {array object : Bytes → Except Fault (Json × Bytes)}

theorem leads_of_valueBy (h : valueBy array object bytes = .ok (j, after)) :
    ∃ b rest, skipBlank bytes = b :: rest ∧ Leads array object b rest after j := by
  unfold valueBy at h
  split at h
  · cases h
  · next b rest hskip =>
    refine ⟨b, rest, hskip, ?_⟩
    split at h
    · next hb =>
      obtain ⟨left, -, h⟩ := bind_eq_ok.mp h
      cases h; exact .null hb
    split at h
    · obtain ⟨left, -, h⟩ := bind_eq_ok.mp h
      cases h; exact .bool true
    split at h
    · obtain ⟨left, -, h⟩ := bind_eq_ok.mp h
      cases h; exact .bool false
    split at h
    · next hb => exact .negative hb h
    split at h
    · next hb => exact .digits hb h
    split at h
    · obtain ⟨⟨s, left⟩, -, h⟩ := bind_eq_ok.mp h
      cases h; exact .string s
    split at h
    · exact .array h
    split at h
    · exact .object h
    · cases h

/-- A value is a scalar, or is read behind its opening bracket. -/
theorem valueBy_cases (h : valueBy array object bytes = .ok (j, after)) :
    j.Scalar ∨ ∃ rest, array rest = .ok (j, after) ∨ object rest = .ok (j, after) := by
  obtain ⟨b, rest, -, hleads⟩ := leads_of_valueBy h
  cases hleads with
  | null | bool | string => exact .inl trivial
  | negative _ h | digits _ h => exact .inl (isNumber_number h).scalar
  | array h => exact .inr ⟨rest, .inl h⟩
  | object h => exact .inr ⟨rest, .inr h⟩

end

theorem ordered_value {depth : Nat} (h : value depth bytes = .ok (j, after)) : j.Ordered := by
  induction depth generalizing bytes j after with
  | zero =>
    rcases valueBy_cases h with h | ⟨rest, h | h⟩
    · exact h.ordered
    · cases h
    · cases h
  | succ depth ih =>
    rcases valueBy_cases h with h | ⟨rest, h | h⟩
    · exact h.ordered
    · obtain ⟨⟨xs, left⟩, hxs, h⟩ := bind_eq_ok.mp h
      cases h
      exact orderedItems_iff.mpr (forall_items ih hxs)
    · obtain ⟨⟨ms, left⟩, hms, h⟩ := bind_eq_ok.mp h
      cases h
      exact ordered_ofMembers (forall_members ih hms)

end Reader

/-- What a text holds was read as a value from its front. -/
theorem exists_value_of_parse {text : Bytes} {j : Json} (h : parse text = .ok j) :
    ∃ after, Reader.value Reader.depthLimit text = .ok (j, after) := by
  unfold parse Reader.finish at h
  split at h
  · cases h
  · next after hvalue =>
    split at h
    · cases h
      exact ⟨after, hvalue⟩
    · cases h

/-- What is read from a text has its objects in order. -/
theorem ordered_parse {text : Bytes} {j : Json} (h : parse text = .ok j) : j.Ordered := by
  obtain ⟨after, hvalue⟩ := exists_value_of_parse h
  exact Reader.ordered_value hvalue

theorem parse_of_decode {text : Bytes} {j : Json} (h : decode text = .ok j) : parse text = .ok j := by
  unfold decode at h
  cases hparse : parse text with
  | error fault => rw [hparse] at h; cases h
  | ok x =>
    rw [hparse] at h
    cases h
    rfl

theorem ordered_decode {text : Bytes} {j : Json} (h : decode text = .ok j) : j.Ordered :=
  ordered_parse (parse_of_decode h)

/-! ## Records -/

namespace Shape

variable {σ γ : Type} {fields : List (Field σ)} {f : Field σ} {name : String} {p : σ → γ}
  {members : List (String × Json)} {r r' : σ}

/-- A field does not touch a part of the record. -/
def Field.Keeps (f : Field σ) (p : σ → γ) : Prop :=
  ∀ j set, f.content.ofJson j = .ok set → ∀ r, p (set r) = p r

theorem Field.ofJson_of {α : Type} {absence : Absence} {shape : Shape α} {put : α → σ → σ} {j : Json}
    {set : σ → σ} (h : (Field.of name absence shape put).content.ofJson j = .ok set) :
    ∃ x, shape.ofJson j = .ok x ∧ set = put x := by
  change (shape.ofJson j).map put = .ok set at h
  cases hx : shape.ofJson j with
  | error m => rw [hx] at h; cases h
  | ok x => rw [hx] at h; cases h; exact ⟨x, rfl, rfl⟩

theorem Field.keeps_of {α : Type} {absence : Absence} {shape : Shape α} {put : α → σ → σ}
    (h : ∀ x r, p (put x r) = p r) : (Field.of name absence shape put).Keeps p := by
  intro j set hset r
  obtain ⟨x, -, rfl⟩ := Field.ofJson_of hset
  exact h x r

/-- Without a member of its name, a part of a record stays as it is. -/
theorem fillFromMembers_of_none (hkeeps : ∀ f ∈ fields, f.name ≠ name → f.Keeps p)
    (hnone : Dictionary.get? members name = none) (h : fillFromMembers fields members r = .ok r') :
    p r' = p r := by
  induction members generalizing r with
  | nil => cases h; rfl
  | cons e rest ih =>
    obtain ⟨key, j⟩ := e
    rw [Dictionary.get?] at hnone
    split at hnone
    · cases hnone
    · next hkey =>
      rw [fillFromMembers] at h
      split at h
      · next f hf =>
        obtain ⟨set, hset, h⟩ := bind_eq_ok.mp h
        have hname : f.name = key := by simpa using List.find?_some hf
        rw [ih hnone h, hkeeps f (List.mem_of_find?_eq_some hf) (hname ▸ hkey) j set hset]
      · exact ih hnone h

/-- The member of its name is what sets a part of a record. -/
theorem fillFromMembers_of_get? (hkeeps : ∀ f ∈ fields, f.name ≠ name → f.Keeps p)
    (hf : fields.find? (·.name = name) = some f) {j : Json} {x : γ}
    (hsets : ∀ set, f.content.ofJson j = .ok set → ∀ r, p (set r) = x)
    (hsorted : Dictionary.Sorted members) (hget : Dictionary.get? members name = some j)
    (h : fillFromMembers fields members r = .ok r') : p r' = x := by
  induction members generalizing r with
  | nil => cases hget
  | cons e rest ih =>
    obtain ⟨key, j'⟩ := e
    obtain ⟨hfirst, hrest⟩ := List.pairwise_cons.mp hsorted
    rw [Dictionary.get?] at hget
    split at hget
    · next hkey =>
      -- No later member has the name.
      cases hget
      have hnone : Dictionary.get? rest name = none := by
        cases hv : Dictionary.get? rest name with
        | none => rfl
        | some v => exact absurd (hfirst _ (Dictionary.mem_of_get?_eq_some hv)) (by simp [hkey])
      rw [fillFromMembers, hkey, hf] at h
      obtain ⟨set, hset, h⟩ := bind_eq_ok.mp h
      rw [fillFromMembers_of_none hkeeps hnone h, hsets set hset]
    · rw [fillFromMembers] at h
      split at h
      · obtain ⟨set, -, h⟩ := bind_eq_ok.mp h
        exact ih hrest hget h
      · exact ih hrest hget h

/-- A part of a record that only the field of some name touches holds what the member of that name says,
or what it held before there was a member. -/
theorem part_of_ofJson (p : σ → γ) (name : String) (value : Json → γ) {label : String} {blank : σ}
    (h : (record label blank fields).ofJson (.object members) = .ok r)
    (hsorted : Dictionary.Sorted members) (hf : fields.find? (·.name = name) = some f)
    (hkeeps : ∀ f ∈ fields, f.name ≠ name → f.Keeps p)
    (hsets : ∀ j set, f.content.ofJson j = .ok set → ∀ r, p (set r) = value j) :
    p r = ((Dictionary.get? members name).map value).getD (p blank) := by
  obtain ⟨x, hx, h⟩ := bind_eq_ok.mp h
  split at h
  · cases h
  · cases h
    cases hget : Dictionary.get? members name with
    | none => exact fillFromMembers_of_none hkeeps hget hx
    | some j => exact fillFromMembers_of_get? hkeeps hf (hsets j) hsorted hget hx

end Shape

end Json

end Interchange
