import Interchange.Proofs.Json.Writing

/-!
# Records in a text

A shape takes from a text what was written there (`Json.Shape.Takes`): any value, a
text, an integer, what may be `null`, and a record, if each of its members fills a
field that no member before it has filled (`Json.Shape.Fills`).  The main rule is
`Json.Shape.takes_record`; the induction is on the members.

Of a text that nobody wrote less is known: only what every shape of a field makes
sure of (`Json.Shape.answers_record`).  So a value is never nested deeper than the
reader goes, and where `null` counts as nothing, it is never what was read.
-/

namespace Interchange.Json

variable {α β σ : Type} {shape : Shape α} {d : Nat} {j : Json} {x : α}

/-! ## Depth -/

theorem depthItems_le_iff {items : List Json} : depthItems items ≤ d ↔ ∀ j ∈ items, j.depth ≤ d := by
  induction items with
  | nil => simp [depthItems]
  | cons j rest ih => simp [depthItems, ih]

theorem depthMembers_le_iff {members : List (String × Json)} :
    depthMembers members ≤ d ↔ ∀ e ∈ members, e.2.depth ≤ d := by
  induction members with
  | nil => simp [depthMembers]
  | cons e rest ih => simp [depthMembers, ih]

theorem Scalar.depth_eq (h : j.Scalar) : j.depth = 0 := by
  cases j with
  | array | object => cases h
  | null | bool | int | float | string => rfl

/-- A value that was read is not nested deeper than the reader goes. -/
theorem Reader.depth_le_of_value {bytes after : Bytes} (h : value d bytes = .ok (j, after)) :
    j.depth ≤ d := by
  induction d generalizing bytes j after with
  | zero =>
    rcases valueBy_cases h with h | ⟨rest, h | h⟩
    · exact Nat.le_of_eq h.depth_eq
    · cases h
    · cases h
  | succ d ih =>
    rcases valueBy_cases h with h | ⟨rest, h | h⟩
    · rw [h.depth_eq]
      exact Nat.zero_le _
    · obtain ⟨⟨xs, left⟩, hxs, h⟩ := bind_eq_ok.mp h
      cases h
      exact Nat.succ_le_succ (depthItems_le_iff.mpr (forall_items ih hxs))
    · obtain ⟨⟨ms, left⟩, hms, h⟩ := bind_eq_ok.mp h
      cases h
      have hdepth : ∀ e ∈ ms, e.2.depth ≤ d := forall_members ih hms
      refine Nat.succ_le_succ (depthMembers_le_iff.mpr fun e he ↦ ?_)
      exact hdepth e (Dictionary.mem_of_mem_ofList he)

theorem depth_le_of_parse {text : Bytes} (h : parse text = .ok j) : j.depth ≤ 127 := by
  obtain ⟨after, hvalue⟩ := exists_value_of_parse h
  exact Reader.depth_le_of_value hvalue

namespace Shape

open Reader

/-- What is refused is not taken for anything. -/
theorem refuse_ne_ok (expected : String) (bytes : Bytes) (x : α) : refuse expected bytes ≠ .ok x := by
  intro h
  unfold refuse at h
  split at h
  · cases h
  dsimp only at h
  split at h
  · obtain ⟨left, -, h⟩ := bind_eq_ok.mp h
    cases h
  split at h
  · obtain ⟨left, -, h⟩ := bind_eq_ok.mp h
    cases h
  split at h
  · obtain ⟨left, -, h⟩ := bind_eq_ok.mp h
    cases h
  split at h
  · obtain ⟨left, -, h⟩ := bind_eq_ok.mp h
    cases h
  split at h
  · obtain ⟨left, -, h⟩ := bind_eq_ok.mp h
    cases h
  split at h
  · obtain ⟨left, -, h⟩ := bind_eq_ok.mp h
    cases h
  split at h
  · cases h
  split at h
  · cases h
  · cases h

/-! ## What was written -/

/-- From the front of a text that begins with the written form of a value, and does not go on with a
number, the shape takes what is meant. Blanks in front of the text make no difference. -/
def Takes (shape : Shape α) (d : Nat) (j : Json) (x : α) : Prop :=
  ∀ bytes rest, Ends rest → skipBlank bytes = skipBlank (j.bytes ++ rest) →
    shape.read d bytes = .ok (x, rest)

theorem Takes.read_append (h : shape.Takes d j x) {rest : Bytes} (hrest : Ends rest) :
    shape.read d (j.bytes ++ rest) = .ok (x, rest) := h _ rest hrest rfl

theorem Takes.parse_bytes (h : shape.Takes depthLimit j x) : shape.parse j.bytes = .ok x := by
  have hends : Ends [] := trivial
  have hread := h.read_append hends
  rw [List.append_nil] at hread
  rw [parse, hread]
  rfl

theorem takes_any (h : j.Exact) (hd : j.depth ≤ d) : any.Takes d j j.canonical := by
  intro bytes rest hrest hskip
  change value d bytes = _
  rw [← value_skipBlank, hskip, value_skipBlank]
  exact value_append h hd hrest

theorem takes_text (s : String) : text.Takes d (.string s) s := by
  intro bytes rest hrest hskip
  have hquote : skipBlank bytes = '\"'.toUInt8 :: (bodyBytes s ++ rest) := hskip
  unfold text
  dsimp only
  rw [hquote]
  exact stringBody_append s rest

/-- A number is taken if it passes the check. -/
theorem takes_numeric {expected : String} {check : Json → Except Mismatch α} (hj : j.IsNumber)
    (h : j.Exact) (hcheck : check j = .ok x) : (numeric expected check).Takes d j x := by
  intro bytes rest hrest hskip
  have hreads : value 0 j.bytes = .ok (j, []) := by
    cases j with
    | int | float => exact h
    | null | bool | string | array | object => cases hj
  unfold numeric
  dsimp only
  obtain ⟨b, r, hfront, ⟨rfl, hnumber⟩ | ⟨hdigit, hnumber⟩⟩ := number_of_value hj hreads
  · rw [hskip, skipBlank_append hfront]
    dsimp only
    rw [if_pos rfl, number_append hrest hnumber]
    change placed (check j) rest = _
    rw [hcheck]
    rfl
  · have hsign : b ≠ '-'.toUInt8 := by
      rintro rfl
      cases hdigit
    rw [hskip, skipBlank_append hfront]
    dsimp only
    rw [if_neg hsign, if_pos hdigit]
    change number false (b :: r ++ rest) >>= _ = _
    rw [number_append hrest hnumber]
    change placed (check j) rest = _
    rw [hcheck]
    rfl

theorem takes_integer {expected : String} {low high n : Int} (h : (Json.int n).Exact) (hlow : low ≤ n)
    (hhigh : n ≤ high) : (integer expected low high).Takes d (.int n) n :=
  takes_numeric trivial h (if_pos ⟨hlow, hhigh⟩)

theorem takes_nullable_null : shape.nullable.Takes d .null none := by
  intro bytes rest hrest hskip
  have hnull : skipBlank bytes = 'n'.toUInt8 :: 'u'.toUInt8 :: 'l'.toUInt8 :: 'l'.toUInt8 :: rest := hskip
  unfold nullable
  dsimp only
  rw [hnull]
  rfl

/-- What is not `null` counts for what it is. -/
theorem Takes.nullable (h : shape.Takes d j x) (hj : j.Exact) (hnull : j ≠ .null) :
    shape.nullable.Takes d j (some x) := by
  intro bytes rest hrest hskip
  obtain ⟨b, r, hfront, -, hletter⟩ := exists_head hj rest
  have hread : shape.read d (b :: r) = .ok (x, rest) := by
    refine h (b :: r) rest hrest ?_
    rw [← hfront]
    exact List.dropWhile_idempotent _ _
  unfold Shape.nullable
  dsimp only
  rw [hskip, hfront]
  dsimp only
  rw [if_neg fun hb ↦ hnull (hletter hb), hread]
  rfl

theorem Takes.of {name : String} {absence : Absence} {put : α → σ → σ} (h : shape.Takes d j x) :
    (Field.of name absence shape put).content.Takes d j (put x) := by
  intro bytes rest hrest hskip
  change (shape.read d bytes).map _ = _
  rw [h bytes rest hrest hskip]
  rfl

/-! ### Records -/

/-- What members make of a record, each of which fills another field. No field may be left that must be
filled. -/
inductive Fills (fields : List (Field σ)) (d : Nat) : List String → List (String × Json) → σ → σ → Prop
  | nil {seen : List String} {r : σ} (h : missing? fields seen = none) : Fills fields d seen [] r r
  | cons {seen : List String} {key : String} {j : Json} {members : List (String × Json)} {f : Field σ}
      {set : σ → σ} {r r' : σ} (hfield : fields.find? (·.name = key) = some f)
      (hnew : seen.contains key = false) (hset : f.content.Takes d j set)
      (hrest : Fills fields d (key :: seen) members (set r) r') :
      Fills fields d seen ((key, j) :: members) r r'

section

variable {fields : List (Field σ)} {seen : List String} {members : List (String × Json)} {r r' : σ}

/-- At the closing brace the record is complete. -/
theorem readMembers_end (hmissing : missing? fields seen = none) (rounds : Nat) (first : Bool)
    (rest : Bytes) :
    readMembers fields d (rounds + 1) first seen ('\x7d'.toUInt8 :: rest) r = .ok (r, rest) := by
  have hend : nextMember first ('\x7d'.toUInt8 :: rest) = .ok (false, '\x7d'.toUInt8 :: rest) := rfl
  rw [readMembers, hend]
  change Except.bind (.ok _) _ = _
  rw [Except.bind]
  dsimp only
  rw [if_neg Bool.false_ne_true, hmissing]
  rfl

/-- A member that fills a field, in front of others. -/
theorem readMembers_cons {key : String} {f : Field σ} {set : σ → σ} {rest : Bytes} (hrest : Ends rest)
    (hfield : fields.find? (·.name = key) = some f) (hnew : seen.contains key = false)
    (hset : f.content.Takes d j set) (rounds : Nat) (first : Bool) :
    readMembers fields d (rounds + 1) first seen (separator first ++ '\"'.toUInt8 :: keyed key j rest) r =
      readMembers fields d rounds false (key :: seen) rest (set r) := by
  rw [readMembers, nextMember_separator]
  change stringBody (bodyBytes key ++ _) >>= _ = _
  rw [stringBody_append]
  change Except.bind (.ok (key, _)) _ = _
  rw [Except.bind]
  dsimp only
  rw [hfield]
  dsimp only
  rw [if_neg (by simp only [hnew, Bool.false_eq_true, not_false_eq_true])]
  change f.content.read d (j.bytes ++ rest) >>= _ = _
  rw [hset.read_append hrest]
  rfl

/-- The members behind the first fill a record. -/
theorem readMembers_append (h : Fills fields d seen members r r') {rounds : Nat}
    (hrounds : members.length < rounds) (rest : Bytes) :
    readMembers fields d rounds false seen (memberBytes members ++ rest) r = .ok (r', rest) := by
  induction h generalizing rounds with
  | nil hmissing =>
    obtain ⟨rounds, rfl⟩ : ∃ k, rounds = k + 1 := ⟨rounds - 1, by omega⟩
    exact readMembers_end hmissing rounds false rest
  | cons hfield hnew hset _ ih =>
    obtain ⟨rounds, rfl⟩ : ∃ k, rounds = k + 1 := ⟨rounds - 1, by omega⟩
    rw [memberBytes_cons, readMembers_cons (ends_memberBytes _ rest) hfield hnew hset]
    exact ih (Nat.lt_of_succ_lt_succ hrounds)

/-- An object whose members fill a record is taken for that record. -/
theorem takes_record {name : String} {blank : σ} (h : Fills fields d [] members blank r) :
    (record name blank fields).Takes (d + 1) (.object members) r := by
  intro bytes rest hrest hskip
  have hbrace {inside : Bytes} (hinside : skipBlank bytes = '\x7b'.toUInt8 :: inside) :
      (record name blank fields).read (d + 1) bytes =
        readMembers fields d (inside.length + 1) true [] inside blank := by
    unfold record
    dsimp only
    rw [hinside]
    rfl
  cases h with
  | nil hmissing =>
    rw [hbrace hskip]
    exact readMembers_end hmissing _ true rest
  | @cons _ key j members f set _ _ hfield hnew hset hfills =>
    have hbytes := bytes_object_cons key j members rest
    have hlength := length_lt_memberBytes members
    rw [hbytes] at hskip
    rw [hbrace hskip, readMembers_cons (ends_memberBytes members rest) hfield hnew hset]
    refine readMembers_append hfills ?_ rest
    simp only [List.length_append, List.length_cons, keyed]
    omega

end

/-! ## What was read -/

/-- Whatever the shape takes from a text has a property, which may speak of the depth allowed. -/
def Answers (shape : Shape α) (P : Nat → α → Prop) : Prop :=
  ∀ ⦃d bytes x after⦄, shape.read d bytes = .ok (x, after) → P d x

theorem answers_any : any.Answers fun d j ↦ j.depth ≤ d := fun _ _ _ _ ↦ depth_le_of_value

theorem Answers.of {P : Nat → α → Prop} {I : Nat → σ → Prop} {name : String} {absence : Absence}
    {put : α → σ → σ} (h : shape.Answers P) (hput : ∀ d x r, P d x → I d r → I d (put x r)) :
    (Field.of name absence shape put).content.Answers fun d set ↦ ∀ r, I d r → I d (set r) := by
  intro d bytes set after hread r hr
  change (shape.read d bytes).map _ = _ at hread
  cases hx : shape.read d bytes with
  | error fault => rw [hx] at hread; cases hread
  | ok y =>
    rw [hx] at hread
    cases hread
    exact hput d y.1 r (h hx) hr

/-- A field whose content does not matter. -/
theorem answers_of {I : Nat → σ → Prop} {name : String} {absence : Absence} {put : α → σ → σ}
    (hput : ∀ d x r, I d r → I d (put x r)) :
    (Field.of name absence shape put).content.Answers fun d set ↦ ∀ r, I d r → I d (set r) := by
  have hall : shape.Answers fun _ _ ↦ True := fun _ _ _ _ _ ↦ trivial
  exact hall.of fun d x r _ ↦ hput d x r

/-- What may be `null` is nothing, or has been taken from a text that begins with another letter. -/
theorem answers_nullable {P : Nat → α → Prop}
    (h : ∀ ⦃d b rest x after⦄, skipBlank (b :: rest) = b :: rest → b ≠ 'n'.toUInt8 →
      shape.read d (b :: rest) = .ok (x, after) → P d x) :
    shape.nullable.Answers fun d o ↦ ∀ x ∈ o, P d x := by
  intro d bytes o after hread x hx
  unfold nullable at hread
  dsimp only at hread
  split at hread
  · cases hread
  · next b rest hskip =>
    split at hread
    · obtain ⟨left, -, hread⟩ := bind_eq_ok.mp hread
      cases hread
      cases hx
    · next hletter =>
      obtain ⟨⟨y, left⟩, hy, hread⟩ := bind_eq_ok.mp hread
      cases hread
      cases hx
      refine h ?_ hletter hy
      rw [← hskip]
      exact List.dropWhile_idempotent _ bytes

/-- Where `null` counts as nothing, it is never what was read. -/
theorem answers_nullable_any :
    any.nullable.Answers fun d o ↦ ∀ j ∈ o, j ≠ .null ∧ j.depth ≤ d := by
  refine answers_nullable fun d b rest j after hskip hletter hread ↦ ⟨?_, depth_le_of_value hread⟩
  rintro rfl
  have hnull {array object : Bytes → Except Fault (Json × Bytes)}
      (hread : valueBy array object (b :: rest) = .ok (.null, after))
      (harray : ∀ here, array here ≠ .ok (.null, after))
      (hobject : ∀ here, object here ≠ .ok (.null, after)) : False := by
    obtain ⟨c, left, hc, hleads⟩ := leads_of_valueBy hread
    cases hskip.symm.trans hc
    cases hleads with
    | null hb => exact hletter hb
    | negative _ h | digits _ h => exact isNumber_number h
    | array h => exact harray _ h
    | object h => exact hobject _ h
  cases d with
  | zero => exact hnull hread (fun _ h ↦ nomatch h) (fun _ h ↦ nomatch h)
  | succ d =>
    refine hnull hread (fun here h ↦ ?_) (fun here h ↦ ?_)
    · obtain ⟨⟨xs, left⟩, -, h⟩ := bind_eq_ok.mp h
      cases h
    · obtain ⟨⟨ms, left⟩, -, h⟩ := bind_eq_ok.mp h
      cases h

section

variable {fields : List (Field σ)} {I : Nat → σ → Prop} {r r' : σ} {bytes after : Bytes}
  (hfields : ∀ f ∈ fields, f.content.Answers fun d set ↦ ∀ r, I d r → I d (set r))

include hfields

theorem readMembers_invariant {rounds : Nat} {first : Bool} {seen : List String} (hr : I d r)
    (h : readMembers fields d rounds first seen bytes r = .ok (r', after)) : I d r' := by
  induction rounds generalizing first seen bytes r with
  | zero => cases h
  | succ rounds ih =>
    obtain ⟨⟨more, here⟩, -, h⟩ := bind_eq_ok.mp h
    dsimp only at h
    split at h
    · obtain ⟨⟨key, left⟩, -, h⟩ := bind_eq_ok.mp h
      dsimp only at h
      split at h
      · next f hf =>
        split at h
        · cases h
        · obtain ⟨left, -, h⟩ := bind_eq_ok.mp h
          obtain ⟨⟨set, left⟩, hset, h⟩ := bind_eq_ok.mp h
          exact ih (hfields f (List.mem_of_find?_eq_some hf) hset r hr) h
      · obtain ⟨left, -, h⟩ := bind_eq_ok.mp h
        obtain ⟨left, -, h⟩ := bind_eq_ok.mp h
        exact ih hr h
    · split at h
      · cases h
      · cases h
        exact hr

theorem readItems_invariant {expected : String} {index : Nat} {first : Bool} (hr : I d r)
    (h : readItems expected d fields index first bytes r = .ok (r', after)) : I d r' := by
  induction fields generalizing index first bytes r with
  | nil =>
    obtain ⟨left, -, h⟩ := bind_eq_ok.mp h
    cases h
    exact hr
  | cons f fields ih =>
    obtain ⟨hf, hfields⟩ := List.forall_mem_cons.mp hfields
    obtain ⟨⟨more, here⟩, -, h⟩ := bind_eq_ok.mp h
    dsimp only at h
    split at h
    · obtain ⟨⟨set, left⟩, hset, h⟩ := bind_eq_ok.mp h
      exact ih hfields (hf hset r hr) h
    · split at h
      · exact ih hfields hr h
      · cases h

/-- A record that was read has what the blank one has and every field keeps. -/
theorem answers_record {name : String} {blank : σ} (hblank : ∀ d, I d blank) :
    (record name blank fields).Answers fun d r ↦ I (d - 1) r := by
  intro d bytes r after h
  unfold record at h
  dsimp only at h
  split at h
  · cases h
  · split at h
    · split at h
      · cases h
      · exact readItems_invariant hfields (hblank _) h
    split at h
    · split at h
      · cases h
      · exact readMembers_invariant hfields (hblank _) h
    · exact absurd h (refuse_ne_ok _ _ _)

end

end Shape

end Interchange.Json
