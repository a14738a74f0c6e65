import Interchange.Proofs.Json.Legibility
import Interchange.Proofs.Json.Scalars
import Mathlib.Data.List.DropRight

/-!
# What is written is read

The written form of a value is read as the value, with its objects in order, if it
nests no deeper than the reader goes and each of its numbers comes back from its own
text (`Json.parse_bytes`).  The latter holds of every integer of at most 64 bits
(`Json.exact_int`); of numbers with a fraction it is a condition on the arithmetic of
the reader, and on nothing else (`Json.Exact`).

The induction follows the writer.  Its invariant is that a value is read from the
front of any text that begins with it and does not go on with a number, since that
is how a value stands in an array or in an object (`Json.Reader.value_append`).
-/

namespace Interchange.Json

/-- The text of a scalar is read as that scalar, and nothing of it is left. -/
def ReadsBack (j : Json) : Prop := Reader.value 0 j.bytes = .ok (j, [])

mutual

/-- Every number in the value comes back from its own text. -/
def Exact : Json → Prop
  | .int n => ReadsBack (.int n)
  | .float x => ReadsBack (.float x)
  | .array items => ExactItems items
  | .object members => ExactMembers members
  | _ => True

/-- Every number in the items of an array comes back. -/
def ExactItems : List Json → Prop
  | [] => True
  | j :: rest => Exact j ∧ ExactItems rest

/-- Every number in the members of an object comes back. -/
def ExactMembers : List (String × Json) → Prop
  | [] => True
  | (_, j) :: rest => Exact j ∧ ExactMembers rest

end

namespace Reader

variable {bytes rest after : Bytes} {j : Json} {d : Nat} {b : UInt8}

/-! ## Numbers as values -/

/-- At every depth a value is read in the same way, but for what stands behind an opening bracket. -/
theorem exists_valueBy (d : Nat) : ∃ array object, value d = valueBy array object := by
  cases d <;> exact ⟨_, _, rfl⟩

theorem skipBlank_append {r : Bytes} (h : skipBlank bytes = b :: r) (rest : Bytes) :
    skipBlank (bytes ++ rest) = b :: (r ++ rest) := by
  unfold skipBlank at h ⊢
  rw [List.dropWhile_append, h]
  rfl

theorem value_skipBlank (d : Nat) (bytes : Bytes) : value d (skipBlank bytes) = value d bytes := by
  obtain ⟨array, object, hvalue⟩ := exists_valueBy d
  have hskip : skipBlank (skipBlank bytes) = skipBlank bytes := List.dropWhile_idempotent _ bytes
  rw [hvalue, valueBy, valueBy, hskip]

theorem valueBy_minus {array object : Bytes → Except Fault (Json × Bytes)} {r : Bytes}
    (h : skipBlank bytes = '-'.toUInt8 :: r) : valueBy array object bytes = number true r := by
  rw [valueBy, h]
  rfl

theorem valueBy_digit {array object : Bytes → Except Fault (Json × Bytes)} {r : Bytes}
    (h : skipBlank bytes = b :: r) (hb : (digit? b).isSome = true) :
    valueBy array object bytes = number false (b :: r) := by
  have hne (c : UInt8) (hc : digit? c = none) : b ≠ c := by
    rintro rfl
    rw [hc] at hb
    cases hb
  rw [valueBy, h]
  dsimp only
  rw [if_neg (hne _ rfl), if_neg (hne _ rfl), if_neg (hne _ rfl), if_neg (hne _ rfl), if_pos hb]

/-- A value that is read as a number is one, with or without a sign. -/
theorem number_of_value (hj : j.IsNumber) (h : value 0 bytes = .ok (j, after)) :
    ∃ b r, skipBlank bytes = b :: r ∧
      (b = '-'.toUInt8 ∧ number true r = .ok (j, after) ∨
        (digit? b).isSome = true ∧ number false (b :: r) = .ok (j, after)) := by
  obtain ⟨b, r, hskip, hleads⟩ := leads_of_valueBy h
  refine ⟨b, r, hskip, ?_⟩
  cases hleads with
  | null | bool | string => cases hj
  | negative hb h => exact .inl ⟨hb, h⟩
  | digits hb h => exact .inr ⟨hb, h⟩
  | array h | object h => cases h

/-- A number that is read from some bytes is read as a value if more bytes follow them. -/
theorem value_append_of_number (hj : j.IsNumber) (h : value 0 bytes = .ok (j, after)) (d : Nat)
    (hrest : Ends rest) : value d (bytes ++ rest) = .ok (j, after ++ rest) := by
  obtain ⟨array, object, hvalue⟩ := exists_valueBy d
  obtain ⟨b, r, hskip, ⟨rfl, hnumber⟩ | ⟨hdigit, hnumber⟩⟩ := number_of_value hj h
  · rw [hvalue, valueBy_minus (skipBlank_append hskip rest)]
    exact number_append hrest hnumber
  · rw [hvalue, valueBy_digit (skipBlank_append hskip rest) hdigit]
    exact number_append hrest hnumber

/-! ## How values begin -/

/-- The written form of a value begins with nothing that could close an array, and with the letter of
`null` only if it is that. -/
theorem exists_head (h : j.Exact) (rest : Bytes) : ∃ b r, skipBlank (j.bytes ++ rest) = b :: r ∧
    b ≠ ']'.toUInt8 ∧ (b = 'n'.toUInt8 → j = .null) := by
  have hnumber (hj : j.IsNumber) (h : j.ReadsBack) : ∃ b r, skipBlank (j.bytes ++ rest) = b :: r ∧
      b ≠ ']'.toUInt8 ∧ (b = 'n'.toUInt8 → j = .null) := by
    obtain ⟨b, r, hskip, ⟨rfl, -⟩ | ⟨hdigit, -⟩⟩ := number_of_value hj h
    · exact ⟨_, _, skipBlank_append hskip rest, by decide, fun h ↦ absurd h (by decide)⟩
    · refine ⟨_, _, skipBlank_append hskip rest, ?_, ?_⟩
      · rintro rfl
        cases hdigit
      · rintro rfl
        cases hdigit
  cases j with
  | null => exact ⟨_, _, rfl, by decide, fun _ ↦ rfl⟩
  | bool b => cases b <;> exact ⟨_, _, rfl, by decide, fun h ↦ absurd h (by decide)⟩
  | int n => exact hnumber trivial h
  | float x => exact hnumber trivial h
  | string s => exact ⟨_, _, rfl, by decide, fun h ↦ absurd h (by decide)⟩
  | array items => cases items <;> exact ⟨_, _, rfl, by decide, fun h ↦ absurd h (by decide)⟩
  | object members =>
    cases members <;> exact ⟨_, _, rfl, by decide, fun h ↦ absurd h (by decide)⟩

/-! ## Items and members -/

/-- What stands in front of an item or of a member: a comma, unless it is the first. -/
def separator (first : Bool) : Bytes := if first then [] else [','.toUInt8]

/-- The items behind the first, as they stand in a text. -/
def itemBytes (items : List Json) : Bytes := Utf8.encodeChars (itemChars items)

/-- The members behind the first, as they stand in a text. -/
def memberBytes (members : List (String × Json)) : Bytes := Utf8.encodeChars (memberChars members)

/-- A member behind the opening quote of its key, and what follows it. -/
def keyed (key : String) (j : Json) (rest : Bytes) : Bytes :=
  bodyBytes key ++ ':'.toUInt8 :: (j.bytes ++ rest)

theorem bytes_array_cons (j : Json) (items : List Json) (rest : Bytes) :
    (array (j :: items)).bytes ++ rest =
      '['.toUInt8 :: (separator true ++ (j.bytes ++ (itemBytes items ++ rest))) := by
  rw [bytes, chars, Utf8.encodeChars_cons, Utf8.encodeChars_append, List.append_assoc,
    List.append_assoc]
  rfl

theorem itemBytes_cons (j : Json) (items : List Json) (rest : Bytes) :
    itemBytes (j :: items) ++ rest = separator false ++ (j.bytes ++ (itemBytes items ++ rest)) := by
  rw [itemBytes, itemChars, Utf8.encodeChars_cons, Utf8.encodeChars_append, List.append_assoc,
    List.append_assoc]
  rfl

theorem encodeChars_member (key : String) (j : Json) (cs : List Char) (rest : Bytes) :
    Utf8.encodeChars (stringChars key ++ ':' :: (j.chars ++ cs)) ++ rest =
      '\"'.toUInt8 :: keyed key j (Utf8.encodeChars cs ++ rest) := by
  have hquote : String.utf8EncodeChar '\"' = ['\"'.toUInt8] := rfl
  have hcolon : String.utf8EncodeChar ':' = [':'.toUInt8] := rfl
  simp only [stringChars, keyed, bodyBytes, bytes, List.cons_append, List.append_assoc, List.nil_append,
    Utf8.encodeChars_cons, Utf8.encodeChars_nil, Utf8.encodeChars_append, hquote, hcolon]

theorem bytes_object_cons (key : String) (j : Json) (members : List (String × Json)) (rest : Bytes) :
    (object ((key, j) :: members)).bytes ++ rest =
      '\x7b'.toUInt8 :: (separator true ++ '\"'.toUInt8 :: keyed key j (memberBytes members ++ rest)) := by
  rw [bytes, chars, Utf8.encodeChars_cons, List.append_assoc, encodeChars_member]
  rfl

theorem memberBytes_cons (key : String) (j : Json) (members : List (String × Json)) (rest : Bytes) :
    memberBytes ((key, j) :: members) ++ rest =
      separator false ++ '\"'.toUInt8 :: keyed key j (memberBytes members ++ rest) := by
  rw [memberBytes, memberChars, Utf8.encodeChars_cons, List.append_assoc, encodeChars_member]
  rfl

theorem ends_itemBytes (items : List Json) (rest : Bytes) : Ends (itemBytes items ++ rest) := by
  cases items <;> exact ⟨by decide, by decide, by decide⟩

theorem ends_memberBytes (members : List (String × Json)) (rest : Bytes) :
    Ends (memberBytes members ++ rest) := by
  cases members <;> exact ⟨by decide, by decide, by decide⟩

theorem length_lt_itemBytes (items : List Json) : items.length < (itemBytes items).length := by
  induction items with
  | nil => decide
  | cons j items ih =>
    have hbytes := congrArg List.length (itemBytes_cons j items [])
    have hcomma : (separator false).length = 1 := rfl
    simp only [List.length_append, List.length_nil, List.length_cons, hcomma] at hbytes ⊢
    omega

theorem length_lt_memberBytes (members : List (String × Json)) :
    members.length < (memberBytes members).length := by
  induction members with
  | nil => decide
  | cons e members ih =>
    obtain ⟨key, j⟩ := e
    have hbytes := congrArg List.length (memberBytes_cons key j members [])
    simp only [List.length_append, List.length_nil, List.length_cons, keyed] at hbytes ⊢
    omega

/-- An item is gone to, with or without a comma in front of it. -/
theorem nextItem_separator (h : j.Exact) (first : Bool) (rest : Bytes) :
    nextItem first (separator first ++ (j.bytes ++ rest)) = .ok (true, skipBlank (j.bytes ++ rest)) := by
  obtain ⟨b, r, hskip, hclose, -⟩ := exists_head h rest
  cases first with
  | true =>
    change nextItem true (j.bytes ++ rest) = _
    rw [nextItem, hskip]
    dsimp only
    rw [if_neg hclose, if_pos rfl]
  | false =>
    have hcomma : skipBlank (separator false ++ (j.bytes ++ rest)) = ','.toUInt8 :: (j.bytes ++ rest) := rfl
    rw [nextItem, hcomma]
    dsimp only
    rw [if_neg (by decide), if_neg Bool.false_ne_true, if_pos rfl, hskip]
    dsimp only
    rw [if_neg hclose]

/-- A member is gone to, with or without a comma in front of it. -/
theorem nextMember_separator (first : Bool) (rest : Bytes) :
    nextMember first (separator first ++ '\"'.toUInt8 :: rest) = .ok (true, rest) := by
  cases first <;> rfl

/-- An item in front of items that are read. -/
theorem items_cons {first : Bool} {rounds : Nat} {x : Json} {xs : List Json} (h : j.Exact)
    (hitem : value d (j.bytes ++ rest) = .ok (x, rest))
    (hitems : items (value d) rounds false rest = .ok (xs, after)) :
    items (value d) (rounds + 1) first (separator first ++ (j.bytes ++ rest)) = .ok (x :: xs, after) := by
  rw [items, nextItem_separator h]
  change value d (skipBlank (j.bytes ++ rest)) >>= _ = _
  rw [value_skipBlank, hitem]
  change items (value d) rounds false rest >>= _ = _
  rw [hitems]
  rfl

/-- A member in front of members that are read. -/
theorem members_cons {first : Bool} {rounds : Nat} {key : String} {x : Json} {xs : List (String × Json)}
    (hvalue : value d (j.bytes ++ rest) = .ok (x, rest))
    (hmembers : members (value d) rounds false rest = .ok (xs, after)) :
    members (value d) (rounds + 1) first (separator first ++ '\"'.toUInt8 :: keyed key j rest) =
      .ok ((key, x) :: xs, after) := by
  rw [members, nextMember_separator]
  change stringBody (bodyBytes key ++ _) >>= _ = _
  rw [stringBody_append]
  change value d (j.bytes ++ rest) >>= _ = _
  rw [hvalue]
  change members (value d) rounds false rest >>= _ = _
  rw [hmembers]
  rfl

/-! ## Values -/

mutual

/-- A value is read from the front of a text that does not go on with a number. -/
theorem value_append {j : Json} (h : j.Exact) {d : Nat} (hd : j.depth ≤ d) {rest : Bytes}
    (hrest : Ends rest) : value d (j.bytes ++ rest) = .ok (j.canonical, rest) := by
  cases j with
  | null => cases d <;> rfl
  | bool b => cases b <;> cases d <;> rfl
  | int n => exact value_append_of_number (j := .int n) trivial h d hrest
  | float x => exact value_append_of_number (j := .float x) trivial h d hrest
  | string s =>
    obtain ⟨array, object, hvalue⟩ := exists_valueBy d
    rw [hvalue]
    change stringBody (bodyBytes s ++ rest) >>= _ = _
    rw [stringBody_append]
    rfl
  | array items =>
    rw [depth] at hd
    obtain ⟨d, rfl⟩ : ∃ k, d = k + 1 := ⟨d - 1, by omega⟩
    cases items with
    | nil => rfl
    | cons j items =>
      rw [depthItems] at hd
      have hitem := value_append h.1 (by omega : j.depth ≤ d) (ends_itemBytes items rest)
      have hlength := length_lt_itemBytes items
      have hrounds : items.length < (separator true ++ (j.bytes ++ (itemBytes items ++ rest))).length := by
        simp only [List.length_append]
        omega
      have hitems := items_append h.2 (by omega : depthItems items ≤ d) hrounds rest
      rw [bytes_array_cons]
      change Reader.items (value d) _ true _ >>= _ = _
      rw [items_cons h.1 hitem hitems]
      rfl
  | object members =>
    rw [depth] at hd
    obtain ⟨d, rfl⟩ : ∃ k, d = k + 1 := ⟨d - 1, by omega⟩
    -- A pattern for the first member shows that its value is a part of the object.
    match members, h, hd with
    | [], _, _ => rfl
    | (key, j) :: members, h, hd =>
      rw [depthMembers] at hd
      have hvalue := value_append h.1 (by omega : j.depth ≤ d) (ends_memberBytes members rest)
      have hlength := length_lt_memberBytes members
      have hrounds : members.length <
          (separator true ++ '\"'.toUInt8 :: keyed key j (memberBytes members ++ rest)).length := by
        simp only [List.length_append, List.length_cons, keyed]
        omega
      have hmembers := members_append h.2 (by omega : depthMembers members ≤ d) hrounds rest
      rw [bytes_object_cons]
      change Reader.members (value d) _ true _ >>= _ = _
      rw [members_cons hvalue hmembers]
      rfl

theorem items_append {items : List Json} (h : ExactItems items) {d : Nat} (hd : depthItems items ≤ d)
    {rounds : Nat} (hrounds : items.length < rounds) (rest : Bytes) :
    Reader.items (value d) rounds false (itemBytes items ++ rest) = .ok (canonicalItems items, rest) := by
  obtain ⟨rounds, rfl⟩ : ∃ k, rounds = k + 1 := ⟨rounds - 1, by omega⟩
  cases items with
  | nil => rfl
  | cons j items =>
    rw [depthItems] at hd
    rw [itemBytes_cons]
    have hitem := value_append h.1 (Nat.le_trans (Nat.le_max_left ..) hd) (ends_itemBytes items rest)
    have hitems := items_append h.2 (Nat.le_trans (Nat.le_max_right ..) hd)
      (Nat.lt_of_succ_lt_succ hrounds) rest
    exact items_cons h.1 hitem hitems

theorem members_append {members : List (String × Json)} (h : ExactMembers members) {d : Nat}
    (hd : depthMembers members ≤ d) {rounds : Nat} (hrounds : members.length < rounds) (rest : Bytes) :
    Reader.members (value d) rounds false (memberBytes members ++ rest) =
      .ok (canonicalMembers members, rest) := by
  obtain ⟨rounds, rfl⟩ : ∃ k, rounds = k + 1 := ⟨rounds - 1, by omega⟩
  match members, h, hd, hrounds with
  | [], _, _, _ => rfl
  | (key, j) :: members, h, hd, hrounds =>
    rw [depthMembers] at hd
    rw [memberBytes_cons]
    have hvalue := value_append h.1 (by omega : j.depth ≤ d) (ends_memberBytes members rest)
    have hmembers := members_append h.2 (by omega : depthMembers members ≤ d)
      (Nat.lt_of_succ_lt_succ hrounds) rest
    exact members_cons hvalue hmembers

end

end Reader

/-! ## Texts -/

/-- The digits of a number begin with a digit. -/
theorem Reader.exists_digit (n : Nat) : ∃ b r, Utf8.encodeChars (Decimal.digitChars n) = b :: r ∧
    skipBlank (b :: r) = b :: r ∧ (digit? b).isSome = true := by
  obtain ⟨d, ds, hchars, hlt, -, -⟩ := exists_digits n
  obtain ⟨hd, -⟩ := List.forall_mem_cons.mp hlt
  have hdigit : (digit? (Nat.digitChar d).toUInt8).isSome = true := by rw [digit?_digitChar d hd]; rfl
  have hblank : ∀ d < 10, isBlankByte (Nat.digitChar d).toUInt8 = false := by decide
  refine ⟨_, digitBytes ds, ?_, List.dropWhile_cons_of_neg (by simp [hblank d hd]), hdigit⟩
  rw [hchars]
  exact digitBytes_cons hd ds

/-- An integer of at most 64 bits comes back. -/
theorem exact_int {n : Int} (hlow : -0x8000000000000000 ≤ n) (hhigh : n < 0x10000000000000000) :
    (Json.int n).Exact := by
  have hdigits (negative : Bool) := Reader.number_digitChars negative (n := n.natAbs) (by omega)
  change Reader.value 0 (Utf8.encodeChars (intChars n)) = _
  unfold intChars
  split
  · next hneg =>
    change Reader.number true (Utf8.encodeChars (Decimal.digitChars n.natAbs)) = _
    rw [hdigits, Reader.wholeNumber, if_neg (by decide), if_pos (by omega),
      Int.ofNat_natAbs_of_nonpos (by omega), Int.neg_neg]
  · next hpos =>
    obtain ⟨b, r, hbytes, hskip, hdigit⟩ := Reader.exists_digit n.natAbs
    change Reader.valueBy _ _ _ = _
    rw [Reader.valueBy_digit (b := b) (r := r) (by rw [hbytes, hskip]) hdigit, ← hbytes, hdigits,
      Reader.wholeNumber, if_pos (by decide), Int.natAbs_of_nonneg (by omega)]

/-- What was written is read, with its objects in order. -/
theorem parse_bytes {j : Json} (h : j.Exact) (hdepth : j.depth ≤ 127) :
    parse j.bytes = .ok j.canonical := by
  have hends : Reader.Ends [] := trivial
  have hvalue := Reader.value_append h hdepth hends
  rw [List.append_nil] at hvalue
  rw [parse, Reader.depthLimit, hvalue]
  rfl

/-- So a value of which every number comes back is legible, if it nests no deeper than the reader goes. -/
theorem legible_of_exact {j : Json} (h : j.Exact) (hdepth : j.depth ≤ 127) : j.Legible := by
  rw [Legible, decode, parse_bytes h hdepth]
  rfl

/-- A value that its text tells in full: its objects are in order, and its numbers come back. -/
structure Regular (j : Json) : Prop where
  ordered : j.Ordered
  exact : j.Exact

theorem Regular.canonical_eq {j : Json} (h : j.Regular) : j.canonical = j := canonical_of_ordered h.ordered

theorem regular_int {n : Int} (hlow : -0x8000000000000000 ≤ n) (hhigh : n < 0x10000000000000000) :
    (Json.int n).Regular := ⟨trivial, exact_int hlow hhigh⟩

end Interchange.Json
