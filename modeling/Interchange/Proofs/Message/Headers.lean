import Interchange.Message.Headers
import Interchange.Proofs.Dictionary

/-!
# Headers by name

Looking a header up ignores the case of letters, but putting one in its place does
not: it replaces a header of the same spelling only.  So it depends on the spellings
whether a look-up has one answer.  It does if no two headers have the same name
(`Headers.Unambiguous`), and then the order in which they are listed does not matter
(`Headers.find?_of_perm`).

Headers stay so if none of the names that are written has another spelling among the
headers that were there (`Headers.Respells`), and else they do not
(`Headers.unambiguous_iff_of_keys`).
-/

namespace Interchange.Headers

variable {h h' before after : Headers} {name k v : String}

/-! ## Names -/

/-- Names are compared letter by letter. -/
theorem sameName_iff {a b : String} :
    sameName a b = true ↔ a.toList.map Char.toLower = b.toList.map Char.toLower := by
  have htoList (s : String) : s.toLower.toList = s.toList.map Char.toLower := String.toList_map
  rw [sameName, beq_iff_eq, ← String.toList_inj, htoList, htoList]

theorem sameName_refl (a : String) : sameName a a = true := sameName_iff.mpr rfl

theorem sameName_symm {a b : String} (h : sameName a b = true) : sameName b a = true :=
  sameName_iff.mpr (sameName_iff.mp h).symm

theorem sameName_trans {a b c : String} (h : sameName a b = true) (h' : sameName b c = true) :
    sameName a c = true :=
  sameName_iff.mpr ((sameName_iff.mp h).trans (sameName_iff.mp h'))

/-! ## Looking up -/

/-- No two headers have names that differ at most in the case of their letters. -/
structure Unambiguous (h : Headers) : Prop where
  sorted : Dictionary.Sorted h
  eq_of_sameName : ∀ a ∈ Dictionary.keys h, ∀ b ∈ Dictionary.keys h, sameName a b = true → a = b

instance : Decidable h.Unambiguous :=
  decidable_of_iff (Dictionary.Sorted h ∧
      ∀ a ∈ Dictionary.keys h, ∀ b ∈ Dictionary.keys h, sameName a b = true → a = b)
    ⟨fun ⟨hsorted, hnames⟩ ↦ ⟨hsorted, hnames⟩, fun hu ↦ ⟨hu.sorted, hu.eq_of_sameName⟩⟩

/-- A header has this name in another spelling. -/
def Respells (h : Headers) (name : String) : Prop :=
  ∃ k ∈ Dictionary.keys h, sameName k name = true ∧ k ≠ name

instance : Decidable (h.Respells name) :=
  inferInstanceAs (Decidable (∃ k ∈ Dictionary.keys h, sameName k name = true ∧ k ≠ name))

theorem Unambiguous.eq_of_mem (hu : h.Unambiguous) {e e' : String × String} (he : e ∈ h) (he' : e' ∈ h)
    (hsame : sameName e.1 e'.1 = true) : e = e' := by
  have hname : e.1 = e'.1 :=
    hu.eq_of_sameName _ (List.mem_map_of_mem he) _ (List.mem_map_of_mem he') hsame
  have hmem : (e'.1, e.2) ∈ h := hname ▸ he
  exact Prod.ext hname (hu.sorted.eq_of_mem hmem he')

theorem sameName_of_find? {e : String × String}
    (he : List.find? (fun e ↦ sameName e.1 name) h = some e) : sameName e.1 name = true := by
  simpa using List.find?_some he

/-- Where no two headers have the same name, look-up finds whatever has the name. -/
theorem find?_eq_some_iff (hu : ∀ e ∈ h, ∀ e' ∈ h, sameName e.1 e'.1 = true → e = e') :
    h.find? name = some v ↔ ∃ k, (k, v) ∈ h ∧ sameName k name = true := by
  rw [find?, Option.map_eq_some_iff]
  constructor
  · rintro ⟨e, he, rfl⟩
    exact ⟨e.1, List.mem_of_find?_eq_some he, sameName_of_find? he⟩
  · rintro ⟨k, hmem, hsame⟩
    have hfound : (List.find? (fun e ↦ sameName e.1 name) h).isSome = true :=
      List.find?_isSome.mpr ⟨_, hmem, hsame⟩
    obtain ⟨e, he⟩ := Option.isSome_iff_exists.mp hfound
    refine ⟨e, he, ?_⟩
    have heq := hu e (List.mem_of_find?_eq_some he) _ hmem
      (sameName_trans (sameName_of_find? he) (sameName_symm hsame))
    rw [heq]

/-- The order in which the headers are listed does not matter. -/
theorem find?_of_perm (hu : h.Unambiguous) (hperm : h'.Perm h) (name : String) :
    h'.find? name = h.find? name := by
  have hunique : ∀ e ∈ h, ∀ e' ∈ h, sameName e.1 e'.1 = true → e = e' :=
    fun e he e' he' ↦ hu.eq_of_mem he he'
  have hunique' : ∀ e ∈ h', ∀ e' ∈ h', sameName e.1 e'.1 = true → e = e' :=
    fun e he e' he' ↦ hunique e (hperm.mem_iff.mp he) e' (hperm.mem_iff.mp he')
  ext v
  rw [find?_eq_some_iff hunique, find?_eq_some_iff hunique']
  simp only [hperm.mem_iff]

/-- A header is found under its own spelling. -/
theorem find?_of_get? (hu : h.Unambiguous) (hget : Dictionary.get? h name = some v) :
    h.find? name = some v :=
  (find?_eq_some_iff fun _ he _ he' ↦ hu.eq_of_mem he he').mpr
    ⟨name, Dictionary.mem_of_get?_eq_some hget, sameName_refl name⟩

/-! ## Writing -/

theorem Unambiguous.not_respells (hu : h.Unambiguous) (hname : name ∈ Dictionary.keys h) :
    ¬ h.Respells name := fun ⟨k, hk, hsame, hne⟩ ↦ hne (hu.eq_of_sameName k hk name hname hsame)

/-- Headers to which names are added stay unambiguous if and only if none of these names was there in
another spelling. -/
theorem unambiguous_iff_of_keys {written : List String} (hbefore : before.Unambiguous)
    (hsorted : Dictionary.Sorted after)
    (hwritten : ∀ a ∈ written, ∀ b ∈ written, sameName a b = true → a = b)
    (hkeys : ∀ k, k ∈ Dictionary.keys after ↔ k ∈ written ∨ k ∈ Dictionary.keys before) :
    after.Unambiguous ↔ ∀ name ∈ written, ¬ before.Respells name := by
  constructor
  · rintro hafter name hname ⟨k, hk, hsame, hne⟩
    exact hne (hafter.eq_of_sameName k ((hkeys k).mpr (.inr hk)) name ((hkeys name).mpr (.inl hname)) hsame)
  · intro hspelt
    have hmixed {a b : String} (ha : a ∈ written) (hb : b ∈ Dictionary.keys before)
        (hsame : sameName b a = true) : b = a := by
      by_contra hne
      exact hspelt a ha ⟨b, hb, hsame, hne⟩
    refine ⟨hsorted, fun a ha b hb hsame ↦ ?_⟩
    -- Only where one name was written and the other was there does the spelling come in.
    rcases (hkeys a).mp ha with ha | ha <;> rcases (hkeys b).mp hb with hb | hb
    · exact hwritten a ha b hb hsame
    · exact (hmixed ha hb (sameName_symm hsame)).symm
    · exact hmixed hb ha hsame
    · exact hbefore.eq_of_sameName a ha b hb hsame

end Interchange.Headers
