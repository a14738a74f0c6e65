import Interchange.Protocol.PathTemplate
import Mathlib.Data.List.TakeWhile

/-!
# Which paths a template fits

A path spells its parts: they stand in it one after the other, with one slash or
more between any two and any number of slashes at the ends (`Spells`).  A path
spells one list of parts only, and cutting it at its slashes finds that list
(`parts_eq_iff`).

A template is a list of parts as well, of which two are placeholders.  Since there
is exactly one of each, a list of parts fits the template in one way at most, and
what stands at the placeholders is all that there is to know about it: the
template, with these two names filled in, is the list (`extract_eq_some_iff`).
-/

namespace Interchange

/-- What a segment stands for in a path, given the two names. -/
def Segment.fill (service method : String) : Segment → String
  | .literal text => text
  | .service => service
  | .method => method

namespace PathTemplate

/-- The path consists of these parts, with slashes between them and around them. -/
inductive Spells : List Char → List String → Prop
  | nil : Spells [] []
  | slash {path : List Char} {ps : List String} : Spells path ps → Spells ('/' :: path) ps
  | part {p : String} {path : List Char} {ps : List String} : p ≠ "" → '/' ∉ p.toList →
      path = [] ∨ (∃ rest, path = '/' :: rest) → Spells path ps → Spells (p.toList ++ path) (p :: ps)

/-- A part of a template, with names in the place of placeholders. -/
def fill (service method part : String) : String :=
  if part = "\x7bservice\x7d" then service
  else if part = "\x7bmethod\x7d" then method
  else part

/-- Holds of the parts of a template: both placeholders are there once, and no other part has a brace. -/
structure IsTemplate (ps : List String) : Prop where
  service : ps.count "\x7bservice\x7d" = 1
  method : ps.count "\x7bmethod\x7d" = 1
  literal {p : String} : p ∈ ps → p ≠ "\x7bservice\x7d" → p ≠ "\x7bmethod\x7d" →
    '\x7b' ∉ p.toList ∧ '\x7d' ∉ p.toList

/-- A text that a query or a fragment begins with, or none. -/
def IsSuffix (cs : List Char) : Prop := cs = [] ∨ ∃ c rest, cs = c :: rest ∧ (c = '?' ∨ c = '#')

/-- A name as it can stand in a path. -/
structure IsName (name : String) : Prop where
  ne : name ≠ ""
  free : ∀ c ∈ name.toList, c ≠ '/' ∧ c ≠ '?' ∧ c ≠ '#'

variable {path rest piece : List Char} {ps : List String} {p s m text : String}
  {segments : List Segment} {t : PathTemplate}

/-! ## Parts -/

@[simp] theorem splitAt_nil (separator : Char) : splitAt separator [] = [[]] := rfl

theorem splitAt_of_notMem {separator : Char} (h : separator ∉ piece) :
    splitAt separator piece = [piece] := by
  induction piece with
  | nil => rfl
  | cons c cs ih =>
    obtain ⟨hc, hcs⟩ := not_or.mp (mt List.mem_cons.mpr h)
    rw [splitAt, if_neg (Ne.symm hc), ih hcs]

theorem splitAt_append_cons {separator : Char} (h : separator ∉ piece) (rest : List Char) :
    splitAt separator (piece ++ separator :: rest) = piece :: splitAt separator rest := by
  induction piece with
  | nil => simp [splitAt]
  | cons c cs ih =>
    obtain ⟨hc, hcs⟩ := not_or.mp (mt List.mem_cons.mpr h)
    rw [List.cons_append, splitAt, if_neg (Ne.symm hc), ih hcs]

@[simp] theorem parts_slash (path : List Char) : parts ('/' :: path) = parts path := by
  simp [parts, splitAt]

theorem parts_part (hp : p ≠ "") (hslash : '/' ∉ p.toList)
    (hpath : path = [] ∨ ∃ rest, path = '/' :: rest) :
    parts (p.toList ++ path) = p :: parts path := by
  have hne : p.toList ≠ [] := by simpa using hp
  rcases hpath with rfl | ⟨rest, rfl⟩
  · simp [parts, splitAt_of_notMem hslash, hne]
  · rw [parts_slash]
    simp [parts, splitAt_append_cons hslash, hne]

/-- Every path spells its parts. -/
theorem spells_parts (path : List Char) : Spells path (parts path) := by
  induction hn : path.length using Nat.strongRecOn generalizing path with
  | ind n ih =>
    cases path with
    | nil => exact .nil
    | cons c cs =>
      by_cases hc : c = '/'
      · subst hc
        rw [parts_slash]
        exact .slash (ih cs.length (by simp [← hn]) cs rfl)
      · -- The first part reaches up to the first slash.
        let piece := (c :: cs).takeWhile (· ≠ '/')
        let path := (c :: cs).dropWhile (· ≠ '/')
        have hsplit : (String.ofList piece).toList ++ path = c :: cs := by
          rw [String.toList_ofList]
          exact List.takeWhile_append_dropWhile
        have hpiece : piece = c :: cs.takeWhile (· ≠ '/') := List.takeWhile_cons_of_pos (by simpa using hc)
        have hne : String.ofList piece ≠ "" := by simp [hpiece, String.ofList_eq_empty_iff]
        have hslash : '/' ∉ (String.ofList piece).toList := by
          rw [String.toList_ofList]
          exact fun hmem ↦ by simpa using List.mem_takeWhile_imp hmem
        have hpath : path = [] ∨ ∃ rest, path = '/' :: rest := by
          cases hd : path with
          | nil => exact .inl rfl
          | cons d ds =>
            have hhead := List.head?_dropWhile_not (· ≠ '/') (c :: cs)
            simp only [show (c :: cs).dropWhile (· ≠ '/') = d :: ds from hd, List.head?_cons] at hhead
            exact .inr ⟨ds, by simpa using hhead⟩
        have hlt : path.length < n := by
          have hlen := congrArg List.length hsplit
          rw [List.length_append, String.toList_ofList, hpiece, List.length_cons, List.length_cons] at hlen
          rw [← hn, List.length_cons]
          omega
        rw [← hsplit, parts_part hne hslash hpath]
        exact .part hne hslash hpath (ih _ hlt path rfl)

/-- Cutting a path at its slashes finds the parts that it spells. -/
theorem parts_eq_iff : parts path = ps ↔ Spells path ps := by
  constructor
  · rintro rfl
    exact spells_parts path
  · intro h
    induction h with
    | nil => rfl
    | slash _ ih => rw [parts_slash, ih]
    | part hp hslash hpath _ ih => rw [parts_part hp hslash hpath, ih]

theorem Spells.mem (h : Spells path ps) (hp : p ∈ ps) : p ≠ "" ∧ '/' ∉ p.toList ∧ p.toList ⊆ path := by
  induction h with
  | nil => cases hp
  | slash _ ih =>
    obtain ⟨hne, hslash, hsub⟩ := ih hp
    exact ⟨hne, hslash, fun c hc ↦ .tail _ (hsub hc)⟩
  | part hq hslash _ _ ih =>
    rcases List.mem_cons.mp hp with rfl | hp
    · exact ⟨hq, hslash, List.subset_append_left ..⟩
    · obtain ⟨hne, hslash, hsub⟩ := ih hp
      exact ⟨hne, hslash, fun c hc ↦ List.mem_append_right _ (hsub hc)⟩

/-- A path has nothing but slashes beside its parts. -/
theorem Spells.eq_or_mem (h : Spells path ps) {c : Char} (hc : c ∈ path) :
    c = '/' ∨ ∃ p ∈ ps, c ∈ p.toList := by
  induction h with
  | nil => cases hc
  | slash _ ih => exact (List.mem_cons.mp hc).elim .inl ih
  | @part p _ _ _ _ _ _ ih =>
    rcases List.mem_append.mp hc with hc | hc
    · exact .inr ⟨p, List.mem_cons_self, hc⟩
    · exact (ih hc).imp_right fun ⟨q, hq, hmem⟩ ↦ ⟨q, List.mem_cons_of_mem _ hq, hmem⟩

/-! ## Queries and fragments -/

theorem mem_withoutQuery {c : Char} (h : c ∈ withoutQuery path) : c ≠ '?' ∧ c ≠ '#' := by
  simpa using List.mem_takeWhile_imp h

theorem withoutQuery_append (h : ∀ c ∈ path, c ≠ '?' ∧ c ≠ '#') (hrest : IsSuffix rest) :
    withoutQuery (path ++ rest) = path := by
  have hpath : ∀ c ∈ path, (c ≠ '?' && c ≠ '#') = true := fun c hc ↦ by simpa using h c hc
  rw [withoutQuery, List.takeWhile_append_of_pos hpath]
  rcases hrest with rfl | ⟨c, rest, rfl, hc⟩
  · simp
  · rw [List.takeWhile_cons_of_neg (by rcases hc with rfl | rfl <;> simp), List.append_nil]

/-! ## Templates -/

theorem segment_eq_service_iff : segment p = .service ↔ p = "\x7bservice\x7d" := by
  unfold segment
  split
  · next h => simp [h]
  · next h => split <;> simp [h]

theorem segment_eq_method_iff : segment p = .method ↔ p = "\x7bmethod\x7d" := by
  unfold segment
  split
  · next h => simp [h]
  · next h => split <;> simp_all

theorem count_segments (ps : List String) :
    (ps.map segment).count .service = ps.count "\x7bservice\x7d" ∧
      (ps.map segment).count .method = ps.count "\x7bmethod\x7d" := by
  simp only [List.count, List.countP_map]
  constructor <;> refine List.countP_congr fun p _ ↦ ?_
  · simpa using segment_eq_service_iff
  · simpa using segment_eq_method_iff

theorem hasBrace_segment : hasBrace (segment p) = false ↔
    (p ≠ "\x7bservice\x7d" → p ≠ "\x7bmethod\x7d" → '\x7b' ∉ p.toList ∧ '\x7d' ∉ p.toList) := by
  unfold segment
  split
  · next h => simp [hasBrace, h]
  · next hservice =>
    split
    · next h => simp [hasBrace, h]
    · next hmethod =>
      simp only [hasBrace, hservice, hmethod, List.any_eq_false, Bool.or_eq_true, decide_eq_true_eq, not_or,
        ne_eq, not_false_eq_true, forall_const]
      exact ⟨fun h ↦ ⟨fun hmem ↦ (h _ hmem).1 rfl, fun hmem ↦ (h _ hmem).2 rfl⟩,
        fun h c hc ↦ ⟨fun heq ↦ h.1 (heq ▸ hc), fun heq ↦ h.2 (heq ▸ hc)⟩⟩

/-- A text is accepted as the template of its parts, if these make one. -/
theorem parse_eq_ok_iff : parse text = .ok t ↔
    IsTemplate (parts text.toList) ∧ t = ⟨text, (parts text.toList).map segment⟩ := by
  obtain ⟨hservice, hmethod⟩ := count_segments (parts text.toList)
  have hbrace : ((parts text.toList).map segment).any hasBrace = false ↔
      ∀ p ∈ parts text.toList, p ≠ "\x7bservice\x7d" → p ≠ "\x7bmethod\x7d" →
        '\x7b' ∉ p.toList ∧ '\x7d' ∉ p.toList := by
    simp only [List.any_map, List.any_eq_false, Function.comp_apply, Bool.not_eq_true, hasBrace_segment]
  simp only [parse, hservice, hmethod]
  split
  · next hcount => exact ⟨nofun, fun h ↦ absurd hcount (by simp [h.1.service, h.1.method])⟩
  · next hcount =>
    obtain ⟨hs, hm⟩ : (parts text.toList).count "\x7bservice\x7d" = 1 ∧
        (parts text.toList).count "\x7bmethod\x7d" = 1 := by simpa [not_or] using hcount
    split
    · next hany =>
      refine ⟨nofun, fun h ↦ ?_⟩
      rw [hbrace.mpr fun p ↦ h.1.literal] at hany
      cases hany
    · next hany =>
      have hliteral := hbrace.mp (Bool.not_eq_true _ ▸ hany)
      simp only [Except.ok.injEq, eq_comm (b := t)]
      exact ⟨fun h ↦ ⟨⟨hs, hm, fun {p} ↦ hliteral p⟩, h⟩, fun h ↦ h.2⟩

/-! ## What stands at the placeholders -/

theorem fill_segment (s m p : String) : (segment p).fill s m = fill s m p := by
  unfold segment fill
  split
  · rfl
  · split <;> rfl

theorem capture_fill (segments : List Segment) (s m : String) :
    capture segments (segments.map (Segment.fill s m)) =
      some (if .service ∈ segments then some s else none,
        if .method ∈ segments then some m else none) := by
  induction segments with
  | nil => rfl
  | cons x segments ih => cases x <;> simp [capture, Segment.fill, ih]

/-- Where no placeholder is repeated, the parts are told by what stands at the placeholders. -/
theorem eq_of_capture {parts : List String} {x y : Option String}
    (h : capture segments parts = some (x, y)) (hservice : segments.count .service ≤ 1)
    (hmethod : segments.count .method ≤ 1) (hs : .service ∈ segments → x = some s)
    (hm : .method ∈ segments → y = some m) : parts = segments.map (Segment.fill s m) := by
  induction segments generalizing parts x y with
  | nil =>
    cases parts with
    | nil => rfl
    | cons => cases h
  | cons segment segments ih =>
    cases parts with
    | nil => cases segment <;> cases h
    | cons part parts =>
      cases segment with
      | literal text =>
        rw [capture] at h
        split at h
        · next htext =>
          have hrest := ih h (by simpa using hservice) (by simpa using hmethod)
            (fun hmem ↦ hs (.tail _ hmem)) fun hmem ↦ hm (.tail _ hmem)
          rw [List.map_cons, ← hrest, Segment.fill, htext]
        · cases h
      | service =>
        obtain ⟨⟨x', y'⟩, hcapture, heq⟩ := Option.map_eq_some_iff.mp h
        cases heq
        have hnone : .service ∉ segments := by
          rw [List.count_cons_self] at hservice
          exact List.count_eq_zero.mp (by omega)
        have hrest := ih hcapture (by simp [List.count_eq_zero.mpr hnone]) (by simpa using hmethod)
          (fun hmem ↦ absurd hmem hnone) fun hmem ↦ hm (.tail _ hmem)
        rw [List.map_cons, ← hrest, Segment.fill, Option.some.inj (hs List.mem_cons_self)]
      | method =>
        obtain ⟨⟨x', y'⟩, hcapture, heq⟩ := Option.map_eq_some_iff.mp h
        cases heq
        have hnone : .method ∉ segments := by
          rw [List.count_cons_self] at hmethod
          exact List.count_eq_zero.mp (by omega)
        have hrest := ih hcapture (by simpa using hservice) (by simp [List.count_eq_zero.mpr hnone])
          (fun hmem ↦ hs (.tail _ hmem)) fun hmem ↦ absurd hmem hnone
        rw [List.map_cons, ← hrest, Segment.fill, Option.some.inj (hm List.mem_cons_self)]

/-- A path names a service and a method if it spells, up to its query, the template with these names. -/
theorem extract_eq_some_iff (ht : parse text = .ok t) {path : String} :
    t.extract path = some (s, m) ↔
      Spells (withoutQuery path.toList) ((parts text.toList).map (fill s m)) := by
  obtain ⟨htemplate, rfl⟩ := parse_eq_ok_iff.mp ht
  obtain ⟨hservice, hmethod⟩ := count_segments (parts text.toList)
  rw [htemplate.service] at hservice
  rw [htemplate.method] at hmethod
  have hfill : (parts text.toList).map (fill s m) =
      ((parts text.toList).map segment).map (Segment.fill s m) := by
    rw [List.map_map]
    exact List.map_congr_left fun p _ ↦ (fill_segment s m p).symm
  have hsmem : .service ∈ (parts text.toList).map segment :=
    List.count_pos_iff.mp (by omega)
  have hmmem : .method ∈ (parts text.toList).map segment :=
    List.count_pos_iff.mp (by omega)
  rw [← parts_eq_iff, hfill]
  constructor
  · intro h
    unfold extract at h
    split at h
    · next hcapture =>
      cases h
      exact eq_of_capture hcapture (Nat.le_of_eq hservice) (Nat.le_of_eq hmethod) (fun _ ↦ rfl) fun _ ↦ rfl
    · cases h
  · intro h
    rw [extract, h, capture_fill, if_pos hsmem, if_pos hmmem]

/-- For every text there is the list of parts that it spells, and by it is known what the text does as a
template:

* it is accepted if and only if both placeholders are among the parts once and no other part has a
  brace;
* a path names a service and a method if and only if it spells, up to its first `?` or `#`, the parts of
  the template with these names in the place of the placeholders;
* such names are not empty, and free of `/`, `?` and `#`;
* if the template has no `?` and no `#`, then any two such names are found in every path that spells its
  parts with these names filled in, with any query or fragment behind. -/
theorem fits_exactly (text : String) :
    ∃ ps, (∀ qs, Spells text.toList qs ↔ qs = ps) ∧
      ((∃ t, parse text = .ok t) ↔ IsTemplate ps) ∧
      ∀ t, parse text = .ok t →
        (∀ path s m, t.extract path = some (s, m) ↔
          Spells (withoutQuery path.toList) (ps.map (fill s m))) ∧
        (∀ path s m, t.extract path = some (s, m) → IsName s ∧ IsName m) ∧
        ((∀ p ∈ ps, '?' ∉ p.toList ∧ '#' ∉ p.toList) →
          ∀ s m, IsName s → IsName m → ∀ path rest, Spells path (ps.map (fill s m)) → IsSuffix rest →
            t.extract (String.ofList (path ++ rest)) = some (s, m)) := by
  refine ⟨parts text.toList, fun qs ↦ parts_eq_iff.symm.trans eq_comm, ?_, fun t ht ↦ ⟨?_, ?_, ?_⟩⟩
  · exact ⟨fun ⟨t, ht⟩ ↦ (parse_eq_ok_iff.mp ht).1, fun h ↦ ⟨_, parse_eq_ok_iff.mpr ⟨h, rfl⟩⟩⟩
  · exact fun path s m ↦ extract_eq_some_iff ht
  · intro path s m hextract
    have hspells := (extract_eq_some_iff ht).mp hextract
    have hname {p : String} (hp : p ∈ (parts text.toList).map (fill s m)) : IsName p := by
      obtain ⟨hne, hslash, hsub⟩ := hspells.mem hp
      exact ⟨hne, fun c hc ↦ ⟨fun heq ↦ hslash (heq ▸ hc), mem_withoutQuery (hsub hc)⟩⟩
    obtain ⟨htemplate, -⟩ := parse_eq_ok_iff.mp ht
    have hservice : "\x7bservice\x7d" ∈ parts text.toList :=
      List.count_pos_iff.mp (by rw [htemplate.service]; omega)
    have hmethod : "\x7bmethod\x7d" ∈ parts text.toList :=
      List.count_pos_iff.mp (by rw [htemplate.method]; omega)
    exact ⟨hname (List.mem_map.mpr ⟨_, hservice, rfl⟩), hname (List.mem_map.mpr ⟨_, hmethod, rfl⟩)⟩
  · intro hclean s m hs hm path rest hspells hrest
    have hpath : ∀ c ∈ path, c ≠ '?' ∧ c ≠ '#' := by
      intro c hc
      rcases hspells.eq_or_mem hc with rfl | ⟨q, hq, hmem⟩
      · exact ⟨by decide, by decide⟩
      · obtain ⟨p, hp, rfl⟩ := List.mem_map.mp hq
        unfold fill at hmem
        split at hmem
        · exact (hs.free c hmem).2
        · split at hmem
          · exact (hm.free c hmem).2
          · exact ⟨fun heq ↦ (hclean p hp).1 (heq ▸ hmem), fun heq ↦ (hclean p hp).2 (heq ▸ hmem)⟩
    rw [extract_eq_some_iff ht, String.toList_ofList, withoutQuery_append hpath hrest]
    exact hspells

/-- A path with slashes to spare and a query behind. -/
theorem fits_exactly_with_query :
    let text := "/api/\x7bservice\x7d/\x7bmethod\x7d"
    let path := "//api/billing/charge/".toList
    let rest := "?dry_run=1".toList
    ∃ t, parse text = .ok t ∧ IsName "billing" ∧ IsName "charge" ∧ IsSuffix rest ∧
      Spells path ["api", "billing", "charge"] ∧
      t.extract (String.ofList (path ++ rest)) = some ("billing", "charge") := by
  intro text path rest
  have htemplate : IsTemplate (parts text.toList) := ⟨by decide, by decide, by decide⟩
  have hparse : parse text = .ok standard := parse_eq_ok_iff.mpr ⟨htemplate, by decide⟩
  have hservice : IsName "billing" := ⟨by decide, by simp⟩
  have hmethod : IsName "charge" := ⟨by decide, by simp⟩
  have hrest : IsSuffix rest := .inr ⟨'?', _, rfl, .inl rfl⟩
  have htext : Spells text.toList ["api", "\x7bservice\x7d", "\x7bmethod\x7d"] :=
    parts_eq_iff.mp (by decide)
  have hpath : Spells path ["api", "billing", "charge"] := parts_eq_iff.mp (by decide)
  obtain ⟨ps, hps, -, hfits⟩ := fits_exactly text
  obtain rfl := (hps _).mp htext
  obtain ⟨-, -, hfound⟩ := hfits standard hparse
  exact ⟨standard, hparse, hservice, hmethod, hrest, hpath,
    hfound (by decide) _ _ hservice hmethod path rest hpath hrest⟩

end PathTemplate

end Interchange
