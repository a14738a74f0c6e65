import Interchange.Proofs.Routing.Choices

/-!
# Levelling the load

A balancer that looks for the least busy endpoint opens a connection where there are
fewest, and of several such endpoints on the first.  Where nothing is closed, the
counts then fill up like vessels: no endpoint that was chosen gets more than one
connection ahead of any other.

What fills up are the connections; that a balancer does it matters in one place only
(`Levels.fills`).  So the choices in a row are taken as a relation of their own
between the connections before and after (`Fills`), and what is said of them is shown
by induction on it, one choice at a time.
-/

namespace Interchange

namespace Connections

theorem count_acquire {cs : Connections} {e : Endpoint} (h : cs.Knows e) (id : CounterId) :
    (cs.acquire e).count id = if id = e.counter then cs.count id + 1 else cs.count id := by
  split
  · next hid =>
    subst hid
    exact count_set_self h _
  · next hid => exact count_set_of_ne cs hid _

/-- Holds of endpoints that have each a counter of its own. -/
structure Apart (cs : Connections) (es : List Endpoint) : Prop where
  nodup : (es.map (·.counter)).Nodup
  known : ∀ e ∈ es, cs.Knows e

theorem Apart.of_length {cs cs' : Connections} {es : List Endpoint} (h : cs.Apart es)
    (hlen : cs'.counts.length = cs.counts.length) : cs'.Apart es := by
  refine ⟨h.nodup, fun e he ↦ ?_⟩
  rw [Knows, hlen]
  exact h.known e he

theorem Apart.acquire {cs : Connections} {es : List Endpoint} (h : cs.Apart es) (e : Endpoint) :
    (cs.acquire e).Apart es := h.of_length (cs.length_set ..)

/-- The first in a list of the endpoints with the fewest open connections. -/
def FirstLeast (cs : Connections) (es : List Endpoint) (e : Endpoint) : Prop :=
  ∃ before after, es = before ++ e :: after ∧
    (∀ x ∈ before, cs.active e < cs.active x) ∧ ∀ x ∈ after, cs.active e ≤ cs.active x

/-- Holds of an endpoint that is at most one connection ahead of every one in a list. -/
def Level (cs : Connections) (es : List Endpoint) (e : Endpoint) : Prop :=
  ∀ x ∈ es, (cs.active e).toNat ≤ (cs.active x).toNat + 1

/-- The open connections of all endpoints in a list. -/
def load (cs : Connections) : List Endpoint → Nat
  | [] => 0
  | e :: es => (cs.active e).toNat + cs.load es

/-- Connections that are opened one after another, each on the first of the least busy in a list, as
long as the counts do not overflow. -/
inductive Fills (es : List Endpoint) : Connections → List Endpoint → Connections → Prop
  | nil (cs : Connections) : Fills es cs [] cs
  | cons {cs cs' : Connections} {e : Endpoint} {chosen : List Endpoint} : cs.FirstLeast es e →
      (cs.active e).toNat + 1 < 2 ^ 64 → Fills es (cs.acquire e) chosen cs' →
      Fills es cs (e :: chosen) cs'

/-- Holds of connections of which the endpoints of a list have equally many, but for those that a number
of choices has reached in its last time round, which have one more. -/
def Rounds (cs : Connections) (es : List Endpoint) (n : Nat) : Prop :=
  ∃ level done todo, es = done ++ todo ∧ done.length = n % es.length ∧
    (∀ x ∈ done, (cs.active x).toNat = level + 1) ∧ ∀ x ∈ todo, (cs.active x).toNat = level

variable {cs cs' : Connections} {es chosen : List Endpoint} {e x : Endpoint} {n : Nat}

/-! ## The first of the least busy -/

namespace FirstLeast

theorem mem (h : cs.FirstLeast es e) : e ∈ es := by
  obtain ⟨before, after, rfl, -, -⟩ := h
  simp

theorem le (h : cs.FirstLeast es e) (hx : x ∈ es) : cs.active e ≤ cs.active x := by
  obtain ⟨before, after, rfl, hbefore, hafter⟩ := h
  rcases List.mem_append.mp hx with hx | hx
  · exact UInt64.le_of_lt (hbefore x hx)
  · rcases List.mem_cons.mp hx with rfl | hx
    · exact UInt64.le_refl _
    · exact hafter x hx

theorem unique (h : cs.FirstLeast es e) (h' : cs.FirstLeast es x) : e = x := by
  obtain ⟨before, after, hes, hbefore, hafter⟩ := h
  obtain ⟨before', after', hes', hbefore', hafter'⟩ := h'
  rcases append_cons_cases (hes.symm.trans hes') with heq | ⟨he, hx⟩ | ⟨hx, he⟩
  · exact heq
  · exact absurd (hbefore' e he) (UInt64.not_lt.mpr (hafter x hx))
  · exact absurd (hbefore x hx) (UInt64.not_lt.mpr (hafter' e he))

theorem cons_of_lt (h : cs.FirstLeast es e) (hx : cs.active e < cs.active x) :
    cs.FirstLeast (x :: es) e := by
  obtain ⟨before, after, rfl, hbefore, hafter⟩ := h
  exact ⟨x :: before, after, rfl, List.forall_mem_cons.mpr ⟨hx, hbefore⟩, hafter⟩

/-- An endpoint that is no less busy than the one before it makes no difference. -/
theorem insert {best : Endpoint} (h : cs.FirstLeast (best :: es) e) (hx : cs.active best ≤ cs.active x) :
    cs.FirstLeast (best :: x :: es) e := by
  obtain ⟨before, after, heq, hbefore, hafter⟩ := h
  cases before with
  | nil =>
    obtain ⟨rfl, rfl⟩ := List.cons.inj heq
    exact ⟨[], x :: es, rfl, nofun, List.forall_mem_cons.mpr ⟨hx, hafter⟩⟩
  | cons first before =>
    obtain ⟨rfl, rfl⟩ := List.cons.inj heq
    obtain ⟨hbest, hbefore⟩ := List.forall_mem_cons.mp hbefore
    refine ⟨best :: x :: before, after, rfl, ?_, hafter⟩
    exact List.forall_mem_cons.mpr
      ⟨hbest, List.forall_mem_cons.mpr ⟨UInt64.lt_of_lt_of_le hbest hx, hbefore⟩⟩

end FirstLeast

theorem firstLeast_leastBusy (cs : Connections) (best : Endpoint) (es : List Endpoint) :
    cs.FirstLeast (best :: es) (Balancer.leastBusy cs best es) := by
  induction es generalizing best with
  | nil => exact ⟨[], [], rfl, nofun, nofun⟩
  | cons e es ih =>
    rw [Balancer.leastBusy]
    split
    · next hlt => exact (ih e).cons_of_lt (UInt64.lt_of_le_of_lt ((ih e).le List.mem_cons_self) hlt)
    · next hge => exact (ih best).insert (UInt64.not_lt.mp hge)

/-! ## Opening a connection -/

theorem toNat_active_acquire (h : cs.Knows e) (hroom : (cs.active e).toNat + 1 < 2 ^ 64)
    (x : Endpoint) :
    ((cs.acquire e).active x).toNat =
      (cs.active x).toNat + if x.counter = e.counter then 1 else 0 := by
  rw [active, count_acquire h]
  split
  · next hx =>
    rw [active, hx, UInt64.toNat_add]
    exact Nat.mod_eq_of_lt hroom
  · rfl

/-- Of endpoints with counters of their own, all but one keep their counts. -/
theorem Apart.active_acquire {before after : List Endpoint} (h : cs.Apart (before ++ e :: after))
    (hx : x ∈ before ++ after) : (cs.acquire e).active x = cs.active x := by
  have hnodup := h.nodup
  rw [List.map_append, List.map_cons, List.nodup_middle, ← List.map_append, List.nodup_cons] at hnodup
  have hother : x.counter ≠ e.counter := fun heq ↦ hnodup.1 (heq ▸ List.mem_map_of_mem hx)
  exact (count_acquire (h.known e (by simp)) _).trans (if_neg hother)

/-- The least busy endpoint is level when a connection to it has been opened, even if the count has
overflowed. -/
theorem FirstLeast.level (h : cs.FirstLeast es e) (hknows : cs.Knows e) : (cs.acquire e).Level es e := by
  intro x hx
  have hle : (cs.active e).toNat ≤ (cs.active x).toNat := UInt64.le_iff_toNat_le.mp (h.le hx)
  by_cases hcounter : x.counter = e.counter
  · rw [active, active, hcounter]
    exact Nat.le_succ _
  · have hsame : (cs.acquire e).active x = cs.active x := (count_acquire hknows _).trans (if_neg hcounter)
    rw [hsame, active_acquire hknows, UInt64.toNat_add]
    exact Nat.le_trans (Nat.mod_le ..) (Nat.succ_le_succ hle)

@[simp] theorem load_cons (cs : Connections) (e : Endpoint) (es : List Endpoint) :
    cs.load (e :: es) = (cs.active e).toNat + cs.load es := rfl

theorem load_acquire (h : cs.Knows e) (hroom : (cs.active e).toNat + 1 < 2 ^ 64)
    (es : List Endpoint) :
    (cs.acquire e).load es = cs.load es + (es.map (·.counter)).count e.counter := by
  induction es with
  | nil => rfl
  | cons x es ih =>
    rw [load_cons, load_cons, ih, toNat_active_acquire h hroom, List.map_cons, List.count_cons]
    simp only [beq_iff_eq]
    omega

theorem Level.acquire (h : cs.Level es x) (he : cs.FirstLeast es e) (hknows : cs.Knows e)
    (hroom : (cs.active e).toNat + 1 < 2 ^ 64) : (cs.acquire e).Level es x := by
  by_cases hcounter : x.counter = e.counter
  · have hsame : (cs.acquire e).active x = (cs.acquire e).active e := by rw [active, active, hcounter]
    rw [Level, hsame]
    exact he.level hknows
  · intro y hy
    have hle := h y hy
    rw [toNat_active_acquire hknows hroom, toNat_active_acquire hknows hroom, if_neg hcounter]
    omega

/-! ## Rounds -/

/-- Counts that are equal are at the beginning of a round. -/
theorem rounds_zero (hne : es ≠ []) (h : ∀ x ∈ es, ∀ y ∈ es, cs.active x = cs.active y) :
    cs.Rounds es 0 := by
  obtain ⟨first, rest, rfl⟩ := List.exists_cons_of_ne_nil hne
  refine ⟨(cs.active first).toNat, [], first :: rest, rfl, (Nat.zero_mod _).symm, nofun, fun x hx ↦ ?_⟩
  rw [h x hx first List.mem_cons_self]

theorem Rounds.level (h : cs.Rounds es n) : ∀ x ∈ es, cs.Level es x := by
  obtain ⟨level, done, todo, rfl, -, hdone, htodo⟩ := h
  have hbounds (x : Endpoint) (hx : x ∈ done ++ todo) :
      level ≤ (cs.active x).toNat ∧ (cs.active x).toNat ≤ level + 1 := by
    rcases List.mem_append.mp hx with hx | hx
    · exact ⟨by rw [hdone x hx]; exact Nat.le_succ _, Nat.le_of_eq (hdone x hx)⟩
    · exact ⟨Nat.le_of_eq (htodo x hx).symm, by rw [htodo x hx]; exact Nat.le_succ _⟩
  intro x hx y hy
  have hle := (hbounds x hx).2
  have hge := (hbounds y hy).1
  omega

/-- A round goes on when the next endpoint in it has caught up, or a new one begins if that was the last. -/
theorem rounds_succ (level : Nat) {done rest : List Endpoint}
    (hlen : done.length = n % (done ++ e :: rest).length)
    (hdone : ∀ x ∈ done ++ [e], (cs.active x).toNat = level + 1)
    (hrest : ∀ x ∈ rest, (cs.active x).toNat = level) : cs.Rounds (done ++ e :: rest) (n + 1) := by
  have hturn : (n + 1) % (done ++ e :: rest).length = (done.length + 1) % (done ++ e :: rest).length := by
    rw [hlen, Nat.mod_add_mod]
  cases rest with
  | nil =>
    refine ⟨level + 1, [], done ++ [e], rfl, ?_, nofun, hdone⟩
    rw [hturn, List.length_append, List.length_singleton, Nat.mod_self]
    rfl
  | cons second rest =>
    refine ⟨level, done ++ [e], second :: rest, by simp, ?_, hdone, hrest⟩
    rw [hturn, Nat.mod_eq_of_lt (by simp), List.length_append, List.length_singleton]

/-- The least busy endpoint is the next one in the round. -/
theorem Rounds.acquire (h : cs.Rounds es n) (hapart : cs.Apart es) (he : cs.FirstLeast es e)
    (hroom : (cs.active e).toNat + 1 < 2 ^ 64) :
    es[n % es.length]? = some e ∧ (cs.acquire e).Rounds es (n + 1) := by
  have hknows := hapart.known e he.mem
  have hlt := Nat.mod_lt n (List.length_pos_of_mem he.mem)
  obtain ⟨level, done, todo, rfl, hlen, hdone, htodo⟩ := h
  cases todo with
  | nil =>
    rw [← hlen, List.append_nil] at hlt
    exact absurd hlt (Nat.lt_irrefl _)
  | cons first rest =>
    obtain ⟨hfirst, hrest⟩ := List.forall_mem_cons.mp htodo
    have hnext : cs.FirstLeast (done ++ first :: rest) first := by
      refine ⟨done, rest, rfl, fun x hx ↦ ?_, fun x hx ↦ ?_⟩
      · rw [UInt64.lt_iff_toNat_lt, hfirst, hdone x hx]
        exact Nat.lt_succ_self _
      · rw [UInt64.le_iff_toNat_le, hfirst, hrest x hx]
    obtain rfl := he.unique hnext
    have hindex : (done ++ e :: rest)[n % (done ++ e :: rest).length]? = some e := by
      rw [← hlen, List.getElem?_append_right (Nat.le_refl _), Nat.sub_self]
      rfl
    have hself : ((cs.acquire e).active e).toNat = level + 1 := by
      rw [toNat_active_acquire hknows hroom, if_pos rfl, hfirst]
    refine ⟨hindex, rounds_succ level hlen ?_ fun x hx ↦ ?_⟩
    · refine List.forall_mem_append.mpr ⟨fun x hx ↦ ?_, List.forall_mem_singleton.mpr hself⟩
      rw [hapart.active_acquire (List.mem_append_left _ hx), hdone x hx]
    · rw [hapart.active_acquire (List.mem_append_right _ hx), hrest x hx]

/-! ## Choices in a row -/

namespace Fills

variable (h : Fills es cs chosen cs')
include h

/-- A level endpoint stays level. -/
theorem keeps_level (hapart : cs.Apart es) (hx : cs.Level es x) : cs'.Level es x := by
  induction h with
  | nil => exact hx
  | cons he hroom _ ih => exact ih (hapart.acquire _) (hx.acquire he (hapart.known _ he.mem) hroom)

theorem level (hapart : cs.Apart es) (hx : x ∈ chosen) : cs'.Level es x := by
  induction h with
  | nil => cases hx
  | cons he _ hrest ih =>
    rcases List.mem_cons.mp hx with rfl | hx
    · exact hrest.keeps_level (hapart.acquire _) (he.level (hapart.known _ he.mem))
    · exact ih (hapart.acquire _) hx

/-- Every count has risen by as many connections as were opened to the endpoint. -/
theorem toNat_active (hapart : cs.Apart es) (hx : x ∈ es) :
    (cs'.active x).toNat = (cs.active x).toNat + chosen.count x := by
  induction h with
  | nil => rfl
  | @cons cs cs' e chosen he hroom _ ih =>
    have hsame : x.counter = e.counter ↔ e = x :=
      ⟨fun heq ↦ (List.inj_on_of_nodup_map hapart.nodup hx he.mem heq).symm, fun heq ↦ by rw [heq]⟩
    rw [ih (hapart.acquire e), toNat_active_acquire (hapart.known _ he.mem) hroom, List.count_cons]
    simp only [beq_iff_eq, hsame]
    omega

theorem load_eq (hapart : cs.Apart es) : cs'.load es = cs.load es + chosen.length := by
  induction h with
  | nil => rfl
  | cons he hroom _ ih =>
    have hone := List.count_eq_one_of_mem hapart.nodup (List.mem_map_of_mem he.mem)
    rw [ih (hapart.acquire _), load_acquire (hapart.known _ he.mem) hroom, hone, List.length_cons]
    omega

/-- What begins in a round goes on with it. -/
theorem rounds (hapart : cs.Apart es) (hn : cs.Rounds es n) :
    chosen.map some = (List.range' n chosen.length).map (fun i ↦ es[i % es.length]?) ∧
      cs'.Rounds es (n + chosen.length) := by
  induction h generalizing n with
  | nil => exact ⟨rfl, hn⟩
  | cons he hroom _ ih =>
    obtain ⟨hindex, hnext⟩ := hn.acquire hapart he hroom
    obtain ⟨hchosen, hrounds⟩ := ih (hapart.acquire _) hnext
    rw [List.map_cons, List.length_cons, List.range'_succ, List.map_cons, hindex, hchosen]
    refine ⟨rfl, ?_⟩
    rwa [Nat.add_right_comm] at hrounds

end Fills

end Connections

namespace Balancer

/-- A balancer that looks for the least busy of endpoints with counters of their own. -/
structure Levels (es : List Endpoint) (s : Balancer × Connections) : Prop where
  strategy : s.1.strategy = .leastConnections
  ne_nil : es ≠ []
  apart : s.2.Apart es

/-- Holds of a run in which no count overflows by a choice. -/
def Roomy (s : Balancer × Connections) (xs : List Event) : Prop :=
  ∀ m ∈ moments s xs, ∀ p ∈ picked m.1 m.2, (m.1.2.active p.2).toNat + 1 < 2 ^ 64

instance (s : Balancer × Connections) (xs : List Event) : Decidable (Roomy s xs) :=
  inferInstanceAs (Decidable (∀ m ∈ moments s xs, ∀ p ∈ picked m.1 m.2, _ < _))

variable {s : Balancer × Connections} {xs : List Event} {es : List Endpoint}

namespace Levels

theorem run (h : Levels es s) (xs : List Event) : Levels es (run s xs) := by
  obtain ⟨hstrategy, hlen⟩ := run_fixed s xs
  exact ⟨hstrategy.trans h.strategy, h.ne_nil, h.apart.of_length hlen⟩

theorem step_select (h : Levels es s) (draw : Nat) (service : String) :
    ∃ e, s.2.FirstLeast es e ∧
      s.1.selectInPlace s.2 draw service es = some ((s.1, s.2.acquire e), .ok e) ∧
      picked s (.select draw service es) = some (service, e) ∧
      step s (.select draw service es) = (s.1, s.2.acquire e) := by
  obtain ⟨first, rest, rfl⟩ := List.exists_cons_of_ne_nil h.ne_nil
  have hselect : s.1.selectInPlace s.2 draw service (first :: rest) =
      some ((s.1, s.2.acquire (leastBusy s.2 first rest)), .ok (leastBusy s.2 first rest)) := by
    simp only [selectInPlace, h.strategy]
  exact ⟨_, s.2.firstLeast_leastBusy first rest, hselect, step_of_selectInPlace hselect⟩

/-- Choices in a row fill up the connections. -/
theorem fills (h : Levels es s) (hxs : ∀ x ∈ xs, ∃ draw service, x = .select draw service es)
    (hroomy : Roomy s xs) :
    s.2.Fills es ((picks s xs).map Prod.snd) (Balancer.run s xs).2 ∧
      (picks s xs).length = xs.length := by
  induction xs generalizing s with
  | nil => exact ⟨.nil s.2, rfl⟩
  | cons x xs ih =>
    obtain ⟨⟨draw, service, rfl⟩, hrest⟩ := List.forall_mem_cons.mp hxs
    obtain ⟨hnow, hlater⟩ := List.forall_mem_cons.mp hroomy
    obtain ⟨e, he, -, hpicked, hstep⟩ := h.step_select draw service
    have hnext : Levels es (step s (.select draw service es)) := h.run [.select draw service es]
    obtain ⟨hfills, hlen⟩ := ih hnext hrest hlater
    rw [picks_cons, hpicked, run_cons]
    refine ⟨.cons he (hnow _ hpicked) ?_, congrArg Nat.succ hlen⟩
    rwa [hstep] at hfills ⊢

end Levels

/-- A balancer that looks for the least busy endpoint, in any state:

* after any run, in which connections may be opened and closed at will, the next choice is made in place,
  takes the first of the least busy endpoints and opens one connection, on this endpoint; the endpoint is
  level then;
* choices in a row, without any connections closed or opened in between, all succeed; each endpoint gets as
  many connections as it was chosen, so the load grows by as many as there were choices; and every endpoint
  that was chosen at all is level at the end;
* if the counts are equal at the beginning, then the choices go round the list, and all endpoints are level
  at the end. -/
theorem levelled (h : Levels es s) :
    (∀ xs draw service, let s' := run s xs
      ∃ e, s'.2.FirstLeast es e ∧
        s'.1.selectInPlace s'.2 draw service es = some ((s'.1, s'.2.acquire e), .ok e) ∧
        (∀ id, (s'.2.acquire e).count id = if id = e.counter then s'.2.count id + 1 else s'.2.count id) ∧
        (s'.2.acquire e).Level es e) ∧
    (∀ xs, (∀ x ∈ xs, ∃ draw service, x = .select draw service es) → Roomy s xs →
      let s' := run s xs
      let chosen := (picks s xs).map Prod.snd
      chosen.length = xs.length ∧
      (∀ e ∈ es, (s'.2.active e).toNat = (s.2.active e).toNat + chosen.count e) ∧
      s'.2.load es = s.2.load es + xs.length ∧
      (∀ e ∈ chosen, s'.2.Level es e) ∧
      ((∀ x ∈ es, ∀ y ∈ es, s.2.active x = s.2.active y) →
        chosen.map some = (List.range xs.length).map (fun i ↦ es[i % es.length]?) ∧
        ∀ e ∈ es, s'.2.Level es e)) := by
  refine ⟨fun xs draw service ↦ ?_, fun xs hxs hroomy ↦ ?_⟩
  · intro s'
    have h' : Levels es s' := h.run xs
    obtain ⟨e, he, hselect, -⟩ := h'.step_select draw service
    have hknows := h'.apart.known e he.mem
    exact ⟨e, he, hselect, Connections.count_acquire hknows, he.level hknows⟩
  · intro s' chosen
    obtain ⟨hfills, hpicks⟩ := h.fills hxs hroomy
    have hlen : chosen.length = xs.length := (List.length_map _).trans hpicks
    refine ⟨hlen, fun e he ↦ hfills.toNat_active h.apart he, ?_,
      fun e he ↦ hfills.level h.apart he, fun hequal ↦ ?_⟩
    · rw [← hlen]
      exact hfills.load_eq h.apart
    · obtain ⟨hround, hrounds⟩ := hfills.rounds h.apart (Connections.rounds_zero h.ne_nil hequal)
      rw [List.range_eq_range', ← hlen]
      exact ⟨hround, hrounds.level⟩

/-- Four choices among three endpoints, and one more when the last of them has been left. -/
theorem levelled_of_three :
    let a : Endpoint := { service := "s", id := "a", address := "h", port := 1, counter := 2 }
    let b : Endpoint := { service := "s", id := "b", address := "h", port := 2, counter := 0 }
    let c : Endpoint := { service := "s", id := "c", address := "h", port := 3, counter := 1 }
    let es := [a, b, c]
    let s : Balancer × Connections := ({ strategy := .leastConnections }, ⟨[5, 5, 5]⟩)
    let xs : List Event :=
      [.select 0 "s" es, .select 0 "s" es, .select 0 "t" es, .select 0 "s" es]
    Levels es s ∧ Roomy s xs ∧ (∀ x ∈ es, ∀ y ∈ es, s.2.active x = s.2.active y) ∧
      ((picks s xs).map Prod.snd).map some = [some a, some b, some c, some a] ∧
      (run s xs).2.load es = s.2.load es + 4 ∧
      ((run s (xs ++ [.release c])).2.acquire c).Level es c := by
  intro a b c es s xs
  have h : Levels es s := ⟨rfl, by decide, by decide, by decide⟩
  have hroomy : Roomy s xs := by decide
  have hequal : ∀ x ∈ es, ∀ y ∈ es, s.2.active x = s.2.active y := by decide
  have hxs : ∀ x ∈ xs, ∃ draw service, x = .select draw service es := by simp [xs]
  obtain ⟨hnext, hrow⟩ := levelled h
  obtain ⟨-, -, hload, -, hround⟩ := hrow xs hxs hroomy
  obtain ⟨e, he, -, -, hlevel⟩ := hnext (xs ++ [.release c]) 0 "s"
  obtain rfl : e = c := he.unique ⟨[a, b], [], rfl, by decide, nofun⟩
  exact ⟨h, hroomy, hequal, (hround hequal).1.trans (by decide), hload, hlevel⟩

end Balancer

end Interchange
