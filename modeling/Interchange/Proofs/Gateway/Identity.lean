import Interchange.Proofs.Gateway.Chronicle

/-!
# One breaker for each instance

What a gateway does to its breakers, along any run of a concourse in which the
routing table is kept tidy.

Then, beside what the chronicle tells (`Concourse.Chronicled`), all that an up to
date bank guards is in the table (`Guarded.step`).  A guard stays as long as its
instance is listed (`Guarded.mem_guards_run`), and is found by it, so whoever comes
for this instance in the meantime gets the same breaker.  The main statement,
`one_breaker_each`, puts this together.
-/

namespace Interchange

namespace Concourse

variable {settings : Settings} {w : Concourse} {l : List Note}

/-- The table is kept tidy, and nobody asks for the breaker of an endpoint that is not in it. -/
def Tidy (w : Concourse) : Event → Prop
  | .change c => c.Tidy
  | .ask e => w.router.Lists e
  | .pass _ | .create .. | .seed .. | .acquire _ | .release _ | .route .. | .come _ | .resume ..
  | .look => True

/-- The table is tidy, and all that is guarded is in it if the bank is up to date. -/
structure Guarded (settings : Settings) (w : Concourse) (l : List Note) : Prop
    extends w.Chronicled settings l where
  tidy : w.router.table.Tidy
  seen : w.bank.generation = w.router.generation → ∀ g ∈ w.bank.guards, w.router.Sees g.endpoint

theorem guarded_opening (settings : Settings) (balancer : Balancer) (cs : Connections) :
    (opening balancer cs).Guarded settings [] :=
  ⟨chronicled_opening settings balancer cs, ⟨.nil, by simp [opening]⟩, by simp [opening]⟩

namespace Guarded

theorem tidy_step (h : w.Guarded settings l) {x : Event} (hx : w.Tidy x) :
    (w.step settings x).router.table.Tidy := by
  have hmoves := w.moves settings x
  generalize (w.step settings x).router = r, (w.step settings x).bank = b,
    w.notes settings x = ns at hmoves
  cases hmoves with
  | idle | asked | acted | looked => exact h.tidy
  | written => exact w.router.tidy_apply h.tidy w.connections hx
  | routed _ hroute =>
    obtain ⟨-, -, balancer, rfl⟩ := Router.eq_of_route hroute
    exact h.tidy

/-- Whoever is assigned a breaker is assigned it for an endpoint that is listed. -/
theorem lists_of_assigned {x : Event} (hx : w.Tidy x) {author : Option Nat} {e : Endpoint}
    {id : BreakerId} (hn : .assigned author e id ∈ w.notes settings x) : w.router.Lists e := by
  cases author with
  | some k => exact Concourse.lists_of_assigned hn
  | none =>
    have hmoves := w.moves settings x
    generalize (w.step settings x).router = r, (w.step settings x).bank = b,
      w.notes settings x = ns at hn hmoves
    cases hmoves with
    | idle | written | routed | acted | looked => simp [Bank.lookNote] at hn
    | asked =>
      simp only [List.mem_singleton, Note.assigned.injEq] at hn
      obtain ⟨-, rfl, -⟩ := hn
      exact hx

theorem step (h : w.Guarded settings l) {x : Event} (hx : w.Tidy x) :
    (w.step settings x).Guarded settings (l ++ w.notes settings x) := by
  refine ⟨h.toChronicled.step x, h.tidy_step hx, fun heq g hg ↦ ?_⟩
  obtain ⟨hinstances, hbefore⟩ := h.upToDate_step heq
  rw [Router.Sees, hinstances]
  rcases h.mem_guards_cases hg with ⟨hn, hg⟩ | ⟨-, hg⟩ | ⟨author, hn, -⟩
  · exact h.seen (hbefore hn) g hg
  · exact Bank.sees_of_mem_prune hg fun heq ↦ h.seen heq g (Bank.mem_prune hg)
  · exact (lists_of_assigned hx hn).sees

theorem run (h : w.Guarded settings l) {es : List Event} (hes : w.Along settings Tidy es) :
    (w.run settings es).Guarded settings (l ++ w.chronicle settings es) :=
  invariant (fun _ _ _ h hx ↦ h.step hx) h hes

end Guarded

/-! ## Guards stay with their instances -/

/-- The instance is listed all the while. -/
def Stays (settings : Settings) (e : Endpoint) (w : Concourse) : List Event → Prop
  | [] => w.router.Lists e
  | x :: es => w.router.Lists e ∧ Stays settings e (w.step settings x) es

/-- Somebody was assigned this breaker for the instance, which has been listed ever since. -/
def Served (settings : Settings) (w : Concourse) (es : List Event) (e : Endpoint)
    (id : BreakerId) : Prop :=
  ∃ es₁ x es₂ author e', es = es₁ ++ x :: es₂ ∧
    .assigned author e' id ∈ (w.run settings es₁).notes settings x ∧ e'.SameInstance e ∧
    (w.run settings (es₁ ++ [x])).Stays settings e es₂

theorem Stays.of_same {e e' : Endpoint} {es : List Event} (h : w.Stays settings e es)
    (hsame : e.SameInstance e') : w.Stays settings e' es := by
  induction es generalizing w with
  | nil => exact Router.Lists.of_same h hsame
  | cons x es ih => exact ⟨h.1.of_same hsame, ih h.2⟩

/-- The event does not take away the registration of this endpoint. -/
def Event.Keeps (e : Endpoint) (x : Event) : Prop := ∀ c, x.change? = some c → c.Keeps e

theorem Stays.lists {e : Endpoint} {es : List Event} (h : w.Stays settings e es) :
    w.router.Lists e := by
  cases es with
  | nil => exact h
  | cons x es => exact h.1

theorem Stays.lists_run {e : Endpoint} {es : List Event} (h : w.Stays settings e es) :
    (w.run settings es).router.Lists e := by
  induction es generalizing w with
  | nil => exact h
  | cons x es ih => exact ih h.2

namespace Guarded

/-- An endpoint whose registration is kept is kept. -/
theorem mem_instances_step (h : w.Guarded settings l) {e : Endpoint} (he : e ∈ w.router.instances)
    {x : Event} (hx : x.Keeps e) : e ∈ (w.step settings x).router.instances := by
  have hmoves := w.moves settings x
  generalize (w.step settings x).router = r, (w.step settings x).bank = b,
    w.notes settings x = ns at hmoves
  cases hmoves with
  | idle | asked | acted | looked => exact he
  | written => exact Router.mem_instances_apply_of_keeps h.tidy he _ (hx _ rfl)
  | routed _ hroute =>
    obtain ⟨-, -, balancer, rfl⟩ := Router.eq_of_route hroute
    exact he

theorem stays_of_keeps (h : w.Guarded settings l) {e : Endpoint} (he : e ∈ w.router.instances)
    {es : List Event} (hes : w.Along settings Tidy es) (hkeeps : ∀ x ∈ es, x.Keeps e) :
    w.Stays settings e es := by
  induction es generalizing w l with
  | nil => exact .of_mem he
  | cons x es ih =>
    obtain ⟨hx, hrest⟩ := List.forall_mem_cons.mp hkeeps
    exact ⟨.of_mem he, ih (h.step hes.1) (h.mem_instances_step he hx) hes.2 hrest⟩

/-- Nothing makes the bank forget an instance that is listed. -/
theorem spares_of_lists (h : w.Guarded settings l) {x : Event} (hx : w.Tidy x) {e : Endpoint}
    (hl : w.router.Lists e) : w.Spares settings e x where
  sees _ := hl.sees
  same _ _ _ hn hname := (lists_of_assigned hx hn).same_of_sameName h.tidy hl hname

theorem mem_guards_run (h : w.Guarded settings l) {es : List Event}
    (hes : w.Along settings Tidy es) {g : Guard} (hg : g ∈ w.bank.guards)
    (hl : w.Stays settings g.endpoint es) : g ∈ (w.run settings es).bank.guards := by
  induction es generalizing w l with
  | nil => exact hg
  | cons x es ih =>
    have hstays := h.mem_guards_of_spares hg (h.spares_of_lists hes.1 hl.lists)
    exact ih (h.step hes.1) hes.2 hstays hl.2

/-- The breaker that an instance was assigned guards it as long as it stays listed. -/
theorem guard_of_served (h : w.Guarded settings l) {es : List Event}
    (hes : w.Along settings Tidy es) {e : Endpoint} {id : BreakerId}
    (hserved : w.Served settings es e id) :
    (w.run settings es).router.Lists e ∧
      ∃ g ∈ (w.run settings es).bank.guards, g.endpoint.SameInstance e ∧ g.breaker = id := by
  obtain ⟨es₁, x, es₂, author, e', rfl, hx, hsame, hstays⟩ := hserved
  obtain ⟨hes₁, hxt, hes₂⟩ := along_append.mp hes
  rw [run_append, run_cons, run_nil] at hstays
  rw [run_append, run_cons]
  have hmeanwhile := h.run hes₁
  obtain ⟨balancer, -, -, hans⟩ := hmeanwhile.answers_of_assigned hx
  obtain ⟨g, hg, hge, rfl⟩ := hans.guarded
  have hgsame := hge.trans hsame
  refine ⟨hstays.lists_run, g, ?_, hgsame, rfl⟩
  exact (hmeanwhile.step hxt).mem_guards_run hes₂ hg (hstays.of_same hgsame.symm)

/-- Whoever comes for an instance while it stays listed gets the same breaker. -/
theorem id_eq_of_served (h : w.Guarded settings l) {es : List Event}
    (hes : w.Along settings Tidy es) {e e' : Endpoint} {id id' : BreakerId}
    (hserved : w.Served settings es e id) {y : Event} {author : Option Nat}
    (hy : .assigned author e' id' ∈ (w.run settings es).notes settings y)
    (hsame : e.SameInstance e') : id' = id := by
  have hrun := h.run hes
  obtain ⟨hl, g, hg, hge, rfl⟩ := h.guard_of_served hes hserved
  obtain ⟨balancer, -, -, hans⟩ := hrun.answers_of_assigned hy
  exact hans.id_eq_of_lists hrun.records.apart hg (hl.of_same hge.symm) (hge.trans hsame)

end Guarded

/-- The breakers that the statistics list after these events. -/
structure Listing (settings : Settings) (w₀ : Concourse) (es : List Event) (ids : List BreakerId) :
    Prop where
  nodup : ids.Nodup
  perm : ((w₀.run settings es).bank.stats (w₀.run settings es).router (w₀.run settings es).now).2.Perm
    (ids.map fun id ↦ ((w₀.run settings es).bank.breaker id).refresh (w₀.run settings es).now)
  /-- They are those of all instances that were used and have stayed since. -/
  mem_of_served : ∀ e id, w₀.Served settings es e id → id ∈ ids
  /-- No two are of one instance. -/
  injective : ∀ id ∈ ids, ∀ id' ∈ ids, ∀ a e a' e', .assigned a e id ∈ w₀.chronicle settings es →
    .assigned a' e' id' ∈ w₀.chronicle settings es → e.SameInstance e' → id = id'
  /-- The others are of instances that were used, too, and whose counters are in the table. -/
  used : ∀ id ∈ ids, ∃ a e, .assigned a e id ∈ w₀.chronicle settings es ∧
    ∃ x ∈ (w₀.run settings es).router.instances, x.sharesCounter e = true

/-- A gateway at work that has a breaker for each instance, through these events. -/
structure BreakerEach (settings : Settings) (w₀ : Concourse) (es : List Event) : Prop where
  /-- Two calls to one instance share a breaker if the instance stays listed in between. -/
  shared : ∀ es₁ x es₂, es = es₁ ++ x :: es₂ → ∀ a e id e' id', w₀.Served settings es₁ e id →
    .assigned a e' id' ∈ (w₀.run settings es₁).notes settings x → e.SameInstance e' → id' = id
  /-- It does so across all writes that keep its registration. -/
  stays : ∀ es₁ es₂, es = es₁ ++ es₂ → ∀ e ∈ (w₀.run settings es₁).router.instances,
    (∀ x ∈ es₂, x.Keeps e) → (w₀.run settings es₁).Stays settings e es₂
  /-- Two instances never share a breaker. -/
  apart : ∀ a e id a' e', .assigned a e id ∈ w₀.chronicle settings es →
    .assigned a' e' id ∈ w₀.chronicle settings es → e.SameInstance e'
  /-- A call is assigned the breaker of the endpoint to which it is routed. -/
  routed : ∀ es₁ x es₂, es = es₁ ++ x :: es₂ → ∀ k e id,
    .assigned (some k) e id ∈ (w₀.run settings es₁).notes settings x →
      ∃ a r cs, (w₀.run settings es₁).errands[k]? = some (.coming a) ∧
        (w₀.run settings es₁).router.route (w₀.run settings es₁).connections a.draws.endpoint
          a.call = .ok (r, cs, e)
  /-- It is done to a breaker only what a call does that was assigned it before, and looks. -/
  authored : ∀ es₁ x es₂, es = es₁ ++ x :: es₂ → ∀ e id y,
    .did e id y ∈ (w₀.run settings es₁).notes settings x →
      (y.author = none ∧ y.deed.looks = true) ∨
        ∃ k, y.author = some k ∧ .assigned (some k) e id ∈ w₀.chronicle settings es₁
  /-- Nobody is refused unless a failure at the same instance was recorded before. -/
  refused : ∀ es₁ x es₂, es = es₁ ++ x :: es₂ → ∀ e id y f,
    .did e id y ∈ (w₀.run settings es₁).notes settings x → y.deed = .enter (.error f) →
      ∃ e' z, .did e' id z ∈ w₀.chronicle settings es₁ ∧ e'.SameInstance e ∧
        z.deed = .record false
  /-- A call is assigned one breaker only, and is under way with it. -/
  unique : ∀ k e id e' id', .assigned (some k) e id ∈ w₀.chronicle settings es →
    .assigned (some k) e' id' ∈ w₀.chronicle settings es → e = e' ∧ id = id'
  underway : ∀ (k : Nat) call e id i,
    (w₀.run settings es).errands[k]? = some (.underway call e id i) →
      .assigned (some k) e id ∈ w₀.chronicle settings es
  /-- What a call does are rounds of admission, attempt and record, and perhaps a refusal, or an attempt
  that is not recorded because the call still waits for it or has been cancelled. -/
  settled : ∀ k, Settled (w₀.run settings es).errands[k]?
    (deedsOf k (entries (w₀.chronicle settings es)))
  /-- Each breaker is what these deeds make of a new one, and its totals count them. -/
  breaker_eq : ∀ a e id, .assigned a e id ∈ w₀.chronicle settings es →
    (w₀.run settings es).bank.breaker id = (Breaker.new settings.thresholds e).replay
      (history (entriesAt id (w₀.chronicle settings es)))
  totalSuccesses_eq : ∀ a e id, .assigned a e id ∈ w₀.chronicle settings es →
    ((w₀.run settings es).bank.breaker id).totalSuccesses =
      (entriesAt id (w₀.chronicle settings es)).countP (fun x ↦ x.deed.succeeds)
  totalFailures_eq : ∀ a e id, .assigned a e id ∈ w₀.chronicle settings es →
    ((w₀.run settings es).bank.breaker id).totalFailures =
      (entriesAt id (w₀.chronicle settings es)).countP (fun x ↦ x.deed.fails)
  totalRejections_eq : ∀ a e id, .assigned a e id ∈ w₀.chronicle settings es →
    ((w₀.run settings es).bank.breaker id).totalRejections =
      (entriesAt id (w₀.chronicle settings es)).countP (fun x ↦ x.deed.rejects)
  listing : ∃ ids, w₀.Listing settings es ids

/-- The statistics list the breakers that are on guard. -/
theorem Guarded.listing {w₀ : Concourse} (h : w₀.Guarded settings []) {es : List Event}
    (hes : w₀.Along settings Tidy es) :
    w₀.Listing settings es
      (((w₀.run settings es).bank.prune (w₀.run settings es).router).guards.map (·.breaker)) := by
  have hw : (w₀.run settings es).Guarded settings (w₀.chronicle settings es) := h.run hes
  have hrecords := hw.records
  refine
    { nodup := (hrecords.apart.prune _).breakers_nodup
      perm := ?_
      mem_of_served := fun e id hserved ↦ ?_
      injective := fun id hid id' hid' a e a' e' ha ha' hsame ↦ ?_
      used := fun id hid ↦ ?_ }
  · rw [List.map_map]
    exact Bank.stats_perm hrecords.apart ..
  · obtain ⟨hl, g, hg, hge, rfl⟩ := h.guard_of_served hes hserved
    exact List.mem_map_of_mem (Bank.mem_prune_of_sees hg (hl.of_same hge.symm).sees)
  · obtain ⟨g, hg, rfl⟩ := List.mem_map.mp hid
    obtain ⟨g', hg', rfl⟩ := List.mem_map.mp hid'
    obtain ⟨b, hb⟩ := hrecords.guard_assigned g (Bank.mem_prune hg)
    obtain ⟨b', hb'⟩ := hrecords.guard_assigned g' (Bank.mem_prune hg')
    have hguards : g.endpoint.SameInstance g'.endpoint :=
      ((hrecords.same hb ha).trans hsame).trans (hrecords.same ha' hb')
    rw [(hrecords.apart.prune _).eq_of_sameName hg hg' hguards.sameName]
  · obtain ⟨g, hg, rfl⟩ := List.mem_map.mp hid
    obtain ⟨a, ha⟩ := hrecords.guard_assigned g (Bank.mem_prune hg)
    exact ⟨a, g.endpoint, ha, Bank.sees_of_mem_prune hg fun heq ↦ hw.seen heq g (Bank.mem_prune hg)⟩

/-- A gateway at work has a breaker for each instance, if its routing table is kept tidy. -/
theorem one_breaker_each (settings : Settings) (balancer : Balancer) (cs : Connections)
    (es : List Event) (hes : (opening balancer cs).Along settings Tidy es) :
    (opening balancer cs).BreakerEach settings es := by
  have hopening := guarded_opening settings balancer cs
  have hbefore {es₁ es₂ : List Event} (h : es = es₁ ++ es₂) :
      ((opening balancer cs).run settings es₁).Guarded settings
          ((opening balancer cs).chronicle settings es₁) ∧
        ((opening balancer cs).run settings es₁).Along settings Tidy es₂ := by
    subst h
    obtain ⟨h₁, h₂⟩ := along_append.mp hes
    exact ⟨by simpa using hopening.run h₁, h₂⟩
  have hw := (hbefore (List.append_nil es).symm).1
  have htotals {a : Option Nat} {e : Endpoint} {id : BreakerId}
      (ha : .assigned a e id ∈ (opening balancer cs).chronicle settings es) :=
    hw.records.breaker_eq ha ▸ (hw.records.faithful ha).totals
  refine
    { shared := ?_
      stays := fun es₁ es₂ heq e he hkeeps ↦ ?_
      apart := fun a e id a' e' ha ha' ↦ hw.records.same ha ha'
      routed := fun es₁ x es₂ heq k e id hn ↦ route_of_assigned hn
      authored := fun es₁ x es₂ heq e id y hn ↦ ?_
      refused := fun es₁ x es₂ heq e id y f hn hf ↦ ?_
      unique := fun k e id e' id' ha ha' ↦ (hw.told k).unique ha ha'
      underway := fun k call e id i hi ↦ ((hw.told k).underway hi).1
      settled := fun k ↦ (hw.told k).settled
      breaker_eq := fun a e id ha ↦ hw.records.breaker_eq ha
      totalSuccesses_eq := fun a e id ha ↦ by simpa [Breaker.new] using (htotals ha).1
      totalFailures_eq := fun a e id ha ↦ by simpa [Breaker.new] using (htotals ha).2.1
      totalRejections_eq := fun a e id ha ↦ by simpa [Breaker.new] using (htotals ha).2.2
      listing := ⟨_, hopening.listing hes⟩ }
  · rintro es₁ x es₂ rfl a e id e' id' hserved hx hsame
    exact hopening.id_eq_of_served (along_append.mp hes).1 hserved hx hsame
  · obtain ⟨hguarded, halong⟩ := hbefore heq
    exact hguarded.stays_of_keeps he halong hkeeps
  · obtain ⟨hguarded, -⟩ := hbefore heq
    rcases hguarded.did_cases hn with hlooks | ⟨k, hauthor, ha, -⟩
    · exact .inl hlooks
    · exact .inr ⟨k, hauthor, ha⟩
  · obtain ⟨hguarded, -⟩ := hbefore heq
    rcases hguarded.did_cases hn with ⟨-, hlooks⟩ | ⟨k, -, ha, hrejected⟩
    · rw [hf] at hlooks
      cases hlooks
    · exact hguarded.exists_failure ha (hrejected f hf)

/-- The table is refreshed between two calls to an endpoint, by a copy of its registration. -/
theorem one_breaker_after_refresh :
    let a : Endpoint := { service := "s", id := "a", address := "h", port := 1, counter := 0 }
    let c : Call := { service := "s", method := "m", payload := [], traceId := ⟨"t", by decide⟩ }
    let effort : Effort Reply := { outcome := .error cancelled }
    let come : Event := .come { moment := 0, call := c }
    let refresh : Event := .change (.update [("s", [{ a with counter := 1 }])])
    let es : List Event := [.change (.add "s" a), come, .resume 0 false effort, refresh, come]
    let w₀ := opening ⟨.roundRobin, []⟩ ⟨[0, 0]⟩
    w₀.Along {} Tidy (es ++ [.resume 1 false effort]) ∧ w₀.Served {} es a 0 ∧
      ∀ id, .assigned (some 1) a id ∈ (w₀.run {} es).notes {} (.resume 1 false effort) → id = 0 := by
  intro a c effort come refresh es w₀
  have hrefresh : RoutingTable.Tidy [("s", [{ a with counter := 1 }])] := by
    refine ⟨by simp [Dictionary.Sorted], fun hmem ↦ ?_⟩
    obtain ⟨rfl, rfl⟩ : _ = "s" ∧ _ = [{ a with counter := 1 }] := by simpa using hmem
    exact ⟨by simp [a], by simp⟩
  have hes : w₀.Along {} Tidy (es ++ [.resume 1 false effort]) :=
    ⟨rfl, trivial, trivial, hrefresh, trivial, trivial, trivial⟩
  have hserved : w₀.Served {} es a 0 := by
    refine ⟨[.change (.add "s" a), come], .resume 0 false effort, [refresh, come], some 0, a, rfl,
      List.mem_singleton_self _, .refl a, ?_, ?_, ?_⟩
    · exact .of_mem (by decide)
    · exact .of_mem (by decide)
    · exact .of_mem (by decide)
  refine ⟨hes, hserved, fun id hid ↦ ?_⟩
  exact (one_breaker_each {} ⟨.roundRobin, []⟩ ⟨[0, 0]⟩ _ hes).shared es _ [] rfl (some 1) a 0 a id
    hserved hid (.refl a)

end Concourse

end Interchange
