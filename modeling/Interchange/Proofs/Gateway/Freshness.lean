import Interchange.Proofs.Gateway.Chronicle

/-!
# New breakers for endpoints that come back

A bank that is consulted looks at the routing table and forgets the instances that
have left it.  In between it knows nothing of the table.  So an endpoint that leaves
and comes back finds its old breaker if nobody has consulted the bank while it was
gone.  The breaker that a call is assigned is one of an earlier call if and only if
the bank has kept that for it (`Concourse.Kept`): it was assigned for this very
instance, whoever has consulted the bank since then found the counter of the instance
in the table, and nobody was assigned a breaker for another instance of this name.
This holds of every run, whatever is written to the table.

It is carried by two invariants of the guards.  What is guarded is kept, or no call
has used it yet (`Concourse.Mindful`); and what is kept is guarded
(`Concourse.Kept.guarded`).
-/

namespace Interchange

namespace Concourse

variable {settings : Settings} {w : Concourse} {l : List Note} {es : List Event} {e e' : Endpoint}
  {id : BreakerId}

/-- A call was assigned this breaker for the instance, and nothing has made the bank forget it since. -/
def Kept (settings : Settings) (w : Concourse) (es : List Event) (e : Endpoint)
    (id : BreakerId) : Prop :=
  ∃ es₁ x es₂ k e', es = es₁ ++ x :: es₂ ∧
    .assigned (some k) e' id ∈ (w.run settings es₁).notes settings x ∧ e'.SameInstance e ∧
    (w.run settings (es₁ ++ [x])).Along settings (Spares settings e) es₂

namespace Kept

theorem of_same (h : w.Kept settings es e id) (hsame : e.SameInstance e') :
    w.Kept settings es e' id := by
  obtain ⟨es₁, x, es₂, k, e₀, rfl, hn, he₀, halong⟩ := h
  exact ⟨es₁, x, es₂, k, e₀, rfl, hn, he₀.trans hsame, halong.imp fun _ _ hx ↦ hx.of_same hsame⟩

/-- The breaker of a call is kept at first. -/
theorem of_assigned {x : Event} {k : Nat}
    (hn : .assigned (some k) e id ∈ (w.run settings es).notes settings x)
    (hsame : e.SameInstance e') : w.Kept settings (es ++ [x]) e' id :=
  ⟨es, x, [], k, e, rfl, hn, hsame, trivial⟩

theorem snoc (h : w.Kept settings es e id) {x : Event}
    (hx : (w.run settings es).Spares settings e x) : w.Kept settings (es ++ [x]) e id := by
  obtain ⟨es₁, y, es₂, k, e₀, rfl, hn, he₀, halong⟩ := h
  refine ⟨es₁, y, es₂ ++ [x], k, e₀, by simp, hn, he₀, along_append.mpr ⟨halong, ?_, trivial⟩⟩
  rwa [← run_append, List.append_assoc]

theorem exists_assigned (h : w.Kept settings es e id) :
    ∃ k e', .assigned (some k) e' id ∈ w.chronicle settings es := by
  obtain ⟨es₁, x, es₂, k, e', rfl, hn, -⟩ := h
  exact ⟨k, e', by simp [hn]⟩

end Kept

namespace Chronicled

theorem mem_guards_along (h : w.Chronicled settings l) {g : Guard} (hg : g ∈ w.bank.guards)
    {es : List Event} (hes : w.Along settings (Spares settings g.endpoint) es) :
    g ∈ (w.run settings es).bank.guards := by
  induction es generalizing w l with
  | nil => exact hg
  | cons x es ih => exact ih (h.step x) (h.mem_guards_of_spares hg hes.1) hes.2

/-- Whoever is assigned a breaker while an instance of the same name stays guarded comes for that
instance. -/
theorem same_of_assigned (h : w.Chronicled settings l) {x : Event} {g : Guard}
    (hg : g ∈ (w.step settings x).bank.guards) {author : Option Nat}
    (hn : .assigned author e id ∈ w.notes settings x)
    (hname : Bank.sameName e g.endpoint = true) : e.SameInstance g.endpoint := by
  obtain ⟨balancer, -, -, hans⟩ := h.answers_of_assigned hn
  obtain ⟨g', hg', hsame, -⟩ := hans.guarded
  have hname' : Bank.sameName g'.endpoint g.endpoint = true := by
    rwa [Bank.sameName, hsame.service_eq, hsame.id_eq]
  have heq : g' = g := (h.records_step x).apart.eq_of_sameName hg' hg hname'
  exact heq ▸ hsame.symm

end Chronicled

/-- What is kept is guarded. -/
theorem Kept.guarded (h : w.Chronicled settings []) (hkept : w.Kept settings es e id) :
    ∃ g ∈ (w.run settings es).bank.guards, g.endpoint.SameInstance e ∧ g.breaker = id := by
  obtain ⟨es₁, x, es₂, k, e', rfl, hn, hsame, halong⟩ := hkept
  have hbefore := h.run es₁
  obtain ⟨balancer, -, -, hans⟩ := hbefore.answers_of_assigned hn
  obtain ⟨g, hg, hge, rfl⟩ := hans.guarded
  have hgsame := hge.trans hsame
  refine ⟨g, ?_, hgsame, rfl⟩
  rw [run_append, run_cons, run_nil] at halong
  rw [run_append, run_cons]
  exact (hbefore.step x).mem_guards_along hg (halong.imp fun _ _ hx ↦ hx.of_same hgsame.symm)

/-- No call has been assigned this breaker, and it is as it was made. -/
structure Unused (settings : Settings) (w : Concourse) (l : List Note) (g : Guard) : Prop where
  unassigned (k : Nat) (e : Endpoint) : .assigned (some k) e g.breaker ∉ l
  breaker_eq : w.bank.breaker g.breaker = .new settings.thresholds g.endpoint

/-- What is guarded is unused, or kept, and then it is in the table that the bank knows. -/
def Mindful (settings : Settings) (w : Concourse) (es : List Event) : Prop :=
  ∀ g ∈ (w.run settings es).bank.guards,
    (w.run settings es).Unused settings (w.chronicle settings es) g ∨
      w.Kept settings es g.endpoint g.breaker ∧
        ((w.run settings es).bank.generation = (w.run settings es).router.generation →
          (w.run settings es).router.Sees g.endpoint)

namespace Chronicled

/-- A breaker that no call has been assigned stays as it is made. -/
theorem breaker_step (h : w.Chronicled settings l) {g : Guard} (hg : g ∈ w.bank.guards)
    (hunused : w.Unused settings l g) (x : Event) :
    (w.step settings x).bank.breaker g.breaker = .new settings.thresholds g.endpoint := by
  have hlt := h.records.apart.breaker_lt g hg
  have hmoves := w.moves settings x
  generalize (w.step settings x).router = r, (w.step settings x).bank = b,
    w.notes settings x = ns at hmoves
  cases hmoves with
  | idle | written => exact hunused.breaker_eq
  | asked | routed =>
    rw [(Bank.answers h.records.apart ..).breaker_eq hlt]
    exact hunused.breaker_eq
  | @acted k _ _ _ e id _ _ _ _ hk =>
    have hne : g.breaker ≠ id := fun heq ↦
      hunused.unassigned k e (heq ▸ ((h.told k).underway hk).1)
    rw [Bank.breaker_setBreaker_of_ne hne]
    exact hunused.breaker_eq
  | looked =>
    -- Looking at a breaker that is closed changes nothing.
    rw [Bank.stats_fst, Bank.breaker_refreshAll _ (by rwa [Bank.breakers_prune]), Bank.breaker_prune,
      hunused.breaker_eq]
    split
    · exact Breaker.refresh_of_ne_opened (by simp) _
    · rfl

theorem mindful_snoc (h : (w.run settings es).Chronicled settings (w.chronicle settings es))
    (hm : w.Mindful settings es) (x : Event) : w.Mindful settings (es ++ [x]) := by
  intro g hg
  rw [chronicle_append, run_append, chronicle_cons, chronicle_nil, List.append_nil]
  rw [run_append] at hg
  have hstep := h.step x
  have htable (hsees : (w.run settings es).router.Sees g.endpoint)
      (heq : ((w.run settings es).step settings x).bank.generation =
        ((w.run settings es).step settings x).router.generation) :
      ((w.run settings es).step settings x).router.Sees g.endpoint := by
    rw [Router.Sees, (h.upToDate_step heq).1]
    exact hsees
  -- A breaker that a call is assigned now is kept, whatever the guard was before. If there is no such
  -- call, a guard that was unused stays so.
  by_cases hassigned : ∃ k e, .assigned (some k) e g.breaker ∈ (w.run settings es).notes settings x
  · obtain ⟨k, e, hn⟩ := hassigned
    obtain ⟨author, hauthor⟩ := hstep.records.guard_assigned g hg
    have hsame := hstep.records.same (List.mem_append_right _ hn) hauthor
    exact .inr ⟨.of_assigned hn hsame, htable ((lists_of_assigned hn).of_same hsame).sees⟩
  · have hunassigned {k : Nat} {e : Endpoint}
        (hold : .assigned (some k) e g.breaker ∉ w.chronicle settings es) :
        .assigned (some k) e g.breaker ∉
          w.chronicle settings es ++ (w.run settings es).notes settings x :=
      fun hn ↦ (List.mem_append.mp hn).elim hold fun hn ↦ hassigned ⟨k, e, hn⟩
    have hspares (hsees : (w.run settings es).Consults settings x →
        (w.run settings es).router.Sees g.endpoint) :
        (w.run settings es).Spares settings g.endpoint x :=
      ⟨hsees, fun _ _ _ hn hname ↦ h.same_of_assigned hg hn hname⟩
    rcases h.mem_guards_cases hg with ⟨hx, hold⟩ | ⟨-, hold⟩ | ⟨author, hn, hid, hnew⟩
    · refine (hm g hold).imp (fun hunused ↦ ?_) fun ⟨hkept, hsees⟩ ↦ ?_
      · exact ⟨fun k e ↦ hunassigned (hunused.unassigned k e), h.breaker_step hold hunused x⟩
      · exact ⟨hkept.snoc (hspares fun hc ↦ absurd hc hx),
          fun heq ↦ htable (hsees ((h.upToDate_step heq).2 hx)) heq⟩
    · have hmem := Bank.mem_prune hold
      refine (hm g hmem).imp (fun hunused ↦ ?_) fun ⟨hkept, hsees⟩ ↦ ?_
      · exact ⟨fun k e ↦ hunassigned (hunused.unassigned k e), h.breaker_step hmem hunused x⟩
      · have hseen := Bank.sees_of_mem_prune hold hsees
        exact ⟨hkept.snoc (hspares fun _ ↦ hseen), htable hseen⟩
    · refine .inl ⟨fun k e ↦ hunassigned fun hold ↦ ?_, hnew⟩
      exact Nat.lt_irrefl _ (hid ▸ h.records.assigned_lt hold)

end Chronicled

theorem mindful_opening (settings : Settings) (balancer : Balancer) (cs : Connections)
    (es : List Event) : (opening balancer cs).Mindful settings es := by
  induction es using List.reverseRecOn with
  | nil => simp [Mindful, opening]
  | append_singleton es x ih =>
    have hopening := (chronicled_opening settings balancer cs).run es
    exact hopening.mindful_snoc ih x

/-- A call is assigned a breaker that none was assigned before, and it is closed and has counted
nothing. -/
structure Fresh (settings : Settings) (w : Concourse) (es : List Event) (x : Event) (e : Endpoint)
    (id : BreakerId) : Prop where
  unassigned (k : Nat) (e' : Endpoint) : .assigned (some k) e' id ∉ w.chronicle settings es
  breaker_eq : ((w.run settings es).step settings x).bank.breaker id = .new settings.thresholds e

/-- A call is assigned a fresh breaker, or one that is kept. -/
theorem Chronicled.fresh_or_kept
    (h : (w.run settings es).Chronicled settings (w.chronicle settings es))
    (hm : w.Mindful settings es) {x : Event} {k : Nat}
    (hn : .assigned (some k) e id ∈ (w.run settings es).notes settings x) :
    w.Fresh settings es x e id ∨ w.Kept settings es e id := by
  have hcases : ((∀ k e', .assigned (some k) e' id ∉ w.chronicle settings es) ∧
      ((w.run settings es).step settings x).bank.breaker id = .new settings.thresholds e) ∨
        w.Kept settings es e id := by
    obtain ⟨balancer, -, -, hans⟩ := h.answers_of_assigned hn
    generalize ((w.run settings es).step settings x).bank = b at hans
    cases hans with
    | @known g hg hsame =>
      refine (hm g (Bank.mem_prune hg)).imp (fun hunused ↦ ⟨hunused.unassigned, ?_⟩)
        fun ⟨hkept, _⟩ ↦ hkept.of_same hsame
      rw [Bank.breaker_prune, hunused.breaker_eq, Breaker.new_eq_of_same hsame]
    | unknown =>
      refine .inl ⟨fun k e' hold ↦ Nat.lt_irrefl _ (h.records.assigned_lt hold), ?_⟩
      rw [← Bank.breakers_prune, Bank.breaker_create_self]
  exact hcases.imp_left fun ⟨hunassigned, hnew⟩ ↦ ⟨hunassigned, hnew⟩

/-- Whoever comes for an instance gets the breaker that is kept for it. -/
theorem Kept.id_eq (h : w.Chronicled settings []) {id' : BreakerId}
    (hkept : w.Kept settings es e id') {x : Event} {k : Nat}
    (hn : .assigned (some k) e id ∈ (w.run settings es).notes settings x) : id' = id := by
  have hrun := h.run es
  obtain ⟨g, hg, hsame, rfl⟩ := hkept.guarded h
  obtain ⟨balancer, -, -, hans⟩ := hrun.answers_of_assigned hn
  have hlists : ({ (w.run settings es).router with balancer } : Router).Lists g.endpoint :=
    Router.Lists.of_same (lists_of_assigned hn) hsame.symm
  exact (hans.id_eq_of_lists hrun.records.apart hg hlists hsame).symm

/-- An endpoint that comes back starts fresh, unless the bank has kept a breaker for this very instance,
and then it is that one.  So the breaker is fresh if the instance is new, and otherwise if since each of
its earlier calls somebody has consulted the bank while its counter was not in the table, or has been
assigned a breaker for another instance of the same name. -/
theorem fresh_on_return_iff (settings : Settings) (balancer : Balancer) (cs : Connections)
    (es : List Event) (x : Event) {k : Nat} {e : Endpoint} {id : BreakerId}
    (hn : .assigned (some k) e id ∈
      ((opening balancer cs).run settings es).notes settings x) :
    ((opening balancer cs).Fresh settings es x e id ↔
        ∀ id', ¬ (opening balancer cs).Kept settings es e id') ∧
      ∀ id', (opening balancer cs).Kept settings es e id' → id' = id := by
  have hopening := chronicled_opening settings balancer cs
  have hkept (id' : BreakerId) (h : (opening balancer cs).Kept settings es e id') : id' = id :=
    h.id_eq hopening hn
  refine ⟨⟨fun hfresh id' h ↦ ?_, fun hnone ↦ ?_⟩, hkept⟩
  · obtain rfl := hkept id' h
    obtain ⟨k', e', hassigned⟩ := h.exists_assigned
    exact hfresh.unassigned k' e' hassigned
  · have hmindful := mindful_opening settings balancer cs es
    exact ((hopening.run es).fresh_or_kept hmindful hn).resolve_right (hnone id)

/-- An endpoint whose breaker has opened is removed, somebody looks, and the very same endpoint is added
again. -/
theorem fresh_on_return_after_look :
    let a : Endpoint := { service := "s", id := "a", address := "h", port := 1, counter := 0 }
    let c : Call := { service := "s", method := "m", payload := [], traceId := ⟨"t", by decide⟩ }
    let effort : Effort Reply := { outcome := .error { code := .badRequest, message := "no" } }
    let come : Event := .come { moment := 0, call := c }
    let go (k : Nat) : Event := .resume k false effort
    let settings : Settings := { thresholds := { failures := 1 } }
    let before : List Event :=
      [.change (.add "s" a), come, go 0, go 0, go 0, .change (.remove "s" "a")]
    let es : List Event := before ++ .look :: [.change (.add "s" a), come]
    (((opening ⟨.roundRobin, []⟩ ⟨[0]⟩).run settings es).bank.breaker 0).circuit = .opened ∧
      .assigned (some 1) a 1 ∈
        ((opening ⟨.roundRobin, []⟩ ⟨[0]⟩).run settings es).notes settings (go 1) ∧
      (((opening ⟨.roundRobin, []⟩ ⟨[0]⟩).run settings es).step settings (go 1)).bank.breaker 1 =
        .new settings.thresholds a := by
  intro a c effort come go settings before es
  have hnotes : ((opening ⟨.roundRobin, []⟩ ⟨[0]⟩).run settings es).notes settings (go 1) =
      [.assigned (some 1) a 1] := by
    dsimp only [es, before, settings, go, come, effort, c, a]
    rfl
  have hn := hnotes ▸ List.mem_singleton_self (Note.assigned (some 1) a 1)
  have haway : ((opening ⟨.roundRobin, []⟩ ⟨[0]⟩).run settings before).router.instances = [] := by
    decide
  obtain ⟨hiff, -⟩ := fresh_on_return_iff settings ⟨.roundRobin, []⟩ ⟨[0]⟩ es (go 1) hn
  refine ⟨by decide, hn, (hiff.mpr ?_).breaker_eq⟩
  rintro id ⟨es₁, y, es₂, k, e, heq, hassigned, -, halong⟩
  -- Nothing is assigned by those who look, write or come, so the earlier call precedes the look.
  have hlook : y ≠ .look := by
    rintro rfl
    simp [notes] at hassigned
  have hlast : y ∉ [.change (.add "s" a), come] := fun hy ↦ by
    rcases List.mem_pair.mp hy with rfl | rfl <;> simp [come, notes] at hassigned
  rcases List.append_eq_append_iff.mp heq with ⟨t, rfl, ht⟩ | ⟨t, ht, hrest⟩
  · cases t with
    | nil => exact absurd (List.cons.inj ht).1.symm hlook
    | cons _ t =>
      have hmem : y ∈ t ++ y :: es₂ := by simp
      exact absurd ((List.cons.inj ht).2.symm ▸ hmem) hlast
  · cases t with
    | nil => exact absurd (List.cons.inj hrest).1 hlook
    | cons z t =>
      obtain ⟨rfl, rfl⟩ := List.cons.inj hrest
      -- Whoever looks finds the table empty.
      obtain ⟨-, hspares, -⟩ := along_append.mp halong
      have hsees := hspares.sees (.inl rfl)
      rw [← run_append, List.append_assoc, List.singleton_append, ← ht, Router.Sees, haway] at hsees
      simp at hsees

/-- An endpoint whose breaker has opened is removed, and put back before anybody consults the bank.  The
first call to it finds the breaker open. -/
theorem stale_on_return :
    let a : Endpoint := { service := "s", id := "a", address := "h", port := 1, counter := 0 }
    let c : Call := { service := "s", method := "m", payload := [], traceId := ⟨"t", by decide⟩ }
    let effort : Effort Reply := { outcome := .error { code := .badRequest, message := "no" } }
    let come : Event := .come { moment := 0, call := c }
    let go (k : Nat) : Event := .resume k false effort
    let settings : Settings := { thresholds := { failures := 1 } }
    let w (es : List Event) : Concourse := (opening ⟨.roundRobin, []⟩ ⟨[0]⟩).run settings es
    let gone : List Event :=
      [.change (.add "s" a), come, go 0, go 0, go 0, .change (.remove "s" "a")]
    let back : List Event := gone ++ [.change (.add "s" a)]
    (w gone).router.instances = [] ∧ (w back).router.instances = [a] ∧
      (w (back ++ [come])).notes settings (go 1) = [.assigned (some 1) a 0] ∧
      ((w (back ++ [come, go 1])).bank.breaker 0).circuit = .opened ∧
      ∃ f, (w (back ++ [come, go 1, go 1])).errands[1]? = some (.ended 0 (.error f)) ∧
        f.code = .unavailable := by
  dsimp only
  exact ⟨by decide, by decide, rfl, by decide, _, rfl, rfl⟩

end Concourse

end Interchange
