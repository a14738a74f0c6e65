import Interchange.Proofs.Gateway.Bank

/-!
# What the chronicle tells

What one event does to the router and the breakers is said once, case by case
(`Concourse.Moves`).  From this follows what holds of the chronicle of any run,
whoever rewrites the routing table and in whatever way (`Concourse.Chronicled`):
the breakers are what the deeds that are noted make of new ones, as `Bank.Records`
says, and every call plays its part (`Told`).  It is assigned one breaker, of the
instance to which it is routed, and all that it does afterwards it does there, in
rounds of admission, attempt and record.
-/

namespace Interchange

/-! ## What a call has done -/

/-- What a call has done so far: rounds of attempts, and perhaps a refusal, or an attempt that has not
been recorded. Of a call that has ended the last attempt is recorded, unless it has ended as cancelled. -/
def Settled (x : Option Errand) (ds : List (Deed Reply)) : Prop :=
  ∃ os tail, acts ds = rounds os ++ tail ∧
    (tail = [] ∨ (∃ f, tail = [.enter (.error f)]) ∨
      (∃ o, tail = [.enter (.ok ()), .call os.length o]) ∧
        ∀ t r, x = some (.ended t r) → r = .error cancelled)

theorem Settled.nil (x : Option Errand) : Settled x [] := ⟨[], [], rfl, .inl rfl⟩

theorem Settled.of_cancelled {x y : Option Errand} {ds : List (Deed Reply)} (h : Settled x ds)
    (hy : ∀ t r, y = some (.ended t r) → r = .error cancelled) : Settled y ds := by
  obtain ⟨os, tail, hacts, htail⟩ := h
  exact ⟨os, tail, hacts, htail.imp_right (Or.imp_right fun ⟨hopen, _⟩ ↦ ⟨hopen, hy⟩)⟩

theorem Conforms.settled {t : Terms} {refusal : Failure} {ds : List (Deed Reply)}
    {stage : Stage Reply} (h : Conforms t refusal ds stage) {x : Option Errand}
    (hx : ∀ n stop o, stage = .calling n stop o → ∀ t r, x ≠ some (.ended t r)) : Settled x ds := by
  cases stage with
  | pending n start =>
    obtain ⟨os, -, hos⟩ := h
    exact ⟨os, [], by simpa using hos.acts_eq, .inl rfl⟩
  | calling n stop o =>
    obtain ⟨ds', os, rfl, hos, rfl⟩ := h
    refine ⟨os, [.enter (.ok ()), .call os.length o], ?_, .inr (.inr ⟨⟨o, rfl⟩, fun t r hr ↦ ?_⟩)⟩
    · rw [acts_append, hos.acts_eq]
      rfl
    · exact absurd hr (hx _ _ _ rfl t r)
  | finished stop r =>
    obtain ⟨ds', os, ds'', hos, hend, rfl⟩ := h
    obtain ⟨all, refused, hcourse⟩ := hend.course hos
    refine ⟨all, _, hcourse.acts_eq, ?_⟩
    cases refused with
    | none => exact .inl rfl
    | some f => exact .inr (.inl ⟨f, rfl⟩)

/-- Whoever is turned away is turned away by the breaker as it is. -/
theorem Invocation.Wakes.enter_of_mem {e : Effort Reply} {now : Span} {i j : Invocation Reply}
    {b b' : Breaker} {ds : List (Deed Reply)} (h : i.Wakes e now b ds j b') {f : Failure}
    (hf : .enter (.error f) ∈ ds) : (b.enter now).2 = .error f := by
  cases h with
  | rejected _ _ hanswer =>
    simp only [List.mem_singleton, Deed.enter.injEq, Except.error.injEq] at hf
    exact hf ▸ hanswer
  | idle | revoked | admitted | succeeded | failed | stopped | retried => simp at hf

/-- A breaker does not open unless a failure is recorded. -/
theorem Breaker.exists_record_of_opened {b : Breaker} (hb : b.circuit ≠ .opened) {h : History}
    (ho : (b.replay h).circuit = .opened) : ∃ now, (now, .record false) ∈ h := by
  induction h generalizing b with
  | nil => exact absurd ho hb
  | cons x h ih =>
    by_cases hx : (b.perform x.1 x.2).circuit = .opened
    · have := (openSince_of_opens hb hx).1
      exact ⟨x.1, by rw [← this]; exact List.mem_cons_self⟩
    · obtain ⟨now, hmem⟩ := ih hx ho
      exact ⟨now, List.mem_cons_of_mem _ hmem⟩

theorem Breaker.opened_of_enter {b : Breaker} {now : Span} {f : Failure}
    (h : (b.enter now).2 = .error f) : b.circuit = .opened := by
  by_contra hb
  rw [enter_of_ne_opened (by rwa [refresh_of_ne_opened hb])] at h
  cases h

/-- Who a note is about, if it is about a call. -/
def Note.author? : Note → Option Nat
  | .assigned author _ _ => author
  | .did _ _ x => x.author

theorem deedsOf_entries_of_others {k : Nat} {l : List Note} (h : ∀ n ∈ l, n.author? ≠ some k) :
    deedsOf k (entries l) = [] := by
  rw [deedsOf, List.filterMap_eq_nil_iff]
  intro x hx
  obtain ⟨n, hn, hnx⟩ := List.mem_filterMap.mp hx
  cases n with
  | assigned => cases hnx
  | did e id y =>
    cases hnx
    exact if_neg (h _ hn)

theorem deedsOf_entries_did (k : Nat) (e : Endpoint) (id : BreakerId) (now : Span)
    (ds : List (Deed Reply)) :
    deedsOf k (entries (ds.map fun d ↦ .did e id ⟨now, some k, d⟩)) = ds := by
  have : entries (ds.map fun d ↦ .did e id ⟨now, some k, d⟩) = ds.map (⟨now, some k, ·⟩) := by
    simp [entries, List.filterMap_map]
  rw [this, deedsOf_map, if_pos rfl]

/-- What the chronicle tells of call `k`, and how far that has come. -/
structure Told (thresholds : Thresholds) (k : Nat) (x : Option Errand) (l : List Note) : Prop where
  /-- It is assigned one breaker. -/
  unique {e e' : Endpoint} {id id' : BreakerId} : .assigned (some k) e id ∈ l →
    .assigned (some k) e' id' ∈ l → e = e' ∧ id = id'
  /-- All that it does it does there. -/
  own {e : Endpoint} {id : BreakerId} {y : Entry Reply} : .did e id y ∈ l → y.author = some k →
    .assigned (some k) e id ∈ l
  before : (x = none ∨ ∃ a, x = some (.coming a)) → ∀ n ∈ l, n.author? ≠ some k
  underway {call : Call} {e : Endpoint} {id : BreakerId} {i : Invocation Reply} :
    x = some (.underway call e id i) → .assigned (some k) e id ∈ l ∧
      Conforms i.terms (Breaker.new thresholds e).rejection (deedsOf k (entries l)) i.stage
  settled : Settled x (deedsOf k (entries l))

namespace Told

variable {thresholds : Thresholds} {k : Nat} {x : Option Errand} {l ns : List Note}

theorem nil (thresholds : Thresholds) (k : Nat) : Told thresholds k none [] where
  unique := by simp
  own := by simp
  before := by simp
  underway h := by cases h
  settled := .nil none

/-- What is told of others says nothing of this call. -/
theorem append_others (h : Told thresholds k x l) (hns : ∀ n ∈ ns, n.author? ≠ some k) :
    Told thresholds k x (l ++ ns) := by
  have hold {n : Note} (hn : n ∈ l ++ ns) (hauthor : n.author? = some k) : n ∈ l :=
    (List.mem_append.mp hn).resolve_right fun hn ↦ hns n hn hauthor
  have hdeeds : deedsOf k (entries (l ++ ns)) = deedsOf k (entries l) := by
    rw [entries_append, deedsOf_append, deedsOf_entries_of_others hns, List.append_nil]
  refine ⟨fun ha ha' ↦ h.unique (hold ha rfl) (hold ha' rfl),
    fun hd hauthor ↦ List.mem_append_left _ (h.own (hold hd hauthor) hauthor),
    fun hx n hn ↦ ?_, fun hx ↦ ?_, by rw [hdeeds]; exact h.settled⟩
  · exact (List.mem_append.mp hn).elim (h.before hx n) (hns n)
  · rw [hdeeds]
    exact ⟨List.mem_append_left _ (h.underway hx).1, (h.underway hx).2⟩

/-- A call is assigned its breaker. -/
theorem assign {e : Endpoint} {id : BreakerId} {y : Errand}
    (hbefore : ∀ n ∈ l, n.author? ≠ some k) (hy : ∀ a, y ≠ .coming a)
    (hunderway : ∀ {call e' id' i}, y = .underway call e' id' i → e' = e ∧ id' = id ∧
      Conforms i.terms (Breaker.new thresholds e).rejection [] i.stage) :
    Told thresholds k (some y) (l ++ [.assigned (some k) e id]) := by
  have hdeeds : deedsOf k (entries (l ++ [.assigned (some k) e id])) = [] := by
    rw [entries_append, deedsOf_append, deedsOf_entries_of_others hbefore]
    rfl
  have honly {e' : Endpoint} {id' : BreakerId}
      (ha : .assigned (some k) e' id' ∈ l ++ [Note.assigned (some k) e id]) : id' = id ∧ e' = e :=
    (mem_append_assigned ha).resolve_left fun ha ↦ hbefore _ ha rfl
  refine ⟨fun ha ha' ↦ ?_, fun {e' id' y} hd hauthor ↦ ?_, fun hx ↦ ?_, fun hx ↦ ?_, ?_⟩
  · obtain ⟨rfl, rfl⟩ := honly ha
    obtain ⟨rfl, rfl⟩ := honly ha'
    exact ⟨rfl, rfl⟩
  · exact absurd hauthor (hbefore (.did e' id' y) (by simpa using hd))
  · simp [hy] at hx
  · obtain ⟨rfl, rfl, hconforms⟩ := hunderway (Option.some.inj hx)
    exact ⟨by simp, by rwa [hdeeds]⟩
  · rw [hdeeds]
    exact .nil _

/-- A call acts on the breaker that it was assigned. -/
theorem act (h : Told thresholds k x l) {e : Endpoint} {id : BreakerId} {y : Errand}
    (ha : .assigned (some k) e id ∈ l) (now : Span) {ds : List (Deed Reply)}
    (hy : ∀ a, y ≠ .coming a)
    (hunderway : ∀ {call e' id' i}, y = .underway call e' id' i → e' = e ∧ id' = id ∧
      Conforms i.terms (Breaker.new thresholds e).rejection (deedsOf k (entries l) ++ ds) i.stage)
    (hsettled : Settled (some y) (deedsOf k (entries l) ++ ds)) :
    Told thresholds k (some y) (l ++ ds.map fun d ↦ .did e id ⟨now, some k, d⟩) := by
  have hdeeds : deedsOf k (entries (l ++ ds.map fun d ↦ .did e id ⟨now, some k, d⟩)) =
      deedsOf k (entries l) ++ ds := by
    rw [entries_append, deedsOf_append, deedsOf_entries_did]
  have hassigned {a : Option Nat} {e' : Endpoint} {id' : BreakerId}
      (ha : .assigned a e' id' ∈ l ++ ds.map fun d ↦ Note.did e id ⟨now, some k, d⟩) :
      .assigned a e' id' ∈ l := by simpa using ha
  refine ⟨fun ha ha' ↦ h.unique (hassigned ha) (hassigned ha'), fun hd hauthor ↦ ?_, fun hx ↦ ?_,
    fun hx ↦ ?_, by rwa [hdeeds]⟩
  · rcases List.mem_append.mp hd with hd | hd
    · exact List.mem_append_left _ (h.own hd hauthor)
    · obtain ⟨d, -, hd⟩ := List.mem_map.mp hd
      cases hd
      exact List.mem_append_left _ ha
  · simp [hy] at hx
  · obtain ⟨rfl, rfl, hconforms⟩ := hunderway (Option.some.inj hx)
    exact ⟨List.mem_append_left _ ha, by rwa [hdeeds]⟩

/-- A call that was not routed has done nothing. -/
theorem ended {a : Arrival} (h : Told thresholds k (some (.coming a)) l) (t : Span)
    (r : Except Failure Reply) : Told thresholds k (some (.ended t r)) l := by
  have hdeeds : deedsOf k (entries l) = [] := deedsOf_entries_of_others (h.before (.inr ⟨a, rfl⟩))
  exact ⟨h.unique, h.own, by simp, by simp, hdeeds ▸ .nil _⟩

/-- Whatever happens to a call when it goes on, the chronicle tells. -/
theorem resumes {settings : Settings} {now : Span} {revoked : Bool} {effort : Effort Reply}
    {y z : Errand} {s s' : Traffic} (h : Told settings.thresholds k (some y) l)
    (hlive : y.Live)
    (hrejection : ∀ {a e id}, .assigned a e id ∈ l →
      (s.bank.breaker id).rejection = (Breaker.new settings.thresholds e).rejection)
    (hres : Errand.Resumes settings now revoked effort k y s z s' ns) :
    Told settings.thresholds k (some z) (l ++ ns) := by
  cases hres with
  | refused =>
    rw [List.append_nil]
    exact h.ended ..
  | still =>
    rw [List.append_nil]
    exact h
  | withdrawn => exact assign (h.before (.inr ⟨_, rfl⟩)) (by simp) (by simp)
  | departed =>
    refine assign (h.before (.inr ⟨_, rfl⟩)) (by simp) fun hy ↦ ?_
    cases hy
    exact ⟨rfl, rfl, [], rfl, rfl, by simp, settings.backoff.attempts_pos⟩
  | @continued call e id i j s b ds hwakes hnone =>
    obtain ⟨ha, hconforms⟩ := h.underway rfl
    cases revoked with
    | true => simp [(Errand.Resumes.result?_of_revoked hlive.1 hwakes).2.2] at hnone
    | false =>
      have hrevoked : i.revoked now = false := by simp [Invocation.revoked, hlive.2]
      rw [← hrejection ha] at hconforms
      have hwakes : i.Wakes effort now (s.bank.breaker id) ds j b := hwakes
      have hwake := hconforms.wake hwakes hrevoked
      rw [hrejection ha, ← hwakes.fixed.1] at hwake
      refine h.act ha now (by simp) (fun hy ↦ ?_) (hwake.settled (by simp))
      cases hy
      exact ⟨rfl, rfl, hwake⟩
  | @concluded call e id i j s b ds t r hwakes hsome =>
    obtain ⟨ha, hconforms⟩ := h.underway rfl
    refine h.act ha now (by simp) (by simp) ?_
    cases revoked with
    | true =>
      obtain ⟨rfl, -, hcancelled⟩ := Errand.Resumes.result?_of_revoked hlive.1 hwakes
      obtain ⟨-, rfl⟩ : now = t ∧ .error cancelled = r := by simpa using hcancelled.symm.trans hsome
      rw [List.append_nil]
      refine h.settled.of_cancelled fun t' r hr ↦ ?_
      cases hr
      rfl
    | false =>
      have hrevoked : i.revoked now = false := by simp [Invocation.revoked, hlive.2]
      rw [← hrejection ha] at hconforms
      refine (hconforms.wake hwakes hrevoked).settled fun n stop o hstage ↦ ?_
      simp [Invocation.result?, hstage] at hsome

end Told

/-! ## What one event does -/

namespace Concourse

variable {settings : Settings} {w : Concourse} {l : List Note}

/-- All that an event can do to the router and the bank, and what is told of it. -/
inductive Moves (settings : Settings) (w : Concourse) : Event → Router → Bank → List Note → Prop
  | idle {x : Event} {balancer : Balancer} : x ≠ .look →
      Moves settings w x { w.router with balancer } w.bank []
  | written {c : Change} :
      Moves settings w (.change c) (w.router.apply w.connections c).1 w.bank []
  | asked {e : Endpoint} :
      Moves settings w (.ask e) w.router (w.bank.guard w.router settings.thresholds e).1
        [.assigned none e (w.bank.guard w.router settings.thresholds e).2]
  | routed {k : Nat} {revoked : Bool} {effort : Effort Reply} {a : Arrival} {r : Router}
      {cs : Connections} {e : Endpoint} : w.errands[k]? = some (.coming a) →
      w.router.route w.connections a.draws.endpoint a.call = .ok (r, cs, e) →
      Moves settings w (.resume k revoked effort) r (w.bank.guard r settings.thresholds e).1
        [.assigned (some k) e (w.bank.guard r settings.thresholds e).2]
  | acted {k : Nat} {revoked : Bool} {effort : Effort Reply} {call : Call} {e : Endpoint}
      {id : BreakerId} {i j : Invocation Reply} {b : Breaker} {ds : List (Deed Reply)} :
      w.errands[k]? = some (.underway call e id i) →
      (if revoked then i.revoke w.now else i).Wakes effort w.now (w.bank.breaker id) ds j b →
      Moves settings w (.resume k revoked effort) w.router (w.bank.setBreaker id b)
        (ds.map fun d ↦ .did e id ⟨w.now, some k, d⟩)
  | looked :
      Moves settings w .look w.router (w.bank.stats w.router w.now).1
        ((w.bank.prune w.router).guards.map (w.bank.lookNote w.now))

/-- The step of a concourse, as far as the router and the bank are concerned. -/
theorem moves (settings : Settings) (w : Concourse) (x : Event) :
    Moves settings w x (w.step settings x).router (w.step settings x).bank
      (w.notes settings x) := by
  cases x with
  | pass | create | seed | acquire | come => exact .idle (by simp)
  | change c => exact .written
  | ask e => exact .asked
  | look => exact .looked
  | release k =>
    simp only [step, notes]
    split <;> exact .idle (by simp)
  | route draw c =>
    simp only [step, notes]
    split
    · exact .idle (by simp)
    · next hroute =>
      obtain ⟨-, -, balancer, rfl⟩ := Router.eq_of_route hroute
      exact .idle (by simp)
  | resume k revoked effort =>
    cases hk : w.errands[k]? with
    | none =>
      simp only [step, notes, hk]
      exact .idle (by simp)
    | some x =>
      obtain ⟨y, s, ns, hres, hstep, rfl⟩ := step_resume hk settings revoked effort
      rw [hstep]
      generalize w.notes settings (.resume k revoked effort) = ns at hres
      cases hres with
      | refused | still => exact .idle (by simp)
      | withdrawn _ hroute | departed _ hroute => exact .routed hk hroute
      | continued hwakes | concluded hwakes => exact .acted hk hwakes

/-- Somebody consults the bank, which makes it look at the table. -/
def Consults (settings : Settings) (w : Concourse) (x : Event) : Prop :=
  x = .look ∨ ∃ author e id, .assigned author e id ∈ w.notes settings x

/-- An event does not make the bank forget this instance: if the bank is consulted the counter of the
instance is in the table, and nobody is assigned a breaker for another instance of its name. -/
structure Spares (settings : Settings) (e : Endpoint) (w : Concourse) (x : Event) : Prop where
  sees : w.Consults settings x → w.router.Sees e
  same (author : Option Nat) (e' : Endpoint) (id : BreakerId) :
    .assigned author e' id ∈ w.notes settings x → Bank.sameName e' e = true → e'.SameInstance e

theorem Spares.of_same {e e' : Endpoint} {x : Event} (h : w.Spares settings e x) (hsame : e.SameInstance e') :
    w.Spares settings e' x where
  sees hx := (h.sees hx).of_same hsame
  same author e'' id hn hname := by
    refine (h.same author e'' id hn ?_).trans hsame
    rwa [Bank.sameName, hsame.service_eq, hsame.id_eq]

/-! ## What holds of every run -/

/-- Bank and chronicle belong together, and the chronicle tells what each call has done. -/
structure Chronicled (settings : Settings) (w : Concourse) (l : List Note) : Prop where
  records : w.bank.Records settings.thresholds l
  /-- The bank does not know of a table that is still to come. -/
  generation_le : w.bank.generation ≤ w.router.generation
  live : w.Live
  told (k : Nat) : Told settings.thresholds k w.errands[k]? l

theorem chronicled_opening (settings : Settings) (balancer : Balancer) (cs : Connections) :
    (opening balancer cs).Chronicled settings [] :=
  ⟨.nil _, Nat.le_refl _, live_opening balancer cs, fun k ↦ .nil _ k⟩

/-- Nobody but the call that goes on is told of. -/
theorem author?_of_mem_notes {x : Event} {n : Note} (hn : n ∈ w.notes settings x) {k : Nat}
    (hk : n.author? = some k) : ∃ revoked effort, x = .resume k revoked effort := by
  have hmoves := w.moves settings x
  generalize (w.step settings x).router = r, (w.step settings x).bank = b,
    w.notes settings x = ns at hn hmoves
  cases hmoves with
  | idle | written => simp at hn
  | asked =>
    rw [List.mem_singleton.mp hn] at hk
    cases hk
  | routed =>
    rw [List.mem_singleton.mp hn] at hk
    cases hk
    exact ⟨_, _, rfl⟩
  | acted =>
    obtain ⟨d, -, rfl⟩ := List.mem_map.mp hn
    cases hk
    exact ⟨_, _, rfl⟩
  | looked =>
    obtain ⟨g, -, rfl⟩ := List.mem_map.mp hn
    cases hk

/-- A call is assigned the endpoint to which it is routed. -/
theorem route_of_assigned {x : Event} {k : Nat} {e : Endpoint} {id : BreakerId}
    (hn : .assigned (some k) e id ∈ w.notes settings x) :
    ∃ a r cs, w.errands[k]? = some (.coming a) ∧
      w.router.route w.connections a.draws.endpoint a.call = .ok (r, cs, e) := by
  have hmoves := w.moves settings x
  generalize (w.step settings x).router = r, (w.step settings x).bank = b,
    w.notes settings x = ns at hn hmoves
  cases hmoves with
  | idle | written | asked | acted | looked => simp [Bank.lookNote] at hn
  | routed hk hroute =>
    simp only [List.mem_singleton, Note.assigned.injEq] at hn
    obtain ⟨hk', rfl, -⟩ := hn
    cases hk'
    exact ⟨_, _, _, hk, hroute⟩

theorem lists_of_assigned {x : Event} {k : Nat} {e : Endpoint} {id : BreakerId}
    (hn : .assigned (some k) e id ∈ w.notes settings x) : w.router.Lists e := by
  obtain ⟨a, r, cs, -, hroute⟩ := route_of_assigned hn
  obtain ⟨he, -⟩ := Router.eq_of_route hroute
  exact .of_mem (Router.mem_instances_of_mem_endpoints he)

namespace Chronicled

theorem rejection_eq (h : w.Chronicled settings l) {a : Option Nat} {e : Endpoint} {id : BreakerId}
    (ha : .assigned a e id ∈ l) :
    (w.bank.breaker id).rejection = (Breaker.new settings.thresholds e).rejection := by
  rw [h.records.breaker_eq ha, Breaker.rejection_replay]

theorem told_step (h : w.Chronicled settings l) (x : Event) (k : Nat) :
    Told settings.thresholds k (w.step settings x).errands[k]? (l ++ w.notes settings x) := by
  have hstep := w.errands_step settings x k
  have hidle (hx : ∀ revoked effort, x ≠ .resume k revoked effort) :
      Told settings.thresholds k w.errands[k]? (l ++ w.notes settings x) :=
    (h.told k).append_others fun n hn hk ↦ by
      obtain ⟨revoked, effort, heq⟩ := author?_of_mem_notes hn hk
      exact hx revoked effort heq
  cases x with
  | pass | change | create | seed | acquire | release | route | look | ask =>
    rw [hstep]
    exact hidle (by simp)
  | come a =>
    have htold := hidle (by simp)
    rw [hstep]
    by_cases hk : k = w.errands.length
    · have hnone : w.errands[k]? = none := by simp [hk]
      rw [hnone] at htold
      simp only [hk, if_true] at htold ⊢
      exact ⟨htold.unique, htold.own, fun _ ↦ htold.before (.inl rfl), by simp,
        htold.settled.of_cancelled (by simp)⟩
    · simpa only [hk, if_false] using htold
  | resume m revoked effort =>
    by_cases hm : m = k
    · subst hm
      cases hy : w.errands[m]? with
      | none =>
        have htold := h.told m
        simpa [hstep, hy, notes] using htold
      | some y =>
        have htold := h.told m
        obtain ⟨z, s, ns, hres, heq, hnotes⟩ := step_resume hy settings revoked effort
        have hm : m < w.errands.length := (List.getElem?_eq_some_iff.mp hy).1
        rw [hy] at htold
        rw [heq, hnotes, List.getElem?_set_self hm]
        exact htold.resumes (h.live m y hy) h.rejection_eq hres
    · rw [hstep]
      simp only [hm, if_false]
      exact hidle (by simp [hm])

theorem records_step (h : w.Chronicled settings l) (x : Event) :
    (w.step settings x).bank.Records settings.thresholds (l ++ w.notes settings x) := by
  have hmoves := w.moves settings x
  generalize (w.step settings x).router = r, (w.step settings x).bank = b,
    w.notes settings x = ns at hmoves
  cases hmoves with
  | idle | written =>
    rw [List.append_nil]
    exact h.records
  | asked | routed => exact h.records.assign (Bank.answers h.records.apart ..) _
  | @acted k _ _ _ _ _ _ _ _ _ hk hwakes =>
    have hact := h.records.act ((h.told k).underway hk).1 _ (hwakes.replay_eq (some k))
      (hwakes.faithful (some k))
    rwa [List.map_map] at hact
  | looked => exact h.records.stats w.router w.now

theorem generation_le_step (h : w.Chronicled settings l) (x : Event) :
    (w.step settings x).bank.generation ≤ (w.step settings x).router.generation := by
  have hmoves := w.moves settings x
  generalize (w.step settings x).router = r, (w.step settings x).bank = b,
    w.notes settings x = ns at hmoves
  cases hmoves with
  | idle | acted => exact h.generation_le
  | written => exact Nat.le_trans h.generation_le (w.router.table_of_generation_eq _ _).1
  | asked | routed => exact Nat.le_of_eq (Bank.answers h.records.apart ..).generation_eq
  | looked => rw [Bank.stats_fst, Bank.generation_refreshAll, Bank.generation_prune]

theorem step (h : w.Chronicled settings l) (x : Event) :
    (w.step settings x).Chronicled settings (l ++ w.notes settings x) :=
  ⟨h.records_step x, h.generation_le_step x, h.live.step x, h.told_step x⟩

theorem run (h : w.Chronicled settings l) (es : List Event) :
    (w.run settings es).Chronicled settings (l ++ w.chronicle settings es) := by
  induction es generalizing w l with
  | nil => simpa using h
  | cons x es ih =>
    rw [run_cons, chronicle_cons, ← List.append_assoc]
    exact ih (h.step x)

/-- Whoever is assigned a breaker is given it by the bank. -/
theorem answers_of_assigned (h : w.Chronicled settings l) {x : Event} {author : Option Nat}
    {e : Endpoint} {id : BreakerId} (hn : .assigned author e id ∈ w.notes settings x) :
    ∃ balancer, (w.step settings x).router = { w.router with balancer } ∧
      w.notes settings x = [.assigned author e id] ∧
      Bank.Answers w.bank { w.router with balancer } settings.thresholds e
        (w.step settings x).bank id := by
  have hmoves := w.moves settings x
  generalize (w.step settings x).router = r, (w.step settings x).bank = b,
    w.notes settings x = ns at hn hmoves
  cases hmoves with
  | idle | written | acted | looked => simp [Bank.lookNote] at hn
  | asked =>
    simp only [List.mem_singleton, Note.assigned.injEq] at hn
    obtain ⟨rfl, rfl, rfl⟩ := hn
    exact ⟨w.router.balancer, rfl, rfl, Bank.answers h.records.apart ..⟩
  | routed _ hroute =>
    simp only [List.mem_singleton, Note.assigned.injEq] at hn
    obtain ⟨rfl, rfl, rfl⟩ := hn
    obtain ⟨-, -, balancer, rfl⟩ := Router.eq_of_route hroute
    exact ⟨balancer, rfl, rfl, Bank.answers h.records.apart ..⟩

/-- A guard was there before, and has outlived the look at the table if there was one, or it is assigned
now, and its breaker is new. -/
theorem mem_guards_cases (h : w.Chronicled settings l) {x : Event} {g : Guard}
    (hg : g ∈ (w.step settings x).bank.guards) :
    (¬ w.Consults settings x ∧ g ∈ w.bank.guards) ∨
      (w.Consults settings x ∧ g ∈ (w.bank.prune w.router).guards) ∨
      ∃ author, .assigned author g.endpoint g.breaker ∈ w.notes settings x ∧
        g.breaker = w.bank.breakers.length ∧
        (w.step settings x).bank.breaker g.breaker = .new settings.thresholds g.endpoint := by
  by_cases hx : w.Consults settings x
  · refine .inr ?_
    rcases hx with rfl | ⟨author, e, id, hn⟩
    · refine .inl ⟨.inl rfl, ?_⟩
      simpa only [Concourse.step, Bank.stats_fst, Bank.guards_refreshAll] using hg
    · obtain ⟨balancer, -, -, hans⟩ := h.answers_of_assigned hn
      rcases hans.mem_cases hg with hg | ⟨rfl, hid, hnew⟩
      · exact .inl ⟨.inr ⟨author, e, id, hn⟩, hg⟩
      · exact .inr ⟨author, hn, hid, hnew⟩
  · refine .inl ⟨hx, ?_⟩
    have hmoves := w.moves settings x
    rw [Consults] at hx
    generalize (w.step settings x).router = r, (w.step settings x).bank = b,
      w.notes settings x = ns at hg hx hmoves
    cases hmoves with
    | idle | written | acted => exact hg
    | asked | routed => simp at hx
    | looked => simp at hx

/-- A guard stays as long as nothing makes the bank forget its instance. -/
theorem mem_guards_of_spares (h : w.Chronicled settings l) {x : Event} {g : Guard}
    (hg : g ∈ w.bank.guards) (hx : w.Spares settings g.endpoint x) :
    g ∈ (w.step settings x).bank.guards := by
  by_cases hn : ∃ author e id, .assigned author e id ∈ w.notes settings x
  · obtain ⟨author, e, id, hn⟩ := hn
    obtain ⟨balancer, -, -, hans⟩ := h.answers_of_assigned hn
    exact hans.mem_of_sees hg (hx.sees (.inr ⟨author, e, id, hn⟩)) (hx.same author e id hn)
  · have hmoves := w.moves settings x
    have hsees := hx.sees
    rw [Consults] at hsees
    generalize (w.step settings x).router = r, (w.step settings x).bank = b,
      w.notes settings x = ns at hn hmoves hsees ⊢
    cases hmoves with
    | idle | written | acted => exact hg
    | asked | routed => exact absurd ⟨_, _, _, List.mem_singleton_self _⟩ hn
    | looked =>
      rw [Bank.stats_fst, Bank.guards_refreshAll]
      exact Bank.mem_prune_of_sees hg (hsees (.inl rfl))

/-- A bank that is up to date after an event has seen the table as it is. -/
theorem upToDate_step (h : w.Chronicled settings l) {x : Event}
    (heq : (w.step settings x).bank.generation = (w.step settings x).router.generation) :
    (w.step settings x).router.instances = w.router.instances ∧
      (¬ w.Consults settings x → w.bank.generation = w.router.generation) := by
  have hmoves := w.moves settings x
  rw [Consults]
  generalize (w.step settings x).router = r, (w.step settings x).bank = b,
    w.notes settings x = ns at heq hmoves ⊢
  cases hmoves with
  | idle | acted => exact ⟨rfl, fun _ ↦ heq⟩
  | asked | looked => exact ⟨rfl, by simp⟩
  | routed _ hroute =>
    obtain ⟨-, -, balancer, rfl⟩ := Router.eq_of_route hroute
    exact ⟨rfl, by simp⟩
  | written =>
    obtain ⟨hle, htable⟩ := w.router.table_of_generation_eq w.connections ‹Change›
    have hgeneration := Nat.le_antisymm (heq ▸ h.generation_le) hle
    exact ⟨by rw [Router.instances, htable hgeneration, Router.instances],
      fun _ ↦ heq.trans hgeneration⟩

/-- What is done to a breaker is done by a call that was assigned it before, or is a look. -/
theorem did_cases (h : w.Chronicled settings l) {x : Event} {e : Endpoint} {id : BreakerId}
    {y : Entry Reply} (hn : .did e id y ∈ w.notes settings x) :
    (y.author = none ∧ y.deed.looks = true) ∨
      ∃ k, y.author = some k ∧ .assigned (some k) e id ∈ l ∧
        ∀ f, y.deed = .enter (.error f) → ((w.bank.breaker id).enter y.moment).2 = .error f := by
  have hmoves := w.moves settings x
  generalize (w.step settings x).router = r, (w.step settings x).bank = b,
    w.notes settings x = ns at hn hmoves
  cases hmoves with
  | idle | written | asked | routed => simp at hn
  | looked =>
    obtain ⟨g, -, hg⟩ := List.mem_map.mp hn
    cases hg
    exact .inl ⟨rfl, rfl⟩
  | acted hk hwakes =>
    obtain ⟨d, hd, heq⟩ := List.mem_map.mp hn
    cases heq
    exact .inr ⟨_, rfl, ((h.told _).underway hk).1, fun f hf ↦ hwakes.enter_of_mem (hf ▸ hd)⟩

/-- Nobody is turned away unless a failure at the same instance was recorded before. -/
theorem exists_failure (h : w.Chronicled settings l) {author : Option Nat} {e : Endpoint}
    {id : BreakerId} (ha : .assigned author e id ∈ l) {now : Span} {f : Failure}
    (hf : ((w.bank.breaker id).enter now).2 = .error f) :
    ∃ e' z, .did e' id z ∈ l ∧ e'.SameInstance e ∧ z.deed = .record false := by
  have hopened := Breaker.opened_of_enter hf
  rw [h.records.breaker_eq ha] at hopened
  obtain ⟨t, ht⟩ := Breaker.exists_record_of_opened (by simp) hopened
  obtain ⟨z, hz, hzo⟩ := List.mem_filterMap.mp ht
  obtain ⟨e', hdid⟩ := mem_entriesAt.mp hz
  obtain ⟨author', ha'⟩ := h.records.did_assigned hdid
  refine ⟨e', z, hdid, h.records.same ha' ha, ?_⟩
  obtain ⟨moment, who, d⟩ := z
  cases d <;> simp_all [Deed.operation?]

end Chronicled

end Concourse

end Interchange
