import Interchange.Proofs.Gateway.Concourse

/-!
# Connections are opened and closed in pairs

Every connection that is open has a holder: a call under way, or somebody who has
taken hold of an endpoint.  `Tally` says that each count is what it was set to and
one for each holder, in the arithmetic of 64 bits.  Opening and closing keep it,
for that one counter and no other, and so does everything that goes on in a
concourse (`Accounted.step`), provided that nobody sets a counter while there are
holders.

A call takes its one slot when it is routed, and it gives it back in the same step
in which it comes to its end, whatever that end is.
-/

namespace Interchange

/-! ## Counting holders -/

theorem countP_set_add {α : Type*} (p : α → Bool) {l : List α} {k : Nat} {x : α}
    (h : l[k]? = some x) (y : α) :
    (l.set k y).countP p + (p x).toNat = l.countP p + (p y).toNat := by
  induction l generalizing k with
  | nil => cases h
  | cons z l ih =>
    cases k with
    | zero =>
      cases h
      simp only [List.set_cons_zero, List.countP_cons]
      cases p x <;> cases p y <;> simp
    | succ k =>
      have := ih (k := k) h
      simp only [List.set_cons_succ, List.countP_cons]
      omega

theorem countP_eraseIdx_add {α : Type*} (p : α → Bool) {l : List α} {k : Nat} {x : α}
    (h : l[k]? = some x) : (l.eraseIdx k).countP p + (p x).toNat = l.countP p := by
  induction l generalizing k with
  | nil => cases h
  | cons z l ih =>
    cases k with
    | zero =>
      cases h
      simp only [List.eraseIdx_cons_zero, List.countP_cons]
      cases p x <;> simp
    | succ k =>
      have := ih (k := k) h
      simp only [List.eraseIdx_cons_succ, List.countP_cons]
      omega

/-- Holds of an endpoint on this counter. -/
def Endpoint.isOn (id : CounterId) (e : Endpoint) : Bool := e.counter = id

/-- Each count is what it was set to and one for each holder. -/
structure Tally (cs seeds : Connections) (holders : CounterId → Nat) : Prop where
  length_eq : seeds.counts.length = cs.counts.length
  count_eq (id : CounterId) : id < cs.counts.length →
    cs.count id = seeds.count id + UInt64.ofNat (holders id)

namespace Connections

@[simp] theorem length_acquire (cs : Connections) (e : Endpoint) :
    (cs.acquire e).counts.length = cs.counts.length := cs.length_set ..

@[simp] theorem length_release (cs : Connections) (e : Endpoint) :
    (cs.release e).counts.length = cs.counts.length := cs.length_set ..

@[simp] theorem length_seed (cs : Connections) (e : Endpoint) (n : UInt64) :
    (cs.seed e n).counts.length = cs.counts.length := cs.length_set ..

end Connections

namespace Tally

variable {cs seeds : Connections} {holders holders' : CounterId → Nat} {e : Endpoint}

theorem congr (h : Tally cs seeds holders) (heq : ∀ id, holders' id = holders id) :
    Tally cs seeds holders' := by
  rwa [funext heq]

/-- One more holder. -/
theorem acquire (h : Tally cs seeds holders) (he : cs.Knows e) :
    Tally (cs.acquire e) seeds fun id ↦ holders id + (e.isOn id).toNat := by
  refine ⟨by simpa using h.length_eq, fun id hid ↦ ?_⟩
  rw [Connections.length_acquire] at hid
  by_cases hcounter : id = e.counter
  · subst hcounter
    have : (cs.acquire e).count e.counter = cs.count e.counter + 1 := Connections.active_acquire he
    rw [this, h.count_eq _ hid, UInt64.add_assoc]
    simp [Endpoint.isOn, UInt64.ofNat_add]
  · have : (cs.acquire e).count id = cs.count id := cs.count_set_of_ne hcounter _
    simp [this, h.count_eq id hid, Endpoint.isOn, Ne.symm hcounter]

/-- One holder less. -/
theorem release (h : Tally cs seeds fun id ↦ holders id + (e.isOn id).toNat) (he : cs.Knows e) :
    Tally (cs.release e) seeds holders := by
  refine ⟨by simpa using h.length_eq, fun id hid ↦ ?_⟩
  rw [Connections.length_release] at hid
  by_cases hcounter : id = e.counter
  · subst hcounter
    have : (cs.release e).count e.counter = cs.count e.counter - 1 := Connections.active_release he
    rw [this, h.count_eq _ hid]
    simp [Endpoint.isOn, UInt64.ofNat_add, ← UInt64.add_assoc]
  · have : (cs.release e).count id = cs.count id := cs.count_set_of_ne hcounter _
    simp [this, h.count_eq id hid, Endpoint.isOn, Ne.symm hcounter]

/-- A counter without holders can be set to anything. -/
theorem seed (h : Tally cs seeds holders) (hnone : holders e.counter = 0) (n : UInt64) :
    Tally (cs.seed e n) (seeds.seed e n) holders := by
  refine ⟨by simpa using h.length_eq, fun id hid ↦ ?_⟩
  rw [Connections.length_seed] at hid
  by_cases hcounter : id = e.counter
  · subst hcounter
    rw [Connections.seed, Connections.seed, Connections.count_set_self hid,
      Connections.count_set_self (h.length_eq ▸ hid), hnone]
    simp
  · rw [Connections.seed, Connections.seed, Connections.count_set_of_ne _ hcounter,
      Connections.count_set_of_ne _ hcounter, h.count_eq id hid]

/-- New counters have no holders yet. -/
theorem extend (h : Tally cs seeds holders)
    (hnone : ∀ id, cs.counts.length ≤ id → holders id = 0) (new : List UInt64) :
    Tally ⟨cs.counts ++ new⟩ ⟨seeds.counts ++ new⟩ holders := by
  refine ⟨by simpa using h.length_eq, fun id _ ↦ ?_⟩
  rcases Nat.lt_or_ge id cs.counts.length with hid | hid
  · rw [Connections.count_append hid, Connections.count_append (h.length_eq ▸ hid), h.count_eq id hid]
  · rw [hnone id hid]
    simp [Connections.count, List.getElem?_append, h.length_eq, Nat.not_lt.mpr hid]

/-- Where sums stay in range they are sums of natural numbers. -/
theorem toNat_count (h : Tally cs seeds holders) {id : CounterId} (hid : id < cs.counts.length)
    (hlt : (seeds.count id).toNat + holders id < 2 ^ 64) :
    (cs.count id).toNat = (seeds.count id).toNat + holders id := by
  have hholders : (UInt64.ofNat (holders id)).toNat = holders id :=
    UInt64.toNat_ofNat_of_lt' (Nat.lt_of_le_of_lt (Nat.le_add_left ..) hlt)
  rw [h.count_eq id hid, UInt64.toNat_add, hholders, Nat.mod_eq_of_lt hlt]

end Tally

/-! ## Holders in a concourse -/

namespace Errand

/-- The endpoint on which a call holds a connection. -/
def slot? : Errand → Option Endpoint
  | .underway _ e _ _ => some e
  | .coming _ | .ended .. => none

/-- Holds of a call that holds a connection on this counter. -/
def isOn (id : CounterId) (x : Errand) : Bool := x.slot?.any (Endpoint.isOn id)

end Errand

namespace Concourse

/-- How many connections are held on a counter. -/
def holders (w : Concourse) (id : CounterId) : Nat :=
  w.held.countP (Endpoint.isOn id) + w.errands.countP (Errand.isOn id)

/-- Every count is accounted for, and every endpoint that is held or listed exists. -/
structure Accounted (w : Concourse) : Prop where
  tally : Tally w.connections w.seeds w.holders
  held : ∀ e ∈ w.held, w.connections.Knows e
  called : ∀ x ∈ w.errands, ∀ e, x.slot? = some e → w.connections.Knows e
  listed : ∀ e ∈ w.router.instances, e.Real w.connections

/-- Endpoints are written and held only if they exist, and their counters are set only while nobody
holds them. -/
def Steady (w : Concourse) : Event → Prop
  | .change c => c.Real w.connections
  | .seed e _ => w.holders e.counter = 0
  | .acquire e => w.connections.Knows e
  | .pass _ | .create .. | .release _ | .route .. | .come _ | .resume .. | .look | .ask _ => True

theorem accounted_opening (balancer : Balancer) (cs : Connections) :
    (opening balancer cs).Accounted where
  tally := ⟨rfl, fun id _ ↦ by simp [holders, opening]⟩
  held := by simp [opening]
  called := by simp [opening]
  listed := by simp [opening, Router.instances]

namespace Accounted

variable {w : Concourse}

/-- There are no holders of counters that do not exist. -/
theorem holders_eq_zero (h : w.Accounted) {id : CounterId} (hid : w.connections.counts.length ≤ id) :
    w.holders id = 0 := by
  have hon {e : Endpoint} (he : w.connections.Knows e) : ¬ e.isOn id = true := by
    simp only [Endpoint.isOn, decide_eq_true_eq]
    exact fun heq ↦ absurd (heq ▸ he : id < _) (Nat.not_lt.mpr hid)
  rw [holders, Nat.add_eq_zero_iff, List.countP_eq_zero, List.countP_eq_zero]
  refine ⟨fun e he ↦ hon (h.held e he), fun x hx ↦ ?_⟩
  cases hslot : x.slot? with
  | none => simp [Errand.isOn, hslot]
  | some e => simpa [Errand.isOn, hslot] using hon (h.called x hx e hslot)

/-- Counts, holders and table may change together. -/
theorem of_tally {w' : Concourse} (h : w.Accounted)
    (htally : Tally w'.connections w'.seeds w'.holders)
    (hle : w.connections.counts.length ≤ w'.connections.counts.length)
    (hheld : ∀ e ∈ w'.held, e ∈ w.held ∨ w'.connections.Knows e)
    (hcalled : ∀ x ∈ w'.errands, x ∈ w.errands ∨ ∀ e, x.slot? = some e → w'.connections.Knows e)
    (hlisted : ∀ e ∈ w'.router.instances, e ∈ w.router.instances ∨ e.Real w'.connections) :
    w'.Accounted where
  tally := htally
  held e he := (hheld e he).elim (fun he ↦ Nat.lt_of_lt_of_le (h.held e he) hle) id
  called x hx e hslot :=
    (hcalled x hx).elim (fun hx ↦ Nat.lt_of_lt_of_le (h.called x hx e hslot) hle) (· e hslot)
  listed e he := (hlisted e he).elim (fun he ↦ (h.listed e he).mono hle) id

theorem knows_of_route {r : Router} {cs : Connections} {draw : Nat} {c : Call} {e : Endpoint}
    (h : w.Accounted) (hroute : w.router.route w.connections draw c = .ok (r, cs, e)) :
    w.connections.Knows e ∧ cs = w.connections.acquire e ∧ r.instances = w.router.instances := by
  obtain ⟨he, rfl, balancer, rfl⟩ := Router.eq_of_route hroute
  exact ⟨(h.listed e (Router.mem_instances_of_mem_endpoints he)).known, rfl, rfl⟩

end Accounted

section holders

variable {w w' : Concourse} {k : Nat} {x y : Errand}

theorem holders_set (hx : w.errands[k]? = some x) (hheld : w'.held = w.held)
    (herrands : w'.errands = w.errands.set k y) (id : CounterId) :
    w'.holders id + (x.isOn id).toNat = w.holders id + (y.isOn id).toNat := by
  have := countP_set_add (Errand.isOn id) hx y
  rw [holders, holders, hheld, herrands]
  omega

theorem holders_of_same (hx : w.errands[k]? = some x) (hheld : w'.held = w.held)
    (herrands : w'.errands = w.errands.set k y) (hslot : y.slot? = x.slot?) (id : CounterId) :
    w'.holders id = w.holders id := by
  have := holders_set hx hheld herrands id
  rw [Errand.isOn, Errand.isOn, hslot] at this
  omega

/-- A call takes a connection. -/
theorem holders_of_taken {e : Endpoint} (hx : w.errands[k]? = some x) (hheld : w'.held = w.held)
    (herrands : w'.errands = w.errands.set k y) (hfree : x.slot? = none) (htaken : y.slot? = some e)
    (id : CounterId) : w'.holders id = w.holders id + (e.isOn id).toNat := by
  have := holders_set hx hheld herrands id
  rwa [Errand.isOn, Errand.isOn, hfree, htaken] at this

/-- A call gives a connection back. -/
theorem holders_of_given {e : Endpoint} (hx : w.errands[k]? = some x) (hheld : w'.held = w.held)
    (herrands : w'.errands = w.errands.set k y) (htaken : x.slot? = some e) (hfree : y.slot? = none)
    (id : CounterId) : w'.holders id + (e.isOn id).toNat = w.holders id := by
  have := holders_set hx hheld herrands id
  rwa [Errand.isOn, Errand.isOn, hfree, htaken] at this

end holders

namespace Accounted

variable {w : Concourse}

/-- A call that goes on keeps the accounts. -/
theorem resume (h : w.Accounted) (settings : Settings) {k : Nat} {x : Errand}
    (hx : w.errands[k]? = some x) (revoked : Bool) (effort : Effort Reply) :
    (w.step settings (.resume k revoked effort)).Accounted := by
  have hmem : x ∈ w.errands := List.mem_of_getElem? hx
  obtain ⟨y, s, ns, hres, hstep, -⟩ := step_resume hx settings revoked effort
  rw [hstep]
  have hcalled (hy : ∀ e, y.slot? = some e → s.connections.Knows e) :
      ∀ x ∈ w.errands.set k y, x ∈ w.errands ∨ ∀ e, x.slot? = some e → s.connections.Knows e := by
    intro x hx
    rcases List.mem_or_eq_of_mem_set hx with hx | rfl
    · exact .inl hx
    · exact .inr hy
  cases hres with
  | refused | still =>
    exact h.of_tally (h.tally.congr (holders_of_same hx rfl rfl rfl)) (Nat.le_refl _)
      (fun e he ↦ .inl he) (hcalled (by simp [Errand.slot?])) fun e he ↦ .inl he
  | withdrawn _ hroute =>
    obtain ⟨hknows, rfl, hinstances⟩ := h.knows_of_route hroute
    have hknows' := hknows
    rw [Connections.Knows, ← w.connections.length_acquire] at hknows'
    have htally := (h.tally.acquire hknows).release hknows'
    exact h.of_tally (htally.congr (holders_of_same hx rfl rfl rfl)) (by simp)
      (fun e he ↦ .inl he) (hcalled (by simp [Errand.slot?])) fun e he ↦ .inl (hinstances ▸ he)
  | departed _ hroute =>
    obtain ⟨hknows, rfl, hinstances⟩ := h.knows_of_route hroute
    have htally := h.tally.acquire hknows
    refine h.of_tally (htally.congr (holders_of_taken hx rfl rfl rfl rfl)) (by simp)
      (fun e he ↦ .inl he) (hcalled ?_) fun e he ↦ .inl (hinstances ▸ he)
    rintro _ ⟨⟩
    simpa [Connections.Knows] using hknows
  | continued =>
    exact h.of_tally (h.tally.congr (holders_of_same hx rfl rfl rfl)) (Nat.le_refl _)
      (fun e he ↦ .inl he) (hcalled fun e he ↦ h.called _ hmem e he) fun e he ↦ .inl he
  | concluded =>
    refine h.of_tally (Tally.release (h.tally.congr ?_) (h.called _ hmem _ rfl)) (by simp)
      (fun e he ↦ .inl he) (hcalled (by simp [Errand.slot?])) fun e he ↦ .inl he
    exact holders_of_given hx rfl rfl rfl rfl

/-- Somebody takes hold of an endpoint. -/
theorem hold {e : Endpoint} (h : w.Accounted) (he : w.connections.Knows e) {r : Router}
    (hr : r.instances = w.router.instances) :
    { w with
      router := r
      connections := w.connections.acquire e
      held := w.held ++ [e] : Concourse }.Accounted := by
  refine h.of_tally ((h.tally.acquire he).congr fun id ↦ ?_) (by simp) (fun x hx ↦ ?_)
    (fun y hy ↦ .inl hy) fun x hx ↦ .inl (hr ▸ hx)
  · have hone : [e].countP (Endpoint.isOn id) = (e.isOn id).toNat := by
      cases hon : e.isOn id <;> simp [hon]
    simp only [holders, List.countP_append, hone]
    omega
  · rcases List.mem_append.mp hx with hx | hx
    · exact .inl hx
    · rw [List.mem_singleton.mp hx]
      exact .inr (by simpa [Connections.Knows] using he)

/-- Every event keeps the accounts. -/
theorem step (h : w.Accounted) (settings : Settings) {x : Event} (hx : w.Steady x) :
    (w.step settings x).Accounted := by
  cases x with
  | pass | look | ask => exact ⟨h.tally, h.held, h.called, h.listed⟩
  | resume k revoked effort =>
    cases hk : w.errands[k]? with
    | none => simpa only [Concourse.step, hk] using h
    | some y => exact h.resume settings hk revoked effort
  | come a =>
    refine h.of_tally (h.tally.congr fun id ↦ ?_) (Nat.le_refl _) (fun e he ↦ .inl he)
      (fun y hy ↦ ?_) fun e he ↦ .inl he
    · simp [holders, Concourse.step, Errand.isOn, Errand.slot?]
    · rcases List.mem_append.mp hy with hy | hy
      · exact .inl hy
      · exact .inr (by simp [List.mem_singleton.mp hy, Errand.slot?])
  | change c =>
    have happly (cs : Connections) :
        (w.router.apply cs c).2 = ⟨cs.counts ++ List.replicate c.extent 0⟩ :=
      congrArg Connections.mk (Router.counts_apply ..)
    refine h.of_tally ?_ (Router.length_counts_le_apply ..) (fun e he ↦ .inl he)
      (fun y hy ↦ .inl hy) fun e he ↦ .inr (Router.real_apply h.listed hx e he)
    have := h.tally.extend (fun id hid ↦ h.holders_eq_zero hid) (List.replicate c.extent 0)
    rwa [← happly, ← happly] at this
  | create r n =>
    refine h.of_tally ?_ (by simp [Concourse.step, Connections.register]) (fun e he ↦ .inl he)
      (fun y hy ↦ .inl hy) fun e he ↦ .inl he
    exact h.tally.extend (fun id hid ↦ h.holders_eq_zero hid) [n]
  | seed e n =>
    exact h.of_tally (h.tally.seed hx n) (by simp [Concourse.step]) (fun e he ↦ .inl he)
      (fun y hy ↦ .inl hy) fun e he ↦ .inl he
  | acquire e => exact h.hold hx rfl
  | route draw c =>
    cases hroute : w.router.route w.connections draw c with
    | error f => simpa only [Concourse.step, hroute] using h
    | ok out =>
      obtain ⟨r, cs, e⟩ := out
      obtain ⟨hknows, rfl, hinstances⟩ := h.knows_of_route hroute
      simpa only [Concourse.step, hroute] using h.hold hknows hinstances
  | release k =>
    cases hk : w.held[k]? with
    | none => simpa only [Concourse.step, hk] using h
    | some e =>
      simp only [Concourse.step, hk]
      refine h.of_tally (Tally.release (h.tally.congr fun id ↦ ?_) ?_) (by simp)
        (fun x hx ↦ .inl (List.mem_of_mem_eraseIdx hx)) (fun y hy ↦ .inl hy) fun x hx ↦ .inl hx
      · have := countP_eraseIdx_add (Endpoint.isOn id) hk
        simp only [holders]
        omega
      · exact h.held e (List.mem_of_getElem? hk)

theorem run (h : w.Accounted) {settings : Settings} {es : List Event}
    (hes : w.Along settings Steady es) : (w.run settings es).Accounted := by
  induction es generalizing w with
  | nil => exact h
  | cons x es ih => exact ih (h.step settings hes.1) hes.2

end Accounted

end Concourse

/-! ## The course of a slot -/

/-- What can become of a call. Under way it stays with its endpoint and its breaker until it ends. -/
inductive Errand.Onward : Errand → Errand → Prop
  | coming (a : Arrival) (y : Errand) : Onward (.coming a) y
  | underway (call : Call) (e : Endpoint) (id : BreakerId) (i j : Invocation Reply) :
      Onward (.underway call e id i) (.underway call e id j)
  | concluded (call : Call) (e : Endpoint) (id : BreakerId) (i : Invocation Reply) (t : Span)
      (r : Except Failure Reply) : Onward (.underway call e id i) (.ended t r)
  | ended (t : Span) (r : Except Failure Reply) : Onward (.ended t r) (.ended t r)

namespace Errand.Onward

@[refl] theorem refl (x : Errand) : x.Onward x := by
  cases x with
  | coming a => exact .coming a _
  | underway call e id i => exact .underway call e id i i
  | ended t r => exact .ended t r

theorem trans {x y z : Errand} (h : x.Onward y) (h' : y.Onward z) : x.Onward z := by
  cases h with
  | coming a => exact .coming a z
  | underway call e id i j =>
    cases h' with
    | underway _ _ _ _ k => exact .underway call e id i k
    | concluded _ _ _ _ t r => exact .concluded call e id i t r
  | concluded call e id i t r =>
    cases h'
    exact .concluded call e id i t r
  | ended t r => exact h'

end Errand.Onward

section resumes

variable {settings : Settings} {now : Span} {revoked : Bool} {effort : Effort Reply} {k : Nat}
  {x y : Errand} {s s' : Traffic} {ns : List Note}

theorem Errand.Resumes.onward (h : Resumes settings now revoked effort k x s y s' ns) :
    x.Onward y := by
  cases h with
  | refused | withdrawn | departed => exact .coming ..
  | continued => exact .underway ..
  | concluded => exact .concluded ..
  | still => exact .ended ..

theorem Errand.Resumes.length_eq (h : Resumes settings now revoked effort k x s y s' ns) :
    s'.connections.counts.length = s.connections.counts.length := by
  cases h with
  | refused | continued | still => rfl
  | concluded => simp
  | withdrawn _ hroute | departed _ hroute =>
    obtain ⟨-, rfl, -⟩ := Router.eq_of_route hroute
    simp

end resumes

namespace Concourse

variable {settings : Settings}

theorem onward_step (settings : Settings) {w : Concourse} {k : Nat} {x : Errand}
    (h : w.errands[k]? = some x) (v : Event) :
    ∃ y, (w.step settings v).errands[k]? = some y ∧ x.Onward y := by
  have hk : k ≠ w.errands.length := Nat.ne_of_lt (List.getElem?_eq_some_iff.mp h).1
  have hstep := w.errands_step settings v k
  cases v with
  | come a => exact ⟨x, by simpa [hk, h] using hstep, .refl x⟩
  | resume m revoked effort =>
    by_cases hm : m = k
    · have hresumes := x.resumes settings w.now revoked effort k w.toTraffic
      exact ⟨_, by simpa [hm, h] using hstep, hresumes.onward⟩
    · exact ⟨x, by simpa [hm, h] using hstep, .refl x⟩
  | pass | change | create | seed | acquire | release | route | look | ask =>
    exact ⟨x, hstep.trans h, .refl x⟩

theorem onward_run (settings : Settings) {w : Concourse} {k : Nat} {x : Errand}
    (h : w.errands[k]? = some x) (es : List Event) : ∃ y, (w.run settings es).errands[k]? = some y ∧ x.Onward y := by
  induction es generalizing w x with
  | nil => exact ⟨x, h, .refl x⟩
  | cons v es ih =>
    obtain ⟨y, hy, hxy⟩ := onward_step settings h v
    obtain ⟨z, hz, hyz⟩ := ih hy
    exact ⟨z, hz, hxy.trans hyz⟩

theorem length_le_step (w : Concourse) (x : Event) :
    w.connections.counts.length ≤ (w.step settings x).connections.counts.length := by
  cases x with
  | pass | come | look | ask => exact Nat.le_refl _
  | change c => exact Router.length_counts_le_apply ..
  | create | seed | acquire => simp [step, Connections.register]
  | release k => simp only [step]; split <;> simp
  | route draw c =>
    simp only [step]
    split
    · exact Nat.le_refl _
    · next hroute =>
      obtain ⟨-, rfl, -⟩ := Router.eq_of_route hroute
      simp
  | resume k revoked effort =>
    cases hk : w.errands[k]? with
    | none => simp [step, hk]
    | some x =>
      obtain ⟨y, s, ns, hres, hstep, -⟩ := step_resume hk settings revoked effort
      rw [hstep]
      exact Nat.le_of_eq hres.length_eq.symm

/-- A call that is routed is under way from then on, at the endpoint to which it was routed. -/
theorem underway_of_route {w : Concourse} {k : Nat} {a : Arrival} {r : Router} {cs : Connections}
    {e : Endpoint} (h : w.errands[k]? = some (.coming a))
    (hroute : w.router.route w.connections a.draws.endpoint a.call = .ok (r, cs, e))
    (effort : Effort Reply) :
    ∃ id i, (w.step settings (.resume k false effort)).errands[k]? =
      some (.underway a.call e id i) := by
  obtain ⟨y, s, ns, hres, hstep, -⟩ := step_resume h settings false effort
  rw [hstep, List.getElem?_set_self (List.getElem?_eq_some_iff.mp h).1]
  cases hres with
  | refused hrefused => cases hroute.symm.trans hrefused
  | withdrawn hrevoked => cases hrevoked
  | departed _ hroute' =>
    cases hroute.symm.trans hroute'
    exact ⟨_, _, rfl⟩

/-- The connections of a gateway at work, after these events. -/
structure Balanced (settings : Settings) (w₀ : Concourse) (es : List Event) : Prop where
  /-- Each count is what it was set to last and one for each holder, in 64 bits. -/
  count_eq : ∀ id, id < (w₀.run settings es).connections.counts.length →
    (w₀.run settings es).connections.count id =
      (w₀.run settings es).seeds.count id + UInt64.ofNat ((w₀.run settings es).holders id)
  /-- As long as 64 bits are enough, it is so in natural numbers. -/
  toNat_count : ∀ id, id < (w₀.run settings es).connections.counts.length →
    ((w₀.run settings es).seeds.count id).toNat + (w₀.run settings es).holders id < 2 ^ 64 →
      ((w₀.run settings es).connections.count id).toNat =
        ((w₀.run settings es).seeds.count id).toNat + (w₀.run settings es).holders id
  /-- No event changes a count unless it changes the holders of that counter or sets it. -/
  untouched : ∀ x, (w₀.run settings es).Steady x →
    ∀ id, id < (w₀.run settings es).connections.counts.length →
      ((w₀.run settings es).step settings x).seeds.count id =
        (w₀.run settings es).seeds.count id →
      ((w₀.run settings es).step settings x).holders id = (w₀.run settings es).holders id →
        ((w₀.run settings es).step settings x).connections.count id =
          (w₀.run settings es).connections.count id
  /-- A call that is routed holds a connection of the endpoint to which it was routed. -/
  departs : ∀ (k : Nat) a effort r cs e, (w₀.run settings es).errands[k]? = some (.coming a) →
    (w₀.run settings es).router.route (w₀.run settings es).connections a.draws.endpoint a.call =
        .ok (r, cs, e) →
      ∃ id i, ((w₀.run settings es).step settings (.resume k false effort)).errands[k]? =
        some (.underway a.call e id i)
  /-- It does so until it ends, and goes nowhere else, and what has ended stays so. -/
  onward : ∀ es₁ es₂, es = es₁ ++ es₂ → ∀ (k : Nat) (x : Errand),
    (w₀.run settings es₁).errands[k]? = some x →
      ∃ y, (w₀.run settings es).errands[k]? = some y ∧ x.Onward y
  /-- While it does so its invocation has not ended. -/
  waits : ∀ (k : Nat) call e id i,
    (w₀.run settings es).errands[k]? = some (.underway call e id i) → i.result? = none

/-- The connections of a gateway at work are accounted for, if its endpoints exist and nobody sets a
counter while there are holders. -/
theorem slots_accounted (settings : Settings) (balancer : Balancer) (cs : Connections)
    (es : List Event) (hes : (opening balancer cs).Along settings Steady es) :
    (opening balancer cs).Balanced settings es := by
  have hw : ((opening balancer cs).run settings es).Accounted :=
    (accounted_opening balancer cs).run hes
  refine
    { count_eq := fun id hid ↦ hw.tally.count_eq id hid
      toNat_count := fun id hid ↦ hw.tally.toNat_count hid
      untouched := fun x hx id hid hseeds hholders ↦ ?_
      departs := fun k a effort r cs' e h hroute ↦ underway_of_route h hroute effort
      onward := ?_
      waits := fun k call e id i h ↦ ((live_opening balancer cs).run es k _ h).1 }
  · have hstep := (hw.step settings hx).tally
    rw [hstep.count_eq id (Nat.lt_of_lt_of_le hid (length_le_step _ x)), hseeds, hholders,
      hw.tally.count_eq id hid]
  · rintro es₁ es₂ rfl k x h
    obtain ⟨y, hy, hxy⟩ := onward_run settings h es₂
    exact ⟨y, by rwa [← run_append] at hy, hxy⟩

/-- An endpoint is removed while a call to it waits for its answer, and somebody else holds it. -/
theorem slots_accounted_after_removal :
    let a : Endpoint := { service := "s", id := "a", address := "h", port := 1, counter := 0 }
    let c : Call := { service := "s", method := "m", payload := [], traceId := ⟨"t", by decide⟩ }
    let effort : Effort Reply := { outcome := .error cancelled }
    let es : List Event :=
      [.create a.toRegistration 3, .change (.add "s" a), .come { moment := 0, call := c },
        .resume 0 false effort, .acquire a, .resume 0 false effort, .change (.remove "s" "a")]
    let w := (opening ⟨.roundRobin, []⟩ {}).run {} es
    (opening ⟨.roundRobin, []⟩ {}).Along {} Steady es ∧
      w.seeds.count 0 = 3 ∧ w.holders 0 = 2 ∧ (w.connections.count 0).toNat = 5 := by
  intro a c effort es w
  have hes : (opening ⟨.roundRobin, []⟩ {}).Along {} Steady es :=
    ⟨trivial, (by decide : a.Real ⟨[3]⟩), trivial, trivial, (by decide : Connections.Knows ⟨[4]⟩ a),
      trivial, trivial, trivial⟩
  have hseeds : w.seeds.count 0 = 3 := by decide
  have hholders : w.holders 0 = 2 := by decide
  have hcount := (slots_accounted {} ⟨.roundRobin, []⟩ {} es hes).toNat_count 0 (by decide)
  refine ⟨hes, hseeds, hholders, (hcount ?_).trans ?_⟩
  · rw [hseeds, hholders]
    decide
  · rw [hseeds, hholders]
    rfl

/-- A counter that was set to the last number that there is starts again from zero. -/
theorem slots_overflow :
    let a : Endpoint := { service := "s", id := "a", address := "h", port := 1, counter := 0 }
    let es : List Event := [.create a.toRegistration (-1), .acquire a]
    let w := (opening ⟨.roundRobin, []⟩ {}).run {} es
    (opening ⟨.roundRobin, []⟩ {}).Along {} Steady es ∧ w.holders 0 < 2 ^ 64 ∧
      (w.connections.count 0).toNat < (w.seeds.count 0).toNat ∧
      (w.connections.count 0).toNat ≠ (w.seeds.count 0).toNat + w.holders 0 := by
  intro a es w
  exact ⟨⟨trivial, (by decide : Connections.Knows ⟨[-1]⟩ a), trivial⟩, by decide, by decide,
    by decide⟩

end Concourse

end Interchange
