import Interchange.Proofs.Protocol.Acceptance

/-!
# Answers as they leave

Three adapters write answers in three ways, and of what they write two things hold
alike.  Whatever leaves has been finished: it is of the protocol that was asked
for, it has the pattern of the answer, and the answer's trace id stands among its
headers, in place of any that the answer has there itself (`Outbound.Finishes`).  And
the report of a failure leaves if it can be written (`Adapter.exists_render`): an
adapter can refuse a payload, but a failure is told without one.  Only a REST adapter
with a codec of its own may be unable to write it (`Adapter.Writes`).

In a set of adapters each protocol has an adapter that handles it
(`Adapters.Sound`), so both hold of a set as well.
-/

namespace Interchange

namespace Reply

/-- The trace id of an answer stands among the headers of what leaves. -/
theorem trace_finish {r : Reply} {id : String} (h : r.traceId = some id) (m : Outbound) :
    (r.finish m).headers.get? Headers.trace = some id := by
  simp [finish, h]

theorem target_of_asked (r : Reply) (m : Inbound) : r.target (some m) = .ok m.protocol := rfl

end Reply

/-- A message that has been finished for an answer, in the protocol in which that is written. -/
def Outbound.Finishes (out : Outbound) (r : Reply) (asked : Option Inbound) : Prop :=
  ∃ m, r.target asked = .ok m.protocol ∧ out = r.finish m

namespace Outbound.Finishes

variable {out : Outbound} {r : Reply} {asked : Option Inbound}

theorem pattern_eq (h : out.Finishes r asked) : out.pattern = r.pattern := by
  obtain ⟨m, -, rfl⟩ := h
  rfl

theorem trace_eq (h : out.Finishes r asked) {id : String} (hid : r.traceId = some id) :
    out.headers.get? Headers.trace = some id := by
  obtain ⟨m, -, rfl⟩ := h
  exact Reply.trace_finish hid m

end Outbound.Finishes

/-! ## The adapters one by one -/

namespace Rest

variable {a : Rest} {r : Reply} {asked : Option Inbound} {out : Outbound}

/-- A message that holds a value holds what the codec makes of it. -/
theorem holding_eq_ok_iff {status : Nat} {value : Json} {m : Outbound} :
    a.holding status value = .ok m ↔ ∃ body, a.codec.encode value = .ok body ∧
      m = Outbound.withHeader { protocol := .rest, status, body } Headers.contentType
        a.codec.contentType := by
  constructor
  · intro h
    obtain ⟨body, hbody, h⟩ := bind_eq_ok.mp h
    exact ⟨body, hbody, (Except.ok.inj h).symm⟩
  · rintro ⟨body, hbody, rfl⟩
    exact bind_eq_ok.mpr ⟨body, hbody, rfl⟩

theorem protocol_of_holding {status : Nat} {value : Json} {m : Outbound}
    (h : a.holding status value = .ok m) : m.protocol = .rest := by
  obtain ⟨body, -, rfl⟩ := holding_eq_ok_iff.mp h
  rfl

theorem protocol_of_content {verb : String} {m : Outbound} (h : a.content r verb = .ok m) :
    m.protocol = .rest := by
  unfold content at h
  split at h
  · exact protocol_of_holding h
  · split at h
    · cases h; rfl
    split at h
    · cases h; rfl
    split at h
    · cases h; rfl
    obtain ⟨value, -, h⟩ := bind_eq_ok.mp h
    split at h
    · cases h; rfl
    · exact protocol_of_holding h

/-- What leaves is the content that was made, with a note of the verb, and finished. -/
theorem render_eq_ok_iff : a.render r asked = .ok out ↔ r.target asked = .ok .rest ∧
    ∃ x, a.content r (verbOf r asked) = .ok x ∧
      out = r.finish (x.withMetadata Metadata.httpMethod (.string (verbOf r asked))) := by
  constructor
  · intro h
    obtain ⟨p, htarget, h⟩ := bind_eq_ok.mp h
    obtain ⟨⟨⟩, hp, h⟩ := bind_eq_ok.mp h
    obtain ⟨x, hx, h⟩ := bind_eq_ok.mp h
    cases h
    have hrest : p = .rest := List.mem_singleton.mp (requireProtocol_eq_ok.mp hp)
    exact ⟨hrest ▸ htarget, x, hx, rfl⟩
  · rintro ⟨htarget, x, hx, rfl⟩
    have hrest : requireProtocol protocols .rest = .ok () := rfl
    exact bind_eq_ok.mpr ⟨_, htarget, bind_eq_ok.mpr ⟨_, hrest, bind_eq_ok.mpr ⟨_, hx, rfl⟩⟩⟩

/-- Status and body leave as they are. -/
theorem content_of_render (h : a.render r asked = .ok out) :
    ∃ x, a.content r (verbOf r asked) = .ok x ∧ out.status = x.status ∧ out.body = x.body := by
  obtain ⟨-, x, hx, rfl⟩ := render_eq_ok_iff.mp h
  exact ⟨x, hx, rfl, rfl⟩

theorem finishes (h : a.render r asked = .ok out) : out.Finishes r asked := by
  obtain ⟨htarget, x, hx, rfl⟩ := render_eq_ok_iff.mp h
  refine ⟨_, ?_, rfl⟩
  rw [htarget, ← protocol_of_content hx]
  rfl

/-- The value that reports a failure. -/
def failureValue (f : Failure) : Json := .ofMembers [("error", f.toJson)]

theorem content_of_failure {f : Failure} (hf : r.failure? = some f) (verb : String) :
    a.content r verb = a.holding f.code.httpStatus (failureValue f) := by
  rw [content, hf]
  rfl

theorem exists_render {f : Failure} {p : Protocol} (htarget : r.target asked = .ok p)
    (hp : p ∈ protocols) (hf : r.failure? = some f)
    (hwrites : ∃ body, a.codec.encode (failureValue f) = .ok body) :
    ∃ out, a.render r asked = .ok out := by
  obtain rfl : p = .rest := List.mem_singleton.mp hp
  obtain ⟨body, hbody⟩ := hwrites
  have hcontent := (content_of_failure hf (verbOf r asked)).trans
    (holding_eq_ok_iff.mpr ⟨body, hbody, rfl⟩)
  exact ⟨_, render_eq_ok_iff.mpr ⟨htarget, _, hcontent, rfl⟩⟩

end Rest

/-- A message on a topic, if there is one. -/
def Outbound.onTopic (m : Outbound) (topic : Option Json) : Outbound :=
  topic.elim m (m.withMetadata Metadata.topic)

namespace Envelope

variable {a : Envelope} {r : Reply} {asked : Option Inbound} {out : Outbound}

theorem protocol_of_content {p : Protocol} {m : Outbound} (h : content p r = .ok m) :
    m.protocol = p := by
  unfold content at h
  split at h
  · cases h; rfl
  · obtain ⟨framing, -, h⟩ := bind_eq_ok.mp h
    cases h
    rfl

/-- What leaves is the content that was made, on the topic that is noted, and finished. -/
theorem render_eq_ok_iff : a.render r asked = .ok out ↔ ∃ p ∈ protocols, r.target asked = .ok p ∧
    ∃ x, content p r = .ok x ∧ out = r.finish (x.onTopic (r.metadata.get? Metadata.topic)) := by
  constructor
  · intro h
    obtain ⟨p, htarget, h⟩ := bind_eq_ok.mp h
    obtain ⟨⟨⟩, hp, h⟩ := bind_eq_ok.mp h
    obtain ⟨x, hx, h⟩ := bind_eq_ok.mp h
    cases h
    refine ⟨p, requireProtocol_eq_ok.mp hp, htarget, x, hx, ?_⟩
    cases r.metadata.get? Metadata.topic <;> rfl
  · rintro ⟨p, hp, htarget, x, hx, rfl⟩
    have hprotocol : requireProtocol protocols p = .ok () := requireProtocol_eq_ok.mpr hp
    refine bind_eq_ok.mpr ⟨p, htarget, bind_eq_ok.mpr ⟨(), hprotocol, bind_eq_ok.mpr ⟨x, hx, ?_⟩⟩⟩
    cases r.metadata.get? Metadata.topic <;> rfl

/-- Status, body and framing leave as they are. -/
theorem content_of_render (h : a.render r asked = .ok out) :
    ∃ p x, r.target asked = .ok p ∧ p ∈ protocols ∧ content p r = .ok x ∧ out.status = x.status ∧
      out.body = x.body ∧ out.metadata.get? Metadata.framing = x.metadata.get? Metadata.framing := by
  obtain ⟨p, hp, htarget, x, hx, rfl⟩ := render_eq_ok_iff.mp h
  refine ⟨p, x, htarget, hp, hx, ?_⟩
  cases r.metadata.get? Metadata.topic with
  | none => exact ⟨rfl, rfl, rfl⟩
  | some topic => exact ⟨rfl, rfl, Dictionary.get?_insert_of_ne (by decide) ..⟩

theorem finishes (h : a.render r asked = .ok out) : out.Finishes r asked := by
  obtain ⟨p, -, htarget, x, hx, rfl⟩ := render_eq_ok_iff.mp h
  refine ⟨_, ?_, rfl⟩
  rw [htarget, ← protocol_of_content hx]
  cases r.metadata.get? Metadata.topic <;> rfl

theorem exists_render {f : Failure} {p : Protocol} (htarget : r.target asked = .ok p)
    (hp : p ∈ protocols) (hf : r.failure? = some f) : ∃ out, a.render r asked = .ok out := by
  have hcontent : ∃ x, content p r = .ok x := by simp [content, hf]
  obtain ⟨x, hx⟩ := hcontent
  exact ⟨_, render_eq_ok_iff.mpr ⟨p, hp, htarget, x, hx, rfl⟩⟩

end Envelope

namespace JsonRpc

variable {a : JsonRpc} {r : Reply} {asked : Option Inbound} {out : Outbound}

/-- All that can leave: nothing for a notification, and otherwise a response with the id. -/
theorem render_cases (h : a.render r asked = .ok out) :
    r.target asked = .ok .jsonRpc ∧
      (requestId? r asked = none ∧ r.pattern = .publishSubscribe ∧
          out = r.finish { protocol := .jsonRpc, status := 204, body := [] } ∨
        ∃ response, a.response ((requestId? r asked).getD .null) r = .ok response ∧
          out = r.finish
            ((Outbound.withHeader
              { protocol := .jsonRpc, status := 200, body := response.toJson.bytes }
              Headers.contentType "application/json").withMetadata
              Metadata.jsonRpcId ((requestId? r asked).getD .null))) := by
  obtain ⟨p, htarget, h⟩ := bind_eq_ok.mp h
  obtain ⟨⟨⟩, hp, h⟩ := bind_eq_ok.mp h
  have hjsonRpc : p = .jsonRpc := List.mem_singleton.mp (requireProtocol_eq_ok.mp hp)
  refine ⟨by rw [htarget, hjsonRpc], ?_⟩
  dsimp only at h
  split at h
  · next hnone =>
    cases h
    exact .inl ⟨Option.isNone_iff_eq_none.mp hnone.1, hnone.2, rfl⟩
  · obtain ⟨response, hresponse, h⟩ := bind_eq_ok.mp h
    cases h
    exact .inr ⟨response, hresponse, rfl⟩

theorem finishes (h : a.render r asked = .ok out) : out.Finishes r asked := by
  obtain ⟨htarget, ⟨-, -, rfl⟩ | ⟨response, -, rfl⟩⟩ := render_cases h
  · exact ⟨_, htarget, rfl⟩
  · exact ⟨_, htarget, rfl⟩

theorem exists_render {f : Failure} {p : Protocol} (htarget : r.target asked = .ok p)
    (hp : p ∈ protocols) (hf : r.failure? = some f) : ∃ out, a.render r asked = .ok out := by
  have hresponse (id : Json) : a.response id r = .ok (.ofError id (.ofFailure f)) := by
    simp [response, hf]
  refine exists_bind htarget (exists_bind (requireProtocol_eq_ok.mpr hp) ?_)
  dsimp only
  split
  · exact ⟨_, rfl⟩
  · exact exists_bind (hresponse _) ⟨_, rfl⟩

end JsonRpc

/-! ## Adapters and sets of them -/

namespace Adapter

variable {a : Adapter} {r : Reply} {asked : Option Inbound} {out : Outbound}

/-- Whatever leaves has been finished. -/
theorem finishes (h : a.render r asked = .ok out) : out.Finishes r asked := by
  cases a with
  | rest a => exact Rest.finishes h
  | jsonRpc a => exact JsonRpc.finishes h
  | envelope a => exact Envelope.finishes (a := a) h

/-- An adapter that can write the report of a failure. REST writes it with its codec, the other
protocols in JSON. -/
def Writes : Adapter → Failure → Prop
  | .rest a, f => ∃ body, a.codec.encode (Rest.failureValue f) = .ok body
  | .jsonRpc _, _ | .envelope _, _ => True

theorem exists_of_not_writes {f : Failure} (h : ¬ a.Writes f) :
    ∃ b e, a = .rest b ∧ b.codec.encode (Rest.failureValue f) = .error e := by
  cases a with
  | rest b =>
    cases hencode : b.codec.encode (Rest.failureValue f) with
    | ok body => exact absurd ⟨body, hencode⟩ h
    | error e => exact ⟨b, e, rfl, hencode⟩
  | jsonRpc | envelope => exact absurd trivial h

/-- The report of a failure leaves if it can be written. -/
theorem exists_render {f : Failure} {p : Protocol} (htarget : r.target asked = .ok p)
    (hp : a.supports p = true) (hf : r.failure? = some f) (hwrites : a.Writes f) :
    ∃ out, a.render r asked = .ok out := by
  have hmem : p ∈ a.protocols := List.contains_iff_mem.mp hp
  cases a with
  | rest a => exact Rest.exists_render htarget hmem hf hwrites
  | jsonRpc a => exact JsonRpc.exists_render htarget hmem hf
  | envelope a => exact Envelope.exists_render (a := a) htarget hmem hf

end Adapter

namespace Adapters

variable {s : Adapters} {a : Adapter} {p : Protocol} {r : Reply} {m : Inbound} {out : Outbound}

/-- What holds of each adapter with each of its protocols holds all over a set that is made of them. -/
theorem forall_mem_ofList {P : Protocol × Adapter → Prop} {as : List Adapter}
    (h : ∀ a ∈ as, ∀ p ∈ a.protocols, P (p, a)) : ∀ e ∈ ofList as, P e := by
  have hregister (a : Adapter) (ps : List Protocol) (hps : ∀ p ∈ ps, P (p, a)) (s : Adapters)
      (hs : ∀ e ∈ s, P e) :
      ∀ e ∈ ps.foldl (fun acc p ↦ (p, a) :: acc.filter fun e ↦ e.1 ≠ p) s, P e := by
    induction ps generalizing s with
    | nil => exact hs
    | cons p ps ih =>
      obtain ⟨hp, hps⟩ := List.forall_mem_cons.mp hps
      refine ih hps _ (List.forall_mem_cons.mpr ⟨hp, fun e he ↦ ?_⟩)
      exact hs e (List.mem_filter.mp he).1
  have hfold (s : Adapters) (hs : ∀ e ∈ s, P e) : ∀ e ∈ as.foldl Adapters.register s, P e := by
    induction as generalizing s with
    | nil => exact hs
    | cons a as ih =>
      obtain ⟨ha, has⟩ := List.forall_mem_cons.mp h
      exact ih has _ (hregister a a.protocols ha s hs)
  exact hfold [] (by intro e he; cases he)

/-- Every adapter of a set is there for a protocol that it handles. -/
def Sound (s : Adapters) : Prop := ∀ e ∈ s, e.2.supports e.1 = true

theorem sound_ofList (as : List Adapter) : (ofList as).Sound :=
  forall_mem_ofList fun _ _ _ hp ↦ List.contains_iff_mem.mpr hp

theorem Sound.supports (h : s.Sound) (ha : s.find? p = some a) : a.supports p = true := by
  obtain ⟨before, behind, rfl, -⟩ := List.lookup_eq_some_iff.mp ha
  exact h (p, a) (by simp)

theorem find?_of_get (h : s.get p = .ok a) : s.find? p = some a := by
  unfold get at h
  split at h
  · next hfind => exact hfind.trans (congrArg some (Except.ok.inj h))
  · cases h

/-- A message is accepted by the adapter of its protocol. -/
theorem exists_of_accept {fresh : TraceId} {c : Call} (h : s.accept fresh m = .ok c) :
    ∃ a, s.find? m.protocol = some a ∧ a.accept fresh m = .ok c := by
  obtain ⟨a, hget, h⟩ := bind_eq_ok.mp h
  exact ⟨a, find?_of_get hget, h⟩

/-- A set accepts a message with the adapter of its protocol. -/
theorem accept_of_find? (h : s.find? m.protocol = some a) (fresh : TraceId) :
    s.accept fresh m = a.accept fresh m := by
  have hget : s.get m.protocol = .ok a := by rw [get, h]
  change s.get m.protocol >>= (fun a ↦ a.accept fresh m) = a.accept fresh m
  rw [hget]
  rfl

/-- A set answers a message with the adapter of its protocol. -/
theorem render_of_find? (h : s.find? m.protocol = some a) (r : Reply) :
    s.render r (some m) = a.render r (some m) := by
  have hget : s.get m.protocol = .ok a := by rw [get, h]
  change s.get m.protocol >>= (fun a ↦ a.render r (some m)) = a.render r (some m)
  rw [hget]
  rfl

end Adapters

end Interchange
