import Interchange.Proofs.Message.Headers
import Interchange.Proofs.Protocol.Rendering

/-!
# Headers as they cross

On the way in, an adapter that reads a body writes the type of the payload that it
makes of it (`Adapter.headers_of_accept`).  On the way out the type of the body and
the trace id are written (`Adapter.exists_fresh_of_render`), and the headers of the answer
are added, but for those that are spelt like one that is there.

All of this goes by the spelling of a name.  So headers that are unambiguous stay so
unless one of them is a header that is written, in another spelling
(`Adapter.unambiguous_iff`).
-/

namespace Interchange

open Headers

/-- The names of the headers that are written. -/
def Headers.written : List String := [contentType, trace]

theorem Headers.eq_of_written : ∀ a ∈ written, ∀ b ∈ written, sameName a b = true → a = b := by
  decide +kernel

/-- The type that an adapter gives to the payload of a call, if it makes the payload itself. -/
def Adapter.payloadType? : Adapter → Option String
  | .rest a => some a.codec.contentType
  | .jsonRpc a => some a.codec.contentType
  | .envelope _ => none

/-- A message on which nothing is written but the type of its body. -/
def Outbound.Fresh (x : Outbound) : Prop := x.headers = [] ∨ ∃ type, x.headers = [(contentType, type)]

variable {m : Inbound} {c : Call} {fresh : TraceId} {r : Reply} {asked : Option Inbound} {out : Outbound}

/-! ## The way in -/

/-- The headers of a call are those of the message, and the type of the payload. -/
theorem Adapter.headers_of_accept {a : Adapter} (h : a.accept fresh m = .ok c) :
    c.headers = match a.payloadType? with
      | some type => m.headers.insert contentType type
      | none => m.headers := by
  cases a with
  | rest a =>
    obtain ⟨-, service, method, body, payload, -, -, -, rfl⟩ := Rest.accept_eq_ok_iff.mp h
    rfl
  | jsonRpc a =>
    obtain ⟨-, request, service, method, payload, -, -, -, -, rfl⟩ := JsonRpc.accept_eq_ok_iff.mp h
    cases request.id <;> rfl
  | envelope a =>
    obtain ⟨-, service, method, framing, -, -, -, rfl⟩ := (Envelope.accept_eq_ok_iff (a := a)).mp h
    rfl

/-! ## The way out -/

theorem Rest.fresh_of_holding {a : Rest} {status : Nat} {value : Json} {x : Outbound}
    (h : a.holding status value = .ok x) : x.Fresh := by
  obtain ⟨body, -, rfl⟩ := holding_eq_ok_iff.mp h
  exact .inr ⟨_, rfl⟩

theorem Rest.fresh_of_content {a : Rest} {verb : String} {x : Outbound} (h : a.content r verb = .ok x) :
    x.Fresh := by
  unfold content at h
  split at h
  · exact fresh_of_holding h
  split at h
  · cases h
    exact .inl rfl
  split at h
  · cases h
    exact .inl rfl
  split at h
  · cases h
    exact .inl rfl
  obtain ⟨value, -, h⟩ := bind_eq_ok.mp h
  split at h
  · cases h
    exact .inl rfl
  · exact fresh_of_holding h

theorem Envelope.fresh_of_content {p : Protocol} {x : Outbound} (h : content p r = .ok x) : x.Fresh := by
  unfold content at h
  split at h
  · cases h
    exact .inl rfl
  · obtain ⟨framing, -, h⟩ := bind_eq_ok.mp h
    cases h
    exact .inl rfl

/-- Whatever leaves has been finished when nothing was written on it but the type of its body. -/
theorem Adapter.exists_fresh_of_render {a : Adapter} (h : a.render r asked = .ok out) :
    ∃ x : Outbound, x.Fresh ∧ out = r.finish x := by
  cases a with
  | rest a =>
    obtain ⟨-, x, hx, rfl⟩ := Rest.render_eq_ok_iff.mp h
    have hfresh : x.Fresh := Rest.fresh_of_content hx
    exact ⟨x.withMetadata Metadata.httpMethod (.string (Rest.verbOf r asked)), hfresh, rfl⟩
  | jsonRpc a =>
    obtain ⟨-, ⟨-, -, rfl⟩ | ⟨response, -, rfl⟩⟩ := JsonRpc.render_cases h
    · exact ⟨_, .inl rfl, rfl⟩
    · exact ⟨_, .inr ⟨_, rfl⟩, rfl⟩
  | envelope a =>
    obtain ⟨p, -, -, x, hx, rfl⟩ := (Envelope.render_eq_ok_iff (a := a)).mp h
    have hfresh : x.Fresh := Envelope.fresh_of_content hx
    cases r.metadata.get? Metadata.topic with
    | none => exact ⟨x, hfresh, rfl⟩
    | some topic => exact ⟨x.withMetadata Metadata.topic topic, hfresh, rfl⟩

namespace Reply

/-- The names of headers that are written when an answer is finished. -/
def written (r : Reply) (x : Outbound) : List String :=
  Dictionary.keys x.headers ++ r.traceId.toList.map fun _ ↦ trace

theorem mem_keys_finish {x : Outbound} {k : String} :
    k ∈ Dictionary.keys (r.finish x).headers ↔ k ∈ r.written x ∨ k ∈ Dictionary.keys r.headers := by
  unfold finish written
  cases r.traceId with
  | none => simp [Dictionary.mem_keys_addMissing]
  | some id =>
    simp only [Dictionary.mem_keys_insert, Dictionary.mem_keys_addMissing, Option.toList_some,
      List.map_cons, List.map_nil, List.mem_append, List.mem_singleton]
    tauto

theorem sorted_finish {x : Outbound} (hx : x.Fresh) : Dictionary.Sorted (r.finish x).headers := by
  have hsorted : Dictionary.Sorted x.headers := by
    rcases hx with hx | ⟨type, hx⟩ <;> rw [hx] <;> simp [Dictionary.Sorted]
  unfold finish
  cases r.traceId with
  | none => exact hsorted.addMissing r.headers
  | some id => exact (hsorted.addMissing r.headers).insert trace id

theorem written_subset {x : Outbound} (hx : x.Fresh) : ∀ k ∈ r.written x, k ∈ Headers.written := by
  have hkeys : ∀ k ∈ Dictionary.keys x.headers, k ∈ Headers.written := by
    rcases hx with hx | ⟨type, hx⟩ <;> rw [hx] <;> simp [Dictionary.keys, Headers.written]
  intro k hk
  rcases List.mem_append.mp hk with hk | hk
  · exact hkeys k hk
  · obtain ⟨id, -, rfl⟩ := List.mem_map.mp hk
    exact List.mem_cons_of_mem _ (List.mem_singleton_self _)

/-- An answer whose headers are unambiguous leaves with such headers if and only if none of them is one
that is written, in another spelling. -/
theorem unambiguous_finish_iff {x : Outbound} (hx : x.Fresh) (hr : r.headers.Unambiguous) :
    (r.finish x).headers.Unambiguous ↔
      ∀ name ∈ Headers.written, name ∈ Dictionary.keys (r.finish x).headers →
        ¬ r.headers.Respells name := by
  have hsub := written_subset (r := r) hx
  rw [unambiguous_iff_of_keys hr (sorted_finish hx)
    (fun a ha b hb ↦ eq_of_written a (hsub a ha) b (hsub b hb)) fun k ↦ mem_keys_finish]
  constructor
  · intro h name _ hname
    rcases mem_keys_finish.mp hname with hname | hname
    · exact h name hname
    · exact hr.not_respells hname
  · intro h name hname
    exact h name (hsub name hname) (mem_keys_finish.mpr (.inl hname))

end Reply

namespace Adapter

variable {a : Adapter}

/-- A message whose headers are unambiguous becomes a call with such headers if and only if none of them
is the type of the payload in another spelling. -/
theorem unambiguous_accept_iff (h : a.accept fresh m = .ok c) (hm : m.headers.Unambiguous) :
    c.headers.Unambiguous ↔ ∀ type ∈ a.payloadType?, ¬ m.headers.Respells contentType := by
  rw [headers_of_accept h]
  cases a.payloadType? with
  | none => exact iff_of_true hm nofun
  | some type =>
    have hwritten : ∀ x ∈ [contentType], ∀ y ∈ [contentType], sameName x y = true → x = y := by simp
    have hkeys : ∀ k, k ∈ Dictionary.keys (m.headers.insert contentType type) ↔
        k ∈ [contentType] ∨ k ∈ Dictionary.keys m.headers := by
      simp [Dictionary.mem_keys_insert]
    have hiff := unambiguous_iff_of_keys hm (hm.sorted.insert contentType type) hwritten hkeys
    simpa using hiff

/-- Headers that are unambiguous stay so as messages cross, unless one of them is a header that is
written, in another spelling. What is written stands under its own spelling, and is what is found if the
headers are unambiguous. -/
theorem unambiguous_iff (a : Adapter) :
    (∀ fresh m c, a.accept fresh m = .ok c → m.headers.Unambiguous →
      (c.headers.Unambiguous ↔ ∀ type ∈ a.payloadType?, ¬ m.headers.Respells contentType) ∧
      ∀ type ∈ a.payloadType?, c.headers.get? contentType = some type ∧
        (c.headers.Unambiguous → c.header? contentType = some type)) ∧
    (∀ r asked out, a.render r asked = .ok out → r.headers.Unambiguous →
      (out.headers.Unambiguous ↔ ∀ name ∈ [contentType, trace], (out.headers.get? name).isSome →
        ¬ r.headers.Respells name) ∧
      ∀ id ∈ r.traceId, out.headers.get? trace = some id ∧
        (out.headers.Unambiguous → out.header? trace = some id)) ∧
    ∀ h : Headers, h.Unambiguous → ∀ h' : Headers, h'.Perm h → ∀ name, h'.find? name = h.find? name := by
  refine ⟨?_, ?_, ?_⟩
  · intro fresh m c haccept hm
    refine ⟨unambiguous_accept_iff haccept hm, ?_⟩
    intro type htype
    have hget : c.headers.get? contentType = some type := by
      rw [headers_of_accept haccept, Option.mem_def.mp htype]
      exact Dictionary.get?_insert_self _ _ _
    exact ⟨hget, fun hu ↦ find?_of_get? hu hget⟩
  · intro r asked out hrender hr
    constructor
    · obtain ⟨x, hx, rfl⟩ := exists_fresh_of_render hrender
      rw [Reply.unambiguous_finish_iff hx hr]
      simp only [Dictionary.mem_keys_iff]
      rfl
    · intro id hid
      have hget : out.headers.get? trace = some id := (finishes hrender).trace_eq hid
      exact ⟨hget, fun hu ↦ find?_of_get? hu hget⟩
  · intro h hu h' hperm name
    exact find?_of_perm hu hperm name

theorem unambiguous_rest :
    let m : Inbound := { protocol := .rest, body := Utf8.encode "1", service := some "a", method := some "b",
                         headers := [("Accept", "text/plain")] }
    let r : Reply := { Reply.ofPayload (Utf8.encode "2") with
                       headers := [("Server", "c")], traceId := some "t" }
    (∃ c, (Adapter.rest {}).accept ⟨"t", by decide⟩ m = .ok c ∧
      c.header? contentType = some "application/json") ∧
    ∃ out, (Adapter.rest {}).render r (some m) = .ok out ∧ out.header? trace = some "t" := by
  intro m r
  obtain ⟨haccepts, hrenders, -⟩ := unambiguous_iff (.rest {})
  constructor
  · let c : Call := { m.toCall ⟨"t", by decide⟩ "a" "b" (Utf8.encode "1") with
                      headers := [("Accept", "text/plain"), (contentType, "application/json")]
                      metadata := [(Metadata.httpMethod, .string "POST")] }
    have hc : (Adapter.rest {}).accept ⟨"t", by decide⟩ m = .ok c := by decide +kernel
    obtain ⟨hiff, hfound⟩ := haccepts _ m c hc (by decide +kernel)
    have hspelt : ¬ m.headers.Respells contentType := by decide +kernel
    exact ⟨c, hc, (hfound "application/json" rfl).2 (hiff.mpr fun _ _ ↦ hspelt)⟩
  · let out : Outbound :=
      { protocol := .rest, status := 200, body := Utf8.encode "2"
        headers := [("Server", "c"), (contentType, "application/json"), (trace, "t")]
        metadata := [(Metadata.httpMethod, .string "POST")] }
    have hout : (Adapter.rest {}).render r (some m) = .ok out := by decide +kernel
    obtain ⟨hiff, hfound⟩ := hrenders r (some m) out hout (by decide +kernel)
    have hspelt : ∀ name ∈ [contentType, trace], ¬ r.headers.Respells name := by decide +kernel
    exact ⟨out, hout, (hfound "t" rfl).2 (hiff.mpr fun name hname _ ↦ hspelt name hname)⟩

/-- A request that has the type of its body in another spelling becomes a call that has two types. -/
theorem type_twice :
    let m : Inbound := { protocol := .rest, body := Utf8.encode "1", service := some "a", method := some "b",
                         headers := [("Content-Type", "text/plain")] }
    m.headers.Unambiguous ∧ ∃ c, (Adapter.rest {}).accept ⟨"t", by decide⟩ m = .ok c ∧
      c.headers = [("Content-Type", "text/plain"), ("content-type", "application/json")] ∧
      ¬ c.headers.Unambiguous := by
  intro m
  let c : Call := { m.toCall ⟨"t", by decide⟩ "a" "b" (Utf8.encode "1") with
                    headers := [("Content-Type", "text/plain"), ("content-type", "application/json")]
                    metadata := [(Metadata.httpMethod, .string "POST")] }
  have hc : (Adapter.rest {}).accept ⟨"t", by decide⟩ m = .ok c := by decide +kernel
  have hsame : sameName "Content-Type" "content-type" = true := sameName_iff.mpr (by decide)
  refine ⟨⟨List.pairwise_singleton _ _, by simp [m, Dictionary.keys]⟩, c, hc, rfl, fun hu ↦ ?_⟩
  exact absurd (hu.eq_of_sameName _ List.mem_cons_self _ (.tail _ List.mem_cons_self) hsame) (by decide)

end Adapter

end Interchange
