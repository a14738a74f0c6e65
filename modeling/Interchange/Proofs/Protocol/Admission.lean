import Interchange.Proofs.Protocol.JsonRpc.Echo
import Interchange.Proofs.Protocol.Reporting
import Interchange.Proofs.Protocol.Spelling

/-!
# What every call brings with it

A message names its service and method in a field, in a header, in its path or in
its body, and each adapter looks in other places and in its own order.  Wherever
the names were found, something stands there: `nonBlank?`, `PathTemplate.capture`
and `JsonRpc.splitMethod?` never find an empty name.

All else that a call has is the same for all adapters (`Inbound.toCall`), but for
the header that tells the type of the payload and for one entry of the metadata,
the mark of the adapter (`Inbound.Marks`).  `Call.Admits` collects what holds of
every call that a message became, and `Failure.Refuses` says how else it can go.
-/

namespace Interchange

/-- A failure that tells that a message cannot become a call. -/
def Failure.Refuses (f : Failure) : Prop := f.code = .protocol ∨ f.code = .serialization

/-- The entry that an adapter notes on the call that a message becomes: the verb in upper case, the id of
the request, if it has one, or the framing that is chosen for the body. -/
inductive Inbound.Marks (m : Inbound) : Option (String × Json) → Prop
  | verb : m.protocol = .rest →
      Marks m (some (Metadata.httpMethod, .string (m.httpMethod.getD "POST").toUpper))
  | id {j id : Json} : m.protocol = .jsonRpc → Json.decode m.body = .ok j → j.get? "id" = some id →
      Marks m (some (Metadata.jsonRpcId, id))
  | notification {j : Json} : m.protocol = .jsonRpc → Json.decode m.body = .ok j → j.get? "id" = none →
      Marks m none
  | framing {framing : Framing} : m.protocol = .webSocket ∨ m.protocol = .mqtt →
      Framing.choose m.metadata m.body = .ok framing →
      Marks m (some (Metadata.framing, .string framing.name))

/-- What is known of the call that a message became, and of the mark that it bears. -/
structure Call.Admits (c : Call) (m : Inbound) (mark : Option (String × Json)) : Prop where
  service_ne : c.service ≠ ""
  method_ne : c.method ≠ ""
  traceId_notBlank : Text.isBlank c.traceId.text = false
  traceId_eq {k v : String} : (k, v) ∈ m.headers → Headers.sameName k Headers.trace = true →
    Text.isBlank v = false → c.traceId.text = v
  source_eq : c.source = some m.protocol
  pattern_eq : c.pattern = mark.elim .publishSubscribe fun _ ↦ m.pattern
  timeout_eq : c.timeout = none
  header_eq {k : String} : k ≠ Headers.contentType → c.headers.get? k = m.headers.get? k
  headers_eq : m.protocol = .webSocket ∨ m.protocol = .mqtt → c.headers = m.headers
  marked {k : String} {v : Json} : mark = some (k, v) → c.metadata.get? k = some v
  metadata_eq {k : String} : (∀ v, mark ≠ some (k, v)) → c.metadata.get? k = m.metadata.get? k

variable {m : Inbound} {c : Call} {fresh : TraceId} {f : Failure} {service method : String}

/-! ## Names -/

theorem ne_of_nonBlank? {s : Option String} {name : String} (h : nonBlank? s = some name) : name ≠ "" := by
  obtain ⟨x, -, hx⟩ := Option.bind_eq_some_iff.mp h
  split at hx
  · cases hx
  · next hne =>
    cases hx
    simpa using hne

theorem Inbound.service_ne (h : m.service? = some service) : service ≠ "" := by
  rcases Option.or_eq_some_iff.mp h with h | ⟨-, h⟩ <;> exact ne_of_nonBlank? h

theorem Inbound.method_ne (h : m.method? = some method) : method ≠ "" := by
  rcases Option.or_eq_some_iff.mp h with h | ⟨-, h⟩ <;> exact ne_of_nonBlank? h

namespace PathTemplate

theorem ne_of_mem_parts {path : List Char} {part : String} (h : part ∈ parts path) : part ≠ "" := by
  obtain ⟨cs, hcs, rfl⟩ := List.mem_map.mp h
  have hne : cs ≠ [] := by simpa using (List.mem_filter.mp hcs).2
  simpa [String.ofList_eq_empty_iff] using hne

/-- What stands at a placeholder is a part of the path. -/
theorem mem_of_capture {segments : List Segment} {parts : List String} {x y : Option String}
    (h : capture segments parts = some (x, y)) :
    (∀ part, x = some part → part ∈ parts) ∧ ∀ part, y = some part → part ∈ parts := by
  induction segments generalizing parts x y with
  | nil =>
    cases parts with
    | nil =>
      cases h
      exact ⟨nofun, nofun⟩
    | cons => cases h
  | cons segment segments ih =>
    cases parts with
    | nil => cases segment <;> cases h
    | cons part parts =>
      cases segment with
      | literal text =>
        rw [capture] at h
        split at h
        · obtain ⟨hx, hy⟩ := ih h
          exact ⟨fun p hp ↦ .tail _ (hx p hp), fun p hp ↦ .tail _ (hy p hp)⟩
        · cases h
      | service =>
        obtain ⟨⟨x', y'⟩, hrest, heq⟩ := Option.map_eq_some_iff.mp h
        cases heq
        refine ⟨fun p hp ↦ ?_, fun p hp ↦ .tail _ ((ih hrest).2 p hp)⟩
        cases hp
        exact .head _
      | method =>
        obtain ⟨⟨x', y'⟩, hrest, heq⟩ := Option.map_eq_some_iff.mp h
        cases heq
        refine ⟨fun p hp ↦ .tail _ ((ih hrest).1 p hp), fun p hp ↦ ?_⟩
        cases hp
        exact .head _

theorem ne_of_extract {t : PathTemplate} {path : String} (h : t.extract path = some (service, method)) :
    service ≠ "" ∧ method ≠ "" := by
  unfold extract at h
  split at h
  · next hcapture =>
    cases h
    obtain ⟨hservice, hmethod⟩ := mem_of_capture hcapture
    exact ⟨ne_of_mem_parts (hservice _ rfl), ne_of_mem_parts (hmethod _ rfl)⟩
  · cases h

end PathTemplate

theorem Rest.ne_of_target {a : Rest} (h : a.target m = .ok (service, method)) :
    service ≠ "" ∧ method ≠ "" := by
  have hpath {x : String × String} (hx : a.fromPath? m = some x) : x.1 ≠ "" ∧ x.2 ≠ "" := by
    obtain ⟨t, -, hx⟩ := Option.bind_eq_some_iff.mp hx
    obtain ⟨j, -, hx⟩ := Option.bind_eq_some_iff.mp hx
    obtain ⟨path, -, hx⟩ := Option.bind_eq_some_iff.mp hx
    exact PathTemplate.ne_of_extract hx
  unfold target at h
  dsimp only at h
  split at h
  · cases h
  · next hservice =>
    split at h
    · cases h
    · next hmethod =>
      cases h
      constructor
      · rcases Option.or_eq_some_iff.mp hservice with hservice | ⟨-, hservice⟩
        · exact Inbound.service_ne hservice
        · obtain ⟨x, hx, rfl⟩ := Option.map_eq_some_iff.mp hservice
          exact (hpath hx).1
      · rcases Option.or_eq_some_iff.mp hmethod with hmethod | ⟨-, hmethod⟩
        · exact Inbound.method_ne hmethod
        · obtain ⟨x, hx, rfl⟩ := Option.map_eq_some_iff.mp hmethod
          exact (hpath hx).2

namespace JsonRpc

theorem ne_of_splitMethod? {name : String} (h : splitMethod? name = some (service, method)) :
    service ≠ "" ∧ method ≠ "" :=
  have hname := splitMethod?_eq_some_iff.mp h
  ⟨hname.service_ne, hname.method_ne⟩

theorem ne_of_target {name : String} (hname : Text.isBlank name = false)
    (h : target m name = .ok (service, method)) : service ≠ "" ∧ method ≠ "" := by
  unfold target at h
  split at h
  · next hsplit =>
    cases h
    exact ne_of_splitMethod? hsplit
  · split at h
    · next hservice =>
      cases h
      refine ⟨Inbound.service_ne hservice, fun hempty ↦ ?_⟩
      rw [hempty] at hname
      cases hname
    · cases h

end JsonRpc

/-! ## Calls -/

theorem Inbound.traceId_toCall (hm : m.headers.Unambiguous) {k v : String} (hmem : (k, v) ∈ m.headers)
    (hk : Headers.sameName k Headers.trace = true) (hv : Text.isBlank v = false)
    (service method : String) (payload : Bytes) :
    (m.toCall fresh service method payload).traceId.text = v := by
  have hfound : m.header? Headers.trace = some v :=
    (Headers.find?_eq_some_iff fun _ he _ he' ↦ hm.eq_of_mem he he').mpr ⟨k, hmem, hk⟩
  simp only [toCall, hfound]
  exact TraceId.adopt_of_not_blank hv fresh

/-- A call of a message, with its mark, and with the type of its payload if the adapter made it. -/
def Inbound.callMarked (m : Inbound) (fresh : TraceId) (service method : String) (payload : Bytes)
    (type? : Option String) (mark : Option (String × Json)) : Call :=
  { m.toCall fresh service method payload with
    pattern := mark.elim .publishSubscribe fun _ ↦ m.pattern
    headers := type?.elim m.headers (m.headers.insert Headers.contentType)
    metadata := mark.elim m.metadata fun e ↦ m.metadata.insert e.1 e.2 }

/-- All that an adapter writes on a call are the type of the payload and the mark. -/
theorem Inbound.admits_callMarked (hm : m.headers.Unambiguous) (hservice : service ≠ "")
    (hmethod : method ≠ "") (payload : Bytes) {type? : Option String}
    (htype : m.protocol = .webSocket ∨ m.protocol = .mqtt → type? = none)
    (mark : Option (String × Json)) :
    (m.callMarked fresh service method payload type? mark).Admits m mark where
  service_ne := hservice
  method_ne := hmethod
  traceId_notBlank := TraceId.notBlank _
  traceId_eq hmem hk hv := traceId_toCall hm hmem hk hv service method payload
  source_eq := rfl
  pattern_eq := rfl
  timeout_eq := rfl
  header_eq hk := by
    cases type? with
    | none => rfl
    | some type => exact Dictionary.get?_insert_of_ne hk ..
  headers_eq henvelope := by rw [htype henvelope]; rfl
  marked hmark := by
    subst hmark
    exact Dictionary.get?_insert_self ..
  metadata_eq {k} hother := by
    cases mark with
    | none => rfl
    | some e =>
      have hne : k ≠ e.1 := fun heq ↦ hother e.2 (by rw [heq])
      exact Dictionary.get?_insert_of_ne hne ..

theorem Rest.admits {a : Rest} (hm : m.headers.Unambiguous) (h : a.accept fresh m = .ok c) :
    ∃ mark, m.Marks mark ∧ c.Admits m mark := by
  obtain ⟨hprotocol, service, method, body, payload, htarget, -, -, rfl⟩ := accept_eq_ok_iff.mp h
  obtain ⟨hservice, hmethod⟩ := ne_of_target htarget
  have htype : m.protocol = .webSocket ∨ m.protocol = .mqtt → some a.codec.contentType = none := by
    simp [hprotocol]
  exact ⟨_, .verb hprotocol, Inbound.admits_callMarked hm hservice hmethod payload htype
    (some (Metadata.httpMethod, .string (verb m)))⟩

theorem JsonRpc.admits {a : JsonRpc} (hm : m.headers.Unambiguous) (h : a.accept fresh m = .ok c) :
    ∃ mark, m.Marks mark ∧ c.Admits m mark := by
  obtain ⟨hprotocol, request, service, method, payload, hrequest, hblank, htarget, -, rfl⟩ :=
    accept_eq_ok_iff.mp h
  obtain ⟨hservice, hmethod⟩ := ne_of_target hblank htarget
  obtain ⟨j, hj, -⟩ := bind_eq_ok.mp hrequest
  have hid := id_of_parse hrequest hj
  have htype : m.protocol = .webSocket ∨ m.protocol = .mqtt → some a.codec.contentType = none := by
    simp [hprotocol]
  have hadmits (mark : Option (String × Json)) :
      (m.callMarked fresh service method payload (some a.codec.contentType) mark).Admits m mark :=
    Inbound.admits_callMarked hm hservice hmethod _ htype mark
  cases heq : request.id with
  | some id => exact ⟨_, .id hprotocol hj (hid.symm.trans heq), hadmits (some (Metadata.jsonRpcId, id))⟩
  | none => exact ⟨_, .notification hprotocol hj (hid.symm.trans heq), hadmits none⟩

theorem Envelope.admits {a : Envelope} (hm : m.headers.Unambiguous) (h : a.accept fresh m = .ok c) :
    ∃ mark, m.Marks mark ∧ c.Admits m mark := by
  obtain ⟨hprotocol, service, method, framing, hservice, hmethod, hframing, rfl⟩ := accept_eq_ok_iff.mp h
  have henvelope : m.protocol = .webSocket ∨ m.protocol = .mqtt := by simpa [protocols] using hprotocol
  exact ⟨_, .framing henvelope hframing, Inbound.admits_callMarked hm (Inbound.service_ne hservice)
    (Inbound.method_ne hmethod) m.body (fun _ ↦ rfl) (some (Metadata.framing, .string framing.name))⟩

/-! ## Refusals -/

/-- Whatever goes wrong is a reason to refuse the message. -/
def Refuses {α : Type} (x : Except Failure α) : Prop := ∀ f, x = .error f → f.Refuses

theorem refuses_bind {α β : Type} {x : Except Failure α} {g : α → Except Failure β} (hx : Refuses x)
    (hg : ∀ a, x = .ok a → Refuses (g a)) : Refuses (x >>= g) := by
  intro f h
  cases x with
  | error f' =>
    cases h
    exact hx _ rfl
  | ok a => exact hg a rfl f h

theorem refuses_ok {α : Type} (a : α) : Refuses (.ok a) := nofun

theorem refuses_protocolFailure {α : Type} (message : String) :
    Refuses (.error (protocolFailure message) : Except Failure α) := by
  intro f h
  cases h
  exact .inl rfl

theorem refuses_requireProtocol (ps : List Protocol) (p : Protocol) : Refuses (requireProtocol ps p) := by
  unfold requireProtocol
  split
  · exact refuses_ok _
  · exact refuses_protocolFailure _

theorem Rest.refuses_accept {a : Rest} (hcodec : a.codec = .json) : Refuses (a.accept fresh m) := by
  refine refuses_bind (refuses_requireProtocol _ _) fun _ _ ↦ refuses_bind ?_ fun _ _ ↦
    refuses_bind ?_ fun _ _ ↦ refuses_bind ?_ fun _ _ ↦ refuses_ok _
  · unfold target
    dsimp only
    split
    · exact refuses_protocolFailure _
    · split
      · exact refuses_protocolFailure _
      · exact refuses_ok _
  · intro f h
    rw [hcodec] at h
    exact .inr (Codec.code_of_decode h).1
  · rw [hcodec]
    exact refuses_ok _

namespace JsonRpc

theorem refuses_parse (body : Bytes) : Refuses (parse body) := by
  refine refuses_bind (fun f h ↦ .inr (Json.code_of_decode h).1) fun j _ ↦ ?_
  split
  · split
    · exact refuses_protocolFailure _
    · split
      · exact refuses_protocolFailure _
      · exact refuses_ok _
  · exact refuses_protocolFailure _
  · exact refuses_protocolFailure _

theorem refuses_target (m : Inbound) (name : String) : Refuses (target m name) := by
  unfold target
  split
  · exact refuses_ok _
  · split
    · exact refuses_ok _
    · exact refuses_protocolFailure _

theorem refuses_accept {a : JsonRpc} (hcodec : a.codec = .json) : Refuses (a.accept fresh m) := by
  refine refuses_bind (refuses_requireProtocol _ _) fun _ _ ↦
    refuses_bind (refuses_parse m.body) fun request _ ↦ ?_
  split
  · exact refuses_protocolFailure _
  · refine refuses_bind (refuses_target m request.method) fun _ _ ↦ refuses_bind ?_ fun _ _ ↦ ?_
    · rw [hcodec]
      exact refuses_ok _
    · dsimp only
      split <;> exact refuses_ok _

end JsonRpc

theorem Framing.refuses_choose (metadata : Metadata) (payload : Bytes) :
    Refuses (choose metadata payload) := by
  refine refuses_bind ?_ fun _ _ ↦ refuses_ok _
  unfold noted
  split
  · exact refuses_ok _
  · exact refuses_ok _
  · exact refuses_ok _
  · exact refuses_protocolFailure _

theorem Envelope.refuses_accept {a : Envelope} : Refuses (a.accept fresh m) := by
  refine refuses_bind (refuses_requireProtocol _ _) fun _ _ ↦ ?_
  split
  · exact refuses_protocolFailure _
  · split
    · exact refuses_protocolFailure _
    · exact refuses_bind (Framing.refuses_choose _ _) fun _ _ ↦ refuses_ok _

/-! ## Every adapter -/

theorem Adapters.mem_withRest {rest : Rest} {p : Protocol} {a : Adapter} (h : (p, a) ∈ withRest rest) :
    a = .rest rest ∨ a = .jsonRpc {} ∨ a = .envelope {} := by
  have hset : withRest rest = [(.mqtt, .envelope {}), (.webSocket, .envelope {}), (.jsonRpc, .jsonRpc {}),
      (.rest, .rest rest)] := rfl
  simp only [hset, List.mem_cons, Prod.mk.injEq, List.not_mem_nil, or_false] at h
  tauto

/-- Every adapter of the standard set, whatever paths its REST adapter reads, makes of a message whose
headers are unambiguous either a failure of the protocol or of reading, or a call with all that
`Call.Admits` tells of it: it names a service and a method, has a trace id, which is that of the message
if the message has one, is of the protocol and pattern of the message, unless it is a notification, has
no timeout, and keeps all headers of the message but the type of a payload, and all metadata but the
mark of the adapter, which is written in place of whatever was there. -/
theorem admitted (template : Option PathTemplate) {p : Protocol} {a : Adapter}
    (ha : (p, a) ∈ Adapters.withRest { template }) (fresh : TraceId) {m : Inbound}
    (hm : m.headers.Unambiguous) :
    (∃ f, a.accept fresh m = .error f ∧ f.Refuses) ∨
      ∃ c, a.accept fresh m = .ok c ∧ ∃ mark, m.Marks mark ∧ c.Admits m mark := by
  have hrefuses : Refuses (a.accept fresh m) := by
    rcases Adapters.mem_withRest ha with rfl | rfl | rfl
    · exact Rest.refuses_accept rfl
    · exact JsonRpc.refuses_accept rfl
    · exact Envelope.refuses_accept (a := {})
  have hadmits (c : Call) (h : a.accept fresh m = .ok c) : ∃ mark, m.Marks mark ∧ c.Admits m mark := by
    rcases Adapters.mem_withRest ha with rfl | rfl | rfl
    · exact Rest.admits hm h
    · exact JsonRpc.admits hm h
    · exact Envelope.admits (a := {}) hm h
  cases h : a.accept fresh m with
  | error f => exact .inl ⟨f, rfl, hrefuses f h⟩
  | ok c => exact .inr ⟨c, rfl, hadmits c h⟩

/-- A message that is named by its path, and claims another verb than its own. -/
theorem admitted_put :
    let m : Inbound := { protocol := .rest, body := Utf8.encode "1", httpMethod := some "put"
                         headers := [("x-trace-id", "t")]
                         metadata := [("http_method", .string "GET"), ("path", .string "/api/a/b")] }
    let a : Adapter := .rest { template := some .standard }
    (.rest, a) ∈ Adapters.withRest { template := some .standard } ∧ m.headers.Unambiguous ∧
      ∃ c, a.accept ⟨"u", by decide⟩ m = .ok c ∧ ∃ mark, m.Marks mark ∧ c.Admits m mark ∧
        c.service = "a" ∧ c.method = "b" ∧ c.traceId.text = "t" ∧
        c.metadata.get? "http_method" = some (.string "PUT") := by
  intro m a
  have ha : (.rest, a) ∈ Adapters.withRest { template := some .standard } :=
    .tail _ (.tail _ (.tail _ (.head _)))
  have hm : m.headers.Unambiguous := by decide +kernel
  obtain ⟨c, hc, hservice, hmethod, htrace, hverb⟩ : ∃ c, a.accept ⟨"u", by decide⟩ m = .ok c ∧
      c.service = "a" ∧ c.method = "b" ∧ c.traceId.text = "t" ∧
      c.metadata.get? "http_method" = some (.string "PUT") := by
    refine ⟨{ m.toCall ⟨"t", by decide⟩ "a" "b" (Utf8.encode "1") with
              headers := [("content-type", "application/json"), ("x-trace-id", "t")]
              metadata := [("http_method", .string "PUT"), ("path", .string "/api/a/b")] }, ?_⟩
    decide +kernel
  rcases admitted (some .standard) ha ⟨"u", by decide⟩ hm with ⟨f, hf, -⟩ | ⟨c', hc', mark, hmark, hadmits⟩
  · cases hf.symm.trans hc
  · cases hc'.symm.trans hc
    exact ⟨ha, hm, c, hc, mark, hmark, hadmits, hservice, hmethod, htrace, hverb⟩

end Interchange
