import Interchange.Proofs.Json.Reading
import Interchange.Protocol.Adapter
import Mathlib.Data.List.TakeWhile

/-!
# Messages as they come in

Three adapters make calls of messages, each in its own way.  For each of them one
statement says which messages become calls, and which calls they become
(`Rest.accept_eq_ok_iff`, `JsonRpc.accept_eq_ok_iff`, `Envelope.accept_eq_ok_iff`).
Whatever else is known of a call that was made follows from these.
-/

namespace Interchange

theorem requireProtocol_eq_ok {ps : List Protocol} {p : Protocol} :
    requireProtocol ps p = .ok () ↔ p ∈ ps := by
  unfold requireProtocol
  by_cases h : p ∈ ps <;> simp [h]

variable {m : Inbound} {c : Call} {fresh : TraceId} {f : Failure}

theorem Json.code_of_decode {body : Bytes} (h : Json.decode body = .error f) :
    f.code = .serialization ∧ f.details = none := by
  rw [Json.decode] at h
  cases hparse : Json.parse body with
  | ok v => rw [hparse] at h; cases h
  | error fault => rw [hparse] at h; cases h; exact ⟨rfl, rfl⟩

theorem Codec.code_of_decode {body : Bytes} (h : Codec.json.decode body = .error f) :
    f.code = .serialization ∧ f.details = none := by
  change (if body.all isBlankByte then Except.ok Json.null else Json.decode body) = .error f at h
  split at h
  · cases h
  · exact Json.code_of_decode h

/-- What is read from a payload is the value of its text, or `null` if it is blank. -/
theorem Codec.eq_null_or_parse {payload : Bytes} {v : Json} (h : Codec.json.decode payload = .ok v) :
    v = .null ∨ Json.parse payload = .ok v := by
  change (if payload.all isBlankByte then Except.ok Json.null else Json.decode payload) = .ok v at h
  split at h
  · cases h
    exact .inl rfl
  · exact .inr (Json.parse_of_decode h)

/-- What is read from a payload is in order. -/
theorem Codec.ordered_decode {payload : Bytes} {v : Json} (h : Codec.json.decode payload = .ok v) :
    v.Ordered := by
  rcases Codec.eq_null_or_parse h with rfl | hparse
  · trivial
  · exact Json.ordered_parse hparse

/-- A REST message becomes a call if it says where it goes and its body can be read and written. -/
theorem Rest.accept_eq_ok_iff {a : Rest} : a.accept fresh m = .ok c ↔ m.protocol = .rest ∧
    ∃ service method body payload, a.target m = .ok (service, method) ∧
      a.codec.decode m.body = .ok body ∧ a.codec.encode body = .ok payload ∧
      c = ((m.toCall fresh service method payload).withHeader Headers.contentType
        a.codec.contentType).withMetadata Metadata.httpMethod (.string (verb m)) := by
  constructor
  · intro h
    obtain ⟨⟨⟩, hprotocol, h⟩ := bind_eq_ok.mp h
    obtain ⟨⟨service, method⟩, htarget, h⟩ := bind_eq_ok.mp h
    obtain ⟨body, hbody, h⟩ := bind_eq_ok.mp h
    obtain ⟨payload, hpayload, h⟩ := bind_eq_ok.mp h
    cases h
    have hrest : m.protocol = .rest := List.mem_singleton.mp (requireProtocol_eq_ok.mp hprotocol)
    exact ⟨hrest, service, method, body, payload, htarget, hbody, hpayload, rfl⟩
  · rintro ⟨hrest, service, method, body, payload, htarget, hbody, hpayload, rfl⟩
    have hprotocol : requireProtocol protocols m.protocol = .ok () :=
      requireProtocol_eq_ok.mpr (List.mem_singleton.mpr hrest)
    refine bind_eq_ok.mpr ⟨_, hprotocol, bind_eq_ok.mpr ⟨_, htarget, bind_eq_ok.mpr ⟨_, hbody, ?_⟩⟩⟩
    exact bind_eq_ok.mpr ⟨_, hpayload, rfl⟩

namespace JsonRpc

/-- A name that is made of these two: the first point in it stands between them. -/
structure Qualifies (name service method : String) : Prop where
  eq : name = service ++ "." ++ method
  point : '.' ∉ service.toList
  service_ne : service ≠ ""
  method_ne : method ≠ ""

theorem splitMethod?_eq_some_iff {name service method : String} :
    splitMethod? name = some (service, method) ↔ Qualifies name service method := by
  constructor
  · intro h
    unfold splitMethod? at h
    dsimp only at h
    split at h
    · cases h
    · next hne =>
      cases h
      simp only [Bool.or_eq_true, List.isEmpty_iff, not_or] at hne
      obtain ⟨hbefore, hbehind⟩ := hne
      have hsplit : name.toList.takeWhile (· ≠ '.') ++ name.toList.dropWhile (· ≠ '.') = name.toList :=
        List.takeWhile_append_dropWhile
      have hhead := List.head?_dropWhile_not (· ≠ '.') name.toList
      have hplain : '.' ∉ name.toList.takeWhile (· ≠ '.') := fun hmem ↦ by
        simpa using List.mem_takeWhile_imp hmem
      generalize name.toList.takeWhile (· ≠ '.') = before at *
      generalize name.toList.dropWhile (· ≠ '.') = behind at *
      cases behind with
      | nil => exact absurd rfl hbehind
      | cons c rest =>
        have hc : c = '.' := by simpa using hhead
        refine ⟨?_, by rwa [String.toList_ofList], by simpa [String.ofList_eq_empty_iff] using hbefore,
          by simpa [String.ofList_eq_empty_iff] using hbehind⟩
        rw [← String.toList_inj, ← hsplit, hc]
        simp
  · rintro ⟨rfl, hpoint, hservice, hmethod⟩
    have hlist : (service ++ "." ++ method).toList = service.toList ++ '.' :: method.toList := by simp
    have hplain : ∀ x ∈ service.toList, decide (x ≠ '.') = true := fun x hx ↦
      decide_eq_true (ne_of_mem_of_not_mem hx hpoint)
    have hbefore : (service.toList ++ '.' :: method.toList).takeWhile (· ≠ '.') = service.toList := by
      rw [List.takeWhile_append_of_pos hplain]
      simp
    have hbehind :
        (service.toList ++ '.' :: method.toList).dropWhile (· ≠ '.') = '.' :: method.toList := by
      rw [List.dropWhile_append_of_pos hplain]
      simp
    unfold splitMethod?
    rw [hlist, hbefore, hbehind]
    simp [hservice, hmethod]

end JsonRpc

/-- A call that notes the id of a request. Without an id nobody waits for the answer. -/
def Call.identified (c : Call) (id : Option Json) : Call :=
  id.elim { c with pattern := .publishSubscribe } (c.withMetadata Metadata.jsonRpcId)

/-- A JSON-RPC message becomes a call if its body is a request that says where it goes, and its
parameters can be written. -/
theorem JsonRpc.accept_eq_ok_iff {a : JsonRpc} : a.accept fresh m = .ok c ↔ m.protocol = .jsonRpc ∧
    ∃ request service method payload, parse m.body = .ok request ∧
      Text.isBlank request.method = false ∧ target m request.method = .ok (service, method) ∧
      a.codec.encode request.params = .ok payload ∧
      c = ((m.toCall fresh service method payload).withHeader
        Headers.contentType a.codec.contentType).identified request.id := by
  constructor
  · intro h
    obtain ⟨⟨⟩, hprotocol, h⟩ := bind_eq_ok.mp h
    obtain ⟨request, hrequest, h⟩ := bind_eq_ok.mp h
    split at h
    · cases h
    · next hblank =>
      obtain ⟨⟨service, method⟩, htarget, h⟩ := bind_eq_ok.mp h
      obtain ⟨payload, hpayload, h⟩ := bind_eq_ok.mp h
      have hjsonRpc : m.protocol = .jsonRpc :=
        List.mem_singleton.mp (requireProtocol_eq_ok.mp hprotocol)
      refine ⟨hjsonRpc, request, service, method, payload, hrequest, Bool.not_eq_true _ ▸ hblank, htarget,
        hpayload, ?_⟩
      dsimp only at h
      split at h
      · next id hid =>
        cases h
        rw [hid]
        rfl
      · next hid =>
        cases h
        rw [hid]
        rfl
  · rintro ⟨hjsonRpc, request, service, method, payload, hrequest, hblank, htarget, hpayload, rfl⟩
    have hprotocol : requireProtocol protocols m.protocol = .ok () :=
      requireProtocol_eq_ok.mpr (List.mem_singleton.mpr hjsonRpc)
    refine bind_eq_ok.mpr ⟨_, hprotocol, bind_eq_ok.mpr ⟨_, hrequest, ?_⟩⟩
    rw [hblank]
    refine bind_eq_ok.mpr ⟨_, htarget, bind_eq_ok.mpr ⟨_, hpayload, ?_⟩⟩
    dsimp only
    cases request.id <;> rfl

/-- A message in an envelope becomes a call if the envelope says where it goes. -/
theorem Envelope.accept_eq_ok_iff {a : Envelope} : a.accept fresh m = .ok c ↔ m.protocol ∈ protocols ∧
    ∃ service method framing, m.service? = some service ∧ m.method? = some method ∧
      Framing.choose m.metadata m.body = .ok framing ∧
      c = (m.toCall fresh service method m.body).withMetadata Metadata.framing
        (.string framing.name) := by
  constructor
  · intro h
    obtain ⟨⟨⟩, hprotocol, h⟩ := bind_eq_ok.mp h
    split at h
    · cases h
    · next service hservice =>
      split at h
      · cases h
      · next method hmethod =>
        obtain ⟨framing, hframing, h⟩ := bind_eq_ok.mp h
        cases h
        exact ⟨requireProtocol_eq_ok.mp hprotocol, service, method, framing, hservice, hmethod, hframing, rfl⟩
  · rintro ⟨hprotocol, service, method, framing, hservice, hmethod, hframing, rfl⟩
    refine bind_eq_ok.mpr ⟨_, requireProtocol_eq_ok.mpr hprotocol, ?_⟩
    rw [hservice]
    dsimp only
    rw [hmethod]
    exact bind_eq_ok.mpr ⟨_, hframing, rfl⟩

end Interchange
