import Interchange.Proofs.Json.Shapes
import Interchange.Protocol.JsonRpc.Crossing

/-!
# Requests and responses that are read again

A request with an id that was written is read as the same request
(`JsonRpc.parse_request`), and a response as the same response, unless it holds a
`null` (`JsonRpc.Response.parse_toJson_iff`).  Where a result or the data of an
error may be absent, `null` is read as absence, whatever the text
(`JsonRpc.Response.within_of_parse`).  So a result that is `null` is lost, and the
response that is read has neither a result nor an error.

One nesting is taken by the request or the response, and one more by an error; what
they hold may use the others (`JsonRpc.Response.Within`).
-/

namespace Interchange.JsonRpc

open Json Json.Shape

variable {d : Nat}

/-- What may be absent, left out if it is `null`. -/
def shedNull (o : Option Json) : Option Json := o.filter (· ≠ .null)

theorem shedNull_eq {o : Option Json} (h : ∀ x ∈ o, x ≠ .null) : shedNull o = o := by
  cases o with
  | none => rfl
  | some x => exact if_pos (decide_eq_true (h x rfl))

/-- A value that may be absent is not read as `null`. -/
theorem takes_shedNull {x : Json} (h : x.Regular) (hd : x.depth ≤ d) :
    any.nullable.Takes d x (shedNull (some x)) := by
  by_cases hnull : x = .null
  · subst hnull
    exact takes_nullable_null
  · have htakes := (takes_any h.exact hd).nullable h.exact hnull
    rw [h.canonical_eq] at htakes
    rw [shedNull_eq fun y hy ↦ Option.mem_some.mp hy ▸ hnull]
    exact htakes

/-! ## Requests -/

section

variable {method : String} {params id : Json}

/-- A request as an object whose members are in the order of their names. -/
theorem canonical_request (hparams : params.Regular) (hid : id.Regular) :
    (Request.toJson { method, params, id := some id }).canonical = .object [("id", id),
      ("jsonrpc", .string version), ("method", .string method), ("params", params)] := by
  have hmethod : ¬ "method" < "jsonrpc" := by decide
  have hlast : ¬ "params" < "jsonrpc" ∧ ¬ "params" < "method" := by decide
  have hfirst : "id" < "jsonrpc" := by decide
  change ofMembers (canonicalMembers [("jsonrpc", .string version), ("method", .string method),
    ("params", params), ("id", id)]) = _
  simp only [canonicalMembers, hparams.canonical_eq, hid.canonical_eq, canonical, ofMembers,
    Dictionary.ofList, List.foldl_cons, List.foldl_nil, Dictionary.insert, hmethod, hlast, hfirst, if_true,
    if_false, String.reduceEq]

/-- A request that was written is read. -/
theorem parse_request (hparams : params.Regular) (hid : id.Regular) (hdepth : params.depth ≤ 126)
    (hdepthId : id.depth ≤ 126) :
    parse (Request.toJson { method, params, id := some id }).bytes =
      .ok { method, params, id := some id } := by
  have hshallow : depthMembers [("jsonrpc", .string version), ("method", .string method),
      ("params", params), ("id", id)] ≤ 126 := by
    simp only [depthMembers, depth]
    omega
  have hdecode : Json.decode (Request.toJson { method, params, id := some id }).bytes =
      .ok (.object [("id", id), ("jsonrpc", .string version), ("method", .string method),
        ("params", params)]) := by
    have hexact : (Request.toJson { method, params, id := some id }).Exact :=
      ⟨trivial, trivial, hparams.exact, hid.exact, trivial⟩
    rw [Json.decode, parse_bytes hexact (Nat.succ_le_succ hshallow), canonical_request hparams hid]
    rfl
  rw [JsonRpc.parse, hdecode]
  rfl

end

/-! ## Error objects -/

namespace ErrorObject

variable {e : ErrorObject}

/-- An error object with a code of 32 bits and data that its text tells in full. -/
structure Regular (e : ErrorObject) : Prop where
  low : -0x80000000 ≤ e.code
  high : e.code < 0x80000000
  data : ∀ x ∈ e.data, x.Regular

/-- What can be read of the data of an error object: it is not `null`, and nested at most so deep. -/
def Within (d : Nat) (e : ErrorObject) : Prop := ∀ x ∈ e.data, x ≠ .null ∧ x.depth ≤ d

/-- The error object with its data left out if that is `null`. -/
def shed (e : ErrorObject) : ErrorObject := { e with data := shedNull e.data }

theorem shed_eq (h : e.Within d) : e.shed = e := by
  rw [shed, shedNull_eq fun x hx ↦ (h x hx).1]

theorem takes_code (h : e.Regular) : (signed 32).Takes d (.int e.code) e.code := by
  have hlow := h.low
  have hhigh := h.high
  have hhalf : ((Nat.pow 2 31 : Nat) : Int) = 0x80000000 := rfl
  refine takes_integer (exact_int (by omega) (by omega)) ?_ ?_
  · rw [hhalf]
    exact hlow
  · rw [hhalf]
    omega

theorem takes_toJson (h : e.Regular) (hd : ∀ x ∈ e.data, x.depth ≤ d) :
    shape.Takes (d + 1) e.toJson e.shed := by
  obtain ⟨code, message, data⟩ := e
  have hcode := takes_code (d := d) h
  cases data with
  | none =>
    exact takes_record <| .cons rfl rfl hcode.of <| .cons rfl rfl (takes_text message).of <| .nil rfl
  | some x =>
    have hdata := takes_shedNull (h.data x rfl) (hd x rfl)
    exact takes_record <| .cons rfl rfl hcode.of <| .cons rfl rfl (takes_text message).of <|
      .cons rfl rfl hdata.of <| .nil rfl

theorem exact_toJson (h : e.Regular) : e.toJson.Exact := by
  have hlow := h.low
  have hhigh := h.high
  have hcode : (Json.int e.code).Exact := exact_int (by omega) (by omega)
  obtain ⟨code, message, data⟩ := e
  cases data with
  | none => exact ⟨hcode, trivial, trivial⟩
  | some x => exact ⟨hcode, trivial, (h.data x rfl).exact, trivial⟩

theorem answers_shape : shape.Answers fun d e ↦ e.Within (d - 1) := by
  refine answers_record ?_ fun d x hx ↦ nomatch hx
  simp only [List.forall_mem_cons]
  refine ⟨?_, ?_, ?_, List.forall_mem_nil _⟩
  · exact answers_of fun d x e he ↦ he
  · exact answers_of fun d x e he ↦ he
  · exact answers_nullable_any.of fun d x e hx _ ↦ hx

end ErrorObject

/-! ## Responses -/

namespace Response

variable {r : Response}

/-- A response of which the text tells everything in full. -/
structure Regular (r : Response) : Prop where
  id : r.id.Regular
  result : ∀ x ∈ r.result, x.Regular
  error : ∀ e ∈ r.error, e.Regular

/-- What can be read of a response: nothing in it is `null` that may be absent, and what it holds is
nested at most so deep. -/
structure Within (d : Nat) (r : Response) : Prop where
  id : r.id.depth ≤ d
  result : ∀ x ∈ r.result, x ≠ .null ∧ x.depth ≤ d
  error : ∀ e ∈ r.error, e.Within (d - 1)

/-- The response with everything left out that may be absent and is `null`. -/
def shed (r : Response) : Response :=
  { r with result := shedNull r.result, error := r.error.map ErrorObject.shed }

/-- A text that was written is read, but for a `null` that may be absent. -/
theorem takes_toJson (h : r.Regular) (hid : r.id.depth ≤ d + 1)
    (hresult : ∀ x ∈ r.result, x.depth ≤ d + 1) (herror : ∀ e ∈ r.error, ∀ x ∈ e.data, x.depth ≤ d) :
    shape.Takes (d + 2) r.toJson r.shed := by
  obtain ⟨version, result, error, id⟩ := r
  have hversion := takes_text version (d := d + 1)
  have hid := takes_any h.id.exact hid
  rw [h.id.canonical_eq] at hid
  have herrors (e : ErrorObject) (he : e ∈ error) :
      ErrorObject.shape.nullable.Takes (d + 1) e.toJson (some e.shed) := by
    have htakes := ErrorObject.takes_toJson (h.error e he) (herror e he)
    exact htakes.nullable (ErrorObject.exact_toJson (h.error e he)) nofun
  refine takes_record (.cons rfl rfl hversion.of ?_)
  -- What is absent is not written, so there are as many lists of members as there are cases here.
  cases result with
  | none =>
    cases error with
    | none => exact .cons rfl rfl hid.of <| .nil rfl
    | some e => exact .cons rfl rfl (herrors e rfl).of <| .cons rfl rfl hid.of <| .nil rfl
  | some x =>
    have hshed := takes_shedNull (h.result x rfl) (hresult x rfl)
    cases error with
    | none => exact .cons rfl rfl hshed.of <| .cons rfl rfl hid.of <| .nil rfl
    | some e =>
      exact .cons rfl rfl hshed.of <| .cons rfl rfl (herrors e rfl).of <| .cons rfl rfl hid.of <| .nil rfl

theorem shed_eq (h : r.Within d) : r.shed = r := by
  have herror : r.error.map ErrorObject.shed = r.error := by
    cases he : r.error with
    | none => rfl
    | some e => exact congrArg some (ErrorObject.shed_eq (h.error e he))
  rw [shed, herror, shedNull_eq fun x hx ↦ (h.result x hx).1]

theorem answers_shape : shape.Answers fun d r ↦ r.Within (d - 1) := by
  refine answers_record ?_ fun d ↦ ⟨Nat.zero_le d, fun x hx ↦ (nomatch hx), fun e he ↦ (nomatch he)⟩
  simp only [List.forall_mem_cons]
  refine ⟨?_, ?_, ?_, ?_, List.forall_mem_nil _⟩
  · exact answers_of fun d x r hr ↦ ⟨hr.id, hr.result, hr.error⟩
  · exact answers_nullable_any.of fun d x r hx hr ↦ ⟨hr.id, hx, hr.error⟩
  · have herror : ErrorObject.shape.nullable.Answers fun d o ↦ ∀ e ∈ o, e.Within (d - 1) :=
      answers_nullable fun _ _ _ _ _ _ _ h ↦ ErrorObject.answers_shape h
    exact herror.of fun d x r hx hr ↦ ⟨hr.id, hr.result, hx⟩
  · exact answers_any.of fun d x r hx hr ↦ ⟨hx, hr.result, hr.error⟩

/-- Whatever the text, nothing is read as `null` that may be absent. -/
theorem within_of_parse {text : Bytes} (h : shape.parse text = .ok r) : r.Within 126 := by
  unfold Shape.parse Reader.finish at h
  split at h
  · cases h
  · next hread =>
    split at h
    · cases h
      exact answers_shape hread
    · cases h

/-- A response comes back if and only if there is nothing in it that cannot be read. -/
theorem parse_toJson_iff (h : r.Regular) : shape.parse r.toJson.bytes = .ok r ↔ r.Within 126 := by
  constructor
  · exact within_of_parse
  · intro hwithin
    have htakes := takes_toJson h hwithin.id (fun x hx ↦ (hwithin.result x hx).2) fun e he x hx ↦
      (hwithin.error e he x hx).2
    rw [shed_eq hwithin] at htakes
    exact htakes.parse_bytes

theorem within_ofResult {id result : Json} :
    (ofResult id result).Within d ↔ result ≠ .null ∧ id.depth ≤ d ∧ result.depth ≤ d := by
  constructor
  · intro h
    obtain ⟨hnull, hdepth⟩ := h.result result rfl
    exact ⟨hnull, h.id, hdepth⟩
  · rintro ⟨hnull, hid, hdepth⟩
    refine ⟨hid, fun x hx ↦ ?_, fun e he ↦ nomatch he⟩
    cases hx
    exact ⟨hnull, hdepth⟩

theorem within_ofError {id : Json} {e : ErrorObject} :
    (ofError id e).Within d ↔ e.data ≠ some .null ∧ id.depth ≤ d ∧ ∀ x ∈ e.data, x.depth ≤ d - 1 := by
  constructor
  · intro h
    have hdata := h.error e rfl
    exact ⟨fun hnull ↦ (hdata _ hnull).1 rfl, h.id, fun x hx ↦ (hdata x hx).2⟩
  · rintro ⟨hnull, hid, hdepth⟩
    refine ⟨hid, fun x hx ↦ (nomatch hx), fun e' he x hx ↦ ?_⟩
    cases he
    refine ⟨?_, hdepth x hx⟩
    rintro rfl
    exact hnull hx

theorem regular_ofResult {id result : Json} (hid : id.Regular) (hresult : result.Regular) :
    (ofResult id result).Regular := by
  refine ⟨hid, fun x hx ↦ ?_, fun e he ↦ nomatch he⟩
  cases hx
  exact hresult

theorem regular_ofError {id : Json} {e : ErrorObject} (hid : id.Regular) (he : e.Regular) :
    (ofError id e).Regular := by
  refine ⟨hid, fun x hx ↦ (nomatch hx), fun e' he' ↦ ?_⟩
  cases he'
  exact he

/-- A response that reports a result comes back unless the result is `null`, and one that reports an
error unless its data is `null`, as long as neither is nested too deep for the reader. A result that is
`null` leaves a response with neither a result nor an error, and data that is `null` an error without
data: in no text is there a difference between `null` and nothing. -/
theorem reread_iff {id : Json} (hid : id.Regular) :
    (∀ result : Json, result.Regular →
      (shape.parse (ofResult id result).toJson.bytes = .ok (ofResult id result) ↔
        result ≠ .null ∧ id.depth ≤ 126 ∧ result.depth ≤ 126)) ∧
    (∀ e : ErrorObject, e.Regular →
      (shape.parse (ofError id e).toJson.bytes = .ok (ofError id e) ↔
        e.data ≠ some .null ∧ id.depth ≤ 126 ∧ ∀ x ∈ e.data, x.depth ≤ 125)) ∧
    (id.depth ≤ 126 →
      shape.parse (ofResult id .null).toJson.bytes = .ok { id } ∧
      ∀ e : ErrorObject, e.Regular → e.data = some .null →
        shape.parse (ofError id e).toJson.bytes = .ok (ofError id { e with data := none })) ∧
    ∀ text r, shape.parse text = .ok r →
      r.result ≠ some .null ∧ ∀ e ∈ r.error, e.data ≠ some .null := by
  refine ⟨fun result hresult ↦ ?_, fun e he ↦ ?_, fun hdepth ↦ ⟨?_, fun e he hnull ↦ ?_⟩, ?_⟩
  · rw [parse_toJson_iff (regular_ofResult hid hresult), within_ofResult]
  · rw [parse_toJson_iff (regular_ofError hid he), within_ofError]
  · have hnull : Json.Regular .null := ⟨trivial, trivial⟩
    have htakes : shape.Takes 127 (ofResult id .null).toJson (ofResult id .null).shed :=
      takes_toJson (regular_ofResult hid hnull) hdepth (fun x hx ↦ Option.mem_some.mp hx ▸ Nat.zero_le _)
        fun e he ↦ (nomatch he)
    exact htakes.parse_bytes
  · have hshallow : ∀ e' ∈ (ofError id e).error, ∀ x ∈ e'.data, x.depth ≤ 125 := by
      intro e' he' x hx
      cases he'
      cases hnull.symm.trans hx
      exact Nat.zero_le _
    have htakes : shape.Takes 127 (ofError id e).toJson (ofError id e).shed :=
      takes_toJson (regular_ofError hid he) hdepth (fun x hx ↦ (nomatch hx)) hshallow
    have hshed : (ofError id e).shed = ofError id { e with data := none } := by
      change ofError id e.shed = _
      rw [ErrorObject.shed, hnull]
      rfl
    rw [← hshed]
    exact htakes.parse_bytes
  · intro text r h
    have hwithin := within_of_parse h
    exact ⟨fun hnull ↦ (hwithin.result _ hnull).1 rfl, fun e he hnull ↦ (hwithin.error e he _ hnull).1 rfl⟩

/-- A response with a list as its result comes back, and one with `null` does not. -/
theorem reread_list :
    let id := Json.int 7
    let result := Json.array [.string "a\n", .null]
    id.Regular ∧ result.Regular ∧
      shape.parse (ofResult id result).toJson.bytes = .ok (ofResult id result) ∧
      shape.parse (ofResult id .null).toJson.bytes = .ok { id } := by
  intro id result
  have hid : id.Regular := regular_int (by decide) (by decide)
  have hresult : result.Regular := ⟨⟨trivial, trivial, trivial⟩, ⟨trivial, trivial, trivial⟩⟩
  obtain ⟨hback, -, hlost, -⟩ := reread_iff hid
  exact ⟨hid, hresult, (hback result hresult).mpr ⟨nofun, by decide, by decide⟩, (hlost (by decide)).1⟩

/-- A result that is `null` is written and is not read: the response then has neither a result nor an
error. -/
theorem null_result_lost :
    let r := ofResult (.int 7) .null
    r.toJson.bytes = Utf8.encode "\x7b\"jsonrpc\":\"2.0\",\"result\":null,\"id\":7\x7d" ∧
      shape.parse r.toJson.bytes = .ok { id := .int 7 } ∧ shape.parse r.toJson.bytes ≠ .ok r := by
  have hread : shape.parse (ofResult (.int 7) .null).toJson.bytes = .ok { id := .int 7 } := by
    decide +kernel
  refine ⟨by decide +kernel, hread, ?_⟩
  rw [hread]
  nofun

end Response

end Interchange.JsonRpc
