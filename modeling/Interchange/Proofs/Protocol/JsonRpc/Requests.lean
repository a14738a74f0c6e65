import Interchange.Proofs.Protocol.JsonRpc.Notification

/-!
# Which bodies are requests

The adapter reads a body in steps: it has to be JSON text, the text an object, the
object a request, the request of the right version and not without a name, and the
name, or else the envelope, has to tell the service.  Taken together these are
conditions on four members of the object (`JsonRpc.parse_eq_ok_iff`), and which step
finds fault decides nothing but the wording: only the first one fails as one of
reading, and all others fail as one of the protocol (`JsonRpc.code_of_accept`).

What is read of an object by its fields is read of the members of these names alone,
whatever else the object holds (`Json.Shape.ofJson_congr`).
-/

namespace Interchange

/-- What two steps fail with is the failure of one of them. -/
theorem bind_eq_error {ε α β : Type} {x : Except ε α} {f : α → Except ε β} {e : ε} :
    x >>= f = .error e ↔ x = .error e ∨ ∃ a, x = .ok a ∧ f a = .error e := by
  cases x with
  | error e' =>
    constructor
    · exact fun h ↦ .inl (Except.error.inj h ▸ rfl)
    · rintro (h | ⟨a, h, -⟩)
      · exact Except.error.inj h ▸ rfl
      · cases h
  | ok a =>
    constructor
    · exact fun h ↦ .inr ⟨a, rfl, h⟩
    · rintro (h | ⟨a', h, hf⟩)
      · cases h
      · exact Except.ok.inj h ▸ hf

theorem Json.decode_of_parse {text : Bytes} {j : Json} (h : Json.parse text = .ok j) :
    Json.decode text = .ok j := by
  rw [decode, h]
  rfl

/-! ## Records -/

namespace Json.Shape

variable {σ γ α : Type} {fields : List (Field σ)} {name label : String} {blank r : σ}
  {members members' : Dictionary Json}

theorem missing?_eq_none_iff {present : List String} :
    missing? fields present = none ↔ ∀ f ∈ fields, f.absence = .never → f.name ∈ present := by
  simp [missing?, List.find?_eq_none]

theorem exists_fillFromMembers_iff :
    (∃ r', fillFromMembers fields members r = .ok r') ↔
      ∀ e ∈ members, ∀ f, fields.find? (·.name = e.1) = some f → ∃ set, f.content.ofJson e.2 = .ok set := by
  induction members generalizing r with
  | nil => simp [fillFromMembers]
  | cons e rest ih =>
    obtain ⟨key, j⟩ := e
    rw [List.forall_mem_cons, fillFromMembers]
    cases hf : fields.find? (·.name = key) with
    | none => simp [ih]
    | some f =>
      simp only [Option.some.injEq, forall_eq']
      constructor
      · rintro ⟨r', h⟩
        obtain ⟨set, hset, h⟩ := bind_eq_ok.mp h
        exact ⟨⟨set, hset⟩, ih.mp ⟨r', h⟩⟩
      · rintro ⟨⟨set, hset⟩, hrest⟩
        exact exists_bind hset (ih.mpr hrest)

/-- A record is read from an object if every field is read from the member of its name, and the fields
that must be there are. -/
theorem exists_ofJson_iff (hnames : (fields.map Field.name).Nodup) (hsorted : Dictionary.Sorted members) :
    (∃ r, (record label blank fields).ofJson (.object members) = .ok r) ↔
      ∀ f ∈ fields, (f.absence = .never → (members.get? f.name).isSome) ∧
        ∀ j, members.get? f.name = some j → ∃ set, f.content.ofJson j = .ok set := by
  have hfilled : (∃ r, (record label blank fields).ofJson (.object members) = .ok r) ↔
      (∃ r, fillFromMembers fields members blank = .ok r) ∧
        missing? fields (Dictionary.keys members) = none := by
    constructor
    · rintro ⟨r, h⟩
      obtain ⟨r', hr', h⟩ := bind_eq_ok.mp h
      split at h
      · cases h
      · next hmissing => exact ⟨⟨r', hr'⟩, hmissing⟩
    · rintro ⟨⟨r, hr⟩, hmissing⟩
      exact exists_bind hr ⟨r, by rw [hmissing]⟩
  rw [hfilled, exists_fillFromMembers_iff, missing?_eq_none_iff]
  constructor
  · rintro ⟨hread, hpresent⟩ f hf
    refine ⟨fun hnever ↦ Dictionary.mem_keys_iff.mp (hpresent f hf hnever), fun j hj ↦ ?_⟩
    obtain ⟨f', hf'⟩ : ∃ f', fields.find? (·.name = f.name) = some f' :=
      Option.isSome_iff_exists.mp (List.find?_isSome.mpr ⟨f, hf, by simp⟩)
    have hname : f'.name = f.name := by simpa using List.find?_some hf'
    have heq : f' = f := List.inj_on_of_nodup_map hnames (List.mem_of_find?_eq_some hf') hf hname
    exact hread _ (Dictionary.mem_of_get?_eq_some hj) f (heq ▸ hf')
  · intro h
    refine ⟨fun e he f hf ↦ ?_, fun f hf hnever ↦ Dictionary.mem_keys_iff.mpr ((h f hf).1 hnever)⟩
    have hname : f.name = e.1 := by simpa using List.find?_some hf
    exact (h f (List.mem_of_find?_eq_some hf)).2 e.2 (hname ▸ hsorted.get?_eq_some_iff.mpr he)

/-- A part of a record that only one field touches is what this field was read as, or what it was. -/
theorem part_of_field (p : σ → γ) {absence : Absence} {shape : Shape α} {put : α → σ → σ} (view : α → γ)
    (h : (record label blank fields).ofJson (.object members) = .ok r) (hsorted : Dictionary.Sorted members)
    (hf : fields.find? (·.name = name) = some (.of name absence shape put))
    (hkeeps : ∀ f ∈ fields, f.name ≠ name → f.Keeps p) (hput : ∀ x r, p (put x r) = view x) :
    (members.get? name = none → p r = p blank) ∧
      ∀ j x, members.get? name = some j → shape.ofJson j = .ok x → p r = view x := by
  have hpart := part_of_ofJson p name (fun j ↦ ((shape.ofJson j).toOption.map view).getD (p r)) h hsorted
    hf hkeeps fun j set hset r' ↦ by
      obtain ⟨x, hx, rfl⟩ := Field.ofJson_of hset
      simp [hput, hx, Except.toOption]
  constructor
  · intro hnone
    rw [hpart, hnone]
    rfl
  · intro j x hj hx
    rw [hpart, hj]
    simp [hx, Except.toOption]

theorem fillFromMembers_filter (fields : List (Field σ)) (members : Dictionary Json) (r : σ) :
    fillFromMembers fields (members.filter fun e ↦ fields.any (·.name = e.1)) r =
      fillFromMembers fields members r := by
  induction members generalizing r with
  | nil => rfl
  | cons e rest ih =>
    obtain ⟨key, j⟩ := e
    rw [List.filter_cons, fillFromMembers]
    cases hf : fields.find? (·.name = key) with
    | none =>
      have hnone : fields.any (·.name = key) = false := by simpa using hf
      rw [if_neg (by simp [hnone]), ih]
    | some f =>
      have hname : decide (f.name = key) = true := by simpa using List.find?_some hf
      have hsome : fields.any (·.name = key) = true :=
        List.any_eq_true.mpr ⟨f, List.mem_of_find?_eq_some hf, hname⟩
      rw [if_pos hsome, fillFromMembers, hf]
      simp only [ih]

/-- Objects that have the same members for the fields are read as the same. -/
theorem ofJson_congr (hsorted : Dictionary.Sorted members) (hsorted' : Dictionary.Sorted members')
    (heq : ∀ f ∈ fields, members.get? f.name = members'.get? f.name) :
    (record label blank fields).ofJson (.object members) =
      (record label blank fields).ofJson (.object members') := by
  have hfilter : members.filter (fun e ↦ fields.any (·.name = e.1)) =
      members'.filter (fun e ↦ fields.any (·.name = e.1)) := by
    refine Dictionary.Sorted.ext (List.Pairwise.filter _ hsorted) (List.Pairwise.filter _ hsorted') fun key ↦ ?_
    rw [hsorted.get?_filter, hsorted'.get?_filter]
    by_cases hkey : fields.any (·.name = key) = true
    · obtain ⟨f, hf, hname⟩ := List.any_eq_true.mp hkey
      rw [← of_decide_eq_true hname, heq f hf]
    · simp [hkey]
  have hmissing : missing? fields (Dictionary.keys members) = missing? fields (Dictionary.keys members') := by
    have hsame : ∀ f ∈ fields, (Dictionary.keys members).contains f.name =
        (Dictionary.keys members').contains f.name := fun f hf ↦ by
      rw [Bool.eq_iff_iff, List.contains_iff_mem, List.contains_iff_mem, Dictionary.mem_keys_iff,
        Dictionary.mem_keys_iff, heq f hf]
    have hfind : fields.find? (fun f ↦ f.absence = .never && !(Dictionary.keys members).contains f.name) =
        fields.find? fun f ↦ f.absence = .never && !(Dictionary.keys members').contains f.name := by
      clear hfilter heq
      induction fields with
      | nil => rfl
      | cons f fields ih =>
        obtain ⟨hf, hfields⟩ := List.forall_mem_cons.mp hsame
        rw [List.find?_cons, List.find?_cons, hf, ih hfields]
    rw [missing?, missing?, hfind]
  have hfill : fillFromMembers fields members blank = fillFromMembers fields members' blank := by
    rw [← fillFromMembers_filter fields members, hfilter, fillFromMembers_filter]
  simp only [record, hfill, hmissing]

end Json.Shape

/-! ## Names -/

/-- The service that an envelope names in its field or, if nothing stands there, in its header. Blanks at
the ends do not count. -/
inductive Inbound.Names (m : Inbound) : String → Prop
  | field {s : String} : m.service = some s → Text.isBlank s = false → Names m (Text.trim s)
  | header {s : String} : (∀ x, m.service = some x → Text.isBlank x = true) →
      m.header? Headers.service = some s → Text.isBlank s = false → Names m (Text.trim s)

theorem isEmpty_trim (s : String) : (Text.trim s).isEmpty = Text.isBlank s := by
  rw [Bool.eq_iff_iff, String.isEmpty_iff, Text.trim, String.ofList_eq_empty_iff,
    Text.trimChars_eq_nil_iff, Text.isBlank]

theorem nonBlank?_eq_some_iff {s : Option String} {name : String} :
    nonBlank? s = some name ↔ ∃ x, s = some x ∧ Text.isBlank x = false ∧ Text.trim x = name := by
  rw [nonBlank?, Option.bind_eq_some_iff]
  refine exists_congr fun x ↦ and_congr_right fun _ ↦ ?_
  rw [isEmpty_trim]
  cases Text.isBlank x <;> simp

theorem nonBlank?_eq_none_iff {s : Option String} :
    nonBlank? s = none ↔ ∀ x, s = some x → Text.isBlank x = true := by
  rw [Option.eq_none_iff_forall_ne_some]
  constructor
  · intro h x hx
    by_contra hblank
    exact h _ (nonBlank?_eq_some_iff.mpr ⟨x, hx, Bool.not_eq_true _ ▸ hblank, rfl⟩)
  · rintro h name hname
    obtain ⟨x, hx, hblank, -⟩ := nonBlank?_eq_some_iff.mp hname
    rw [h x hx] at hblank
    cases hblank

theorem Inbound.service?_eq_some_iff {m : Inbound} {service : String} :
    m.service? = some service ↔ m.Names service := by
  rw [service?, Option.or_eq_some_iff]
  constructor
  · rintro (h | ⟨hnone, h⟩)
    · obtain ⟨x, hx, hblank, rfl⟩ := nonBlank?_eq_some_iff.mp h
      exact .field hx hblank
    · obtain ⟨x, hx, hblank, rfl⟩ := nonBlank?_eq_some_iff.mp h
      exact .header (nonBlank?_eq_none_iff.mp hnone) hx hblank
  · rintro (⟨hx, hblank⟩ | ⟨hnone, hx, hblank⟩)
    · exact .inl (nonBlank?_eq_some_iff.mpr ⟨_, hx, hblank, rfl⟩)
    · exact .inr ⟨nonBlank?_eq_none_iff.mpr hnone, nonBlank?_eq_some_iff.mpr ⟨_, hx, hblank, rfl⟩⟩

namespace JsonRpc

/-! ## Requests -/

/-- The members of an object that make it a request. -/
structure Reads (members : Dictionary Json) (request : Request) : Prop where
  version_eq : request.version = "2.0"
  version : members.get? "jsonrpc" = none ∨ members.get? "jsonrpc" = some (.string "2.0")
  method : members.get? "method" = some (.string request.method)
  params : request.params = (members.get? "params").getD .null
  id : request.id = members.get? "id"

variable {members members' : Dictionary Json} {request : Request} {body body' : Bytes} {f : Failure}

theorem ofJson_text_eq_ok_iff {j : Json} {s : String} :
    Json.Shape.text.ofJson j = .ok s ↔ j = .string s := by
  cases j <;> simp [Json.Shape.text]

theorem exists_request_iff (hsorted : Dictionary.Sorted members) :
    (∃ request, Request.shape.ofJson (.object members) = .ok request) ↔
      (∃ name, members.get? "method" = some (.string name)) ∧
        ∀ j, members.get? "jsonrpc" = some j → ∃ version, j = .string version := by
  have hof {α : Type} {name : String} {absence : Json.Shape.Absence} {shape : Json.Shape α}
      {put : α → Request → Request} {j : Json} :
      (∃ set, (Json.Shape.Field.of name absence shape put).content.ofJson j = .ok set) ↔
        ∃ x, shape.ofJson j = .ok x := by
    constructor
    · rintro ⟨set, hset⟩
      obtain ⟨x, hx, -⟩ := Json.Shape.Field.ofJson_of hset
      exact ⟨x, hx⟩
    · rintro ⟨x, hx⟩
      exact ⟨put x, by change (shape.ofJson j).map put = _; rw [hx]; rfl⟩
  rw [Request.shape, Json.Shape.exists_ofJson_iff (by decide) hsorted]
  simp only [List.forall_mem_cons, hof, ofJson_text_eq_ok_iff]
  constructor
  · rintro ⟨⟨-, hversion⟩, ⟨hthere, hmethod⟩, -⟩
    obtain ⟨j, hj⟩ := Option.isSome_iff_exists.mp (hthere rfl)
    obtain ⟨name, rfl⟩ := hmethod j hj
    exact ⟨⟨name, hj⟩, hversion⟩
  · rintro ⟨⟨name, hname⟩, hversion⟩
    refine ⟨⟨nofun, hversion⟩, ⟨fun _ ↦ ?_, fun j hj ↦ ⟨name, ?_⟩⟩, ⟨nofun, fun j _ ↦ ⟨j, rfl⟩⟩,
      ⟨nofun, fun j _ ↦ ⟨j, rfl⟩⟩, List.forall_mem_nil _⟩
    · exact Option.isSome_iff_exists.mpr ⟨_, hname⟩
    · exact Option.some.inj (hj.symm.trans hname)

/-- What a request is read as, member by member. -/
theorem parts_of_ofJson (hsorted : Dictionary.Sorted members)
    (h : Request.shape.ofJson (.object members) = .ok request) :
    (∀ s, members.get? "jsonrpc" = some (.string s) → request.version = s) ∧
      (members.get? "jsonrpc" = none → request.version = "2.0") ∧
      (∀ s, members.get? "method" = some (.string s) → request.method = s) ∧
      request.params = (members.get? "params").getD .null ∧ request.id = members.get? "id" := by
  obtain ⟨hnone, hversion⟩ := Json.Shape.part_of_field Request.version id h hsorted rfl
    (by simp only [List.forall_mem_cons]
        refine ⟨fun hne ↦ absurd rfl hne, fun _ ↦ ?_, fun _ ↦ ?_, fun _ ↦ ?_, List.forall_mem_nil _⟩
        all_goals exact Json.Shape.Field.keeps_of fun _ _ ↦ rfl)
    fun _ _ ↦ rfl
  obtain ⟨-, hmethod⟩ := Json.Shape.part_of_field Request.method id h hsorted rfl
    (by simp only [List.forall_mem_cons]
        refine ⟨fun _ ↦ ?_, fun hne ↦ absurd rfl hne, fun _ ↦ ?_, fun _ ↦ ?_, List.forall_mem_nil _⟩
        all_goals exact Json.Shape.Field.keeps_of fun _ _ ↦ rfl)
    fun _ _ ↦ rfl
  obtain ⟨hplain, hparams⟩ := Json.Shape.part_of_field Request.params id h hsorted rfl
    (by simp only [List.forall_mem_cons]
        refine ⟨fun _ ↦ ?_, fun _ ↦ ?_, fun hne ↦ absurd rfl hne, fun _ ↦ ?_, List.forall_mem_nil _⟩
        all_goals exact Json.Shape.Field.keeps_of fun _ _ ↦ rfl)
    fun _ _ ↦ rfl
  refine ⟨fun s hs ↦ hversion _ s hs rfl, hnone, fun s hs ↦ hmethod _ s hs rfl, ?_, id_of_ofJson hsorted h⟩
  cases hget : members.get? "params" with
  | none => exact hplain hget
  | some j => exact hparams j j hget rfl

/-- A body is a request if it holds an object whose members make it one. -/
theorem parse_eq_ok_iff :
    parse body = .ok request ↔ ∃ members, Json.parse body = .ok (.object members) ∧ Reads members request := by
  constructor
  · intro h
    obtain ⟨j, hj, h⟩ := bind_eq_ok.mp h
    split at h
    · next members =>
      split at h
      · cases h
      · next request' hrequest =>
        split at h
        · cases h
        · next hversion =>
          cases h
          have hsorted : Dictionary.Sorted members := (Json.ordered_decode hj).1
          obtain ⟨⟨name, hname⟩, hstring⟩ := (exists_request_iff hsorted).mp ⟨_, hrequest⟩
          obtain ⟨hsome, -, hmethod, hparams, hid⟩ := parts_of_ofJson hsorted hrequest
          have hversion : request.version = "2.0" := Decidable.not_not.mp hversion
          refine ⟨members, Json.parse_of_decode hj, hversion, ?_, hmethod name hname ▸ hname, hparams, hid⟩
          cases hget : Dictionary.get? members "jsonrpc" with
          | none => exact .inl rfl
          | some j =>
            obtain ⟨s, rfl⟩ := hstring j hget
            exact .inr (by rw [← hsome s hget, hversion])
    · cases h
    · cases h
  · rintro ⟨members, hparse, hreads⟩
    have hsorted : Dictionary.Sorted members := (Json.ordered_parse hparse).1
    obtain ⟨request', hrequest⟩ := (exists_request_iff hsorted).mpr
      ⟨⟨_, hreads.method⟩, fun j hj ↦ ⟨"2.0", by
        rcases hreads.version with h | h
        · cases h.symm.trans hj
        · exact Option.some.inj (hj.symm.trans h)⟩⟩
    obtain ⟨hsome, hnone, hmethod, hparams, hid⟩ := parts_of_ofJson hsorted hrequest
    have hversion : request'.version = "2.0" := hreads.version.elim hnone (hsome _)
    have heq : request' = request := by
      obtain ⟨v, name, params, id⟩ := request
      obtain ⟨v', name', params', id'⟩ := request'
      simp only [Request.mk.injEq]
      exact ⟨hversion.trans hreads.version_eq.symm, hmethod _ hreads.method, hparams.trans hreads.params.symm,
        hid.trans hreads.id.symm⟩
    refine bind_eq_ok.mpr ⟨_, Json.decode_of_parse hparse, ?_⟩
    dsimp only
    rw [hrequest]
    dsimp only
    rw [if_neg (by rw [hversion]; decide), heq]

/-- Nothing but the four members of a request matters. -/
theorem parse_congr (h : Json.parse body = .ok (.object members)) (h' : Json.parse body' = .ok (.object members'))
    (heq : ∀ key ∈ ["jsonrpc", "method", "params", "id"], members.get? key = members'.get? key) :
    parse body = parse body' := by
  have hshape : Request.shape.ofJson (.object members) = Request.shape.ofJson (.object members') :=
    Json.Shape.ofJson_congr (Json.ordered_parse h).1 (Json.ordered_parse h').1 (by
      simp only [List.forall_mem_cons] at heq ⊢
      exact ⟨heq.1, heq.2.1, heq.2.2.1, heq.2.2.2.1, List.forall_mem_nil _⟩)
  simp only [parse, Json.decode_of_parse h, Json.decode_of_parse h', bind, Except.bind, hshape]

/-! ## Failures -/

/-- Where the body can be read at all, it is the protocol that is not kept. -/
theorem code_of_parse (h : parse body = .error f) {j : Json} (hj : Json.parse body = .ok j) :
    f.code = .protocol := by
  rcases bind_eq_error.mp h with h | ⟨j', -, h⟩
  · cases (Json.decode_of_parse hj).symm.trans h
  · split at h
    · split at h
      · cases h; rfl
      · split at h
        · cases h; rfl
        · cases h
    · cases h; rfl
    · cases h; rfl

theorem code_of_target {m : Inbound} {name : String} (h : target m name = .error f) : f.code = .protocol := by
  unfold target at h
  split at h
  · cases h
  · split at h
    · cases h
    · cases h; rfl

theorem code_of_accept {a : JsonRpc} (hwrites : a.codec.Writes) {fresh : TraceId} {m : Inbound}
    (hm : m.protocol = .jsonRpc) (h : a.accept fresh m = .error f) {j : Json}
    (hj : Json.parse m.body = .ok j) : f.code = .protocol := by
  rcases bind_eq_error.mp h with h | ⟨-, -, h⟩
  · have hprotocol : requireProtocol protocols m.protocol = .ok () :=
      requireProtocol_eq_ok.mpr (List.mem_singleton.mpr hm)
    cases hprotocol.symm.trans h
  · rcases bind_eq_error.mp h with h | ⟨request, -, h⟩
    · exact code_of_parse h hj
    · split at h
      · cases h; rfl
      · rcases bind_eq_error.mp h with h | ⟨⟨service, method⟩, -, h⟩
        · exact code_of_target h
        · obtain ⟨payload, hpayload⟩ := hwrites request.params
          rcases bind_eq_error.mp h with h | ⟨written, -, h⟩
          · cases hpayload.symm.trans h
          · dsimp only at h
            split at h <;> cases h

/-- What cannot be read at all is not accepted. -/
theorem accept_of_parse {a : JsonRpc} {fresh : TraceId} {m : Inbound} (hm : m.protocol = .jsonRpc)
    (h : ∀ j, Json.parse m.body ≠ .ok j) :
    ∃ f, a.accept fresh m = .error f ∧ f.code = .serialization := by
  cases hdecode : Json.decode m.body with
  | ok j => exact absurd (Json.parse_of_decode hdecode) (h j)
  | error f =>
    refine ⟨f, bind_eq_error.mpr (.inr ⟨(), ?_, bind_eq_error.mpr (.inl (bind_eq_error.mpr (.inl hdecode)))⟩),
      (Json.code_of_decode hdecode).1⟩
    exact requireProtocol_eq_ok.mpr (List.mem_singleton.mpr hm)

/-! ## What is accepted -/

/-- The members of an object that make it, in this envelope, a request of this name that says where it
goes. -/
structure Accepts (m : Inbound) (members : Dictionary Json) (name : String) : Prop where
  version : members.get? "jsonrpc" = none ∨ members.get? "jsonrpc" = some (.string "2.0")
  method : members.get? "method" = some (.string name)
  notBlank : Text.isBlank name = false
  addressed : (∃ service method, Qualifies name service method) ∨ ∃ service, m.Names service

/-- What is known of the call that a request of this name has become. -/
structure Makes (a : JsonRpc) (m : Inbound) (members : Dictionary Json) (name : String) (c : Call) :
    Prop where
  qualified {service method : String} : Qualifies name service method → c.service = service ∧ c.method = method
  unqualified : (∀ service method, ¬ Qualifies name service method) → m.Names c.service ∧ c.method = name
  payload : a.codec.encode ((members.get? "params").getD .null) = .ok c.payload
  identified {id : Json} : members.get? "id" = some id →
    c.metadata.get? Metadata.jsonRpcId = some id ∧ c.pattern = m.pattern
  notified : members.get? "id" = none → c.metadata = m.metadata ∧ c.pattern = .publishSubscribe

theorem exists_target_iff_qualifies {m : Inbound} {name : String} :
    (∃ t, target m name = .ok t) ↔
      (∃ service method, Qualifies name service method) ∨ ∃ service, m.Names service := by
  rw [exists_target_iff]
  simp only [Option.isSome_iff_exists, Prod.exists, splitMethod?_eq_some_iff, Inbound.service?_eq_some_iff]

theorem target_eq_ok_iff {m : Inbound} {name service method : String} :
    target m name = .ok (service, method) ↔
      Qualifies name service method ∨
        (∀ s n, ¬ Qualifies name s n) ∧ m.Names service ∧ method = name := by
  simp only [← splitMethod?_eq_some_iff, ← Inbound.service?_eq_some_iff]
  unfold target
  cases splitMethod? name with
  | some t =>
    constructor
    · exact fun h ↦ .inl (congrArg some (Except.ok.inj h))
    · rintro (h | ⟨h, -⟩)
      · exact congrArg Except.ok (Option.some.inj h)
      · exact absurd rfl (h t.1 t.2)
  | none =>
    cases m.service? with
    | none => simp
    | some s => simp [eq_comm]

/-- A message becomes a call if its body holds an object that makes a request which says where it goes. -/
theorem exists_accept_iff_accepts {a : JsonRpc} (hwrites : a.codec.Writes) {fresh : TraceId} {m : Inbound}
    (hm : m.protocol = .jsonRpc) :
    (∃ c, a.accept fresh m = .ok c) ↔
      ∃ members name, Json.parse m.body = .ok (.object members) ∧ Accepts m members name := by
  rw [exists_accept_iff hwrites hm]
  constructor
  · rintro ⟨request, hrequest, hblank, hnamed⟩
    obtain ⟨members, hparse, hreads⟩ := parse_eq_ok_iff.mp hrequest
    exact ⟨members, request.method, hparse, hreads.version, hreads.method, hblank,
      exists_target_iff_qualifies.mp (exists_target_iff.mpr hnamed)⟩
  · rintro ⟨members, name, hparse, hversion, hmethod, hblank, haddressed⟩
    have hrequest : parse m.body = .ok
        { version := "2.0", method := name, params := (Dictionary.get? members "params").getD .null
          id := Dictionary.get? members "id" } :=
      parse_eq_ok_iff.mpr ⟨members, hparse, rfl, hversion, hmethod, rfl, rfl⟩
    exact ⟨_, hrequest, hblank, exists_target_iff.mp (exists_target_iff_qualifies.mpr haddressed)⟩

/-- The call is made of the name, the parameters and the id of the request. -/
theorem makes_of_accept {a : JsonRpc} {fresh : TraceId} {m : Inbound} {c : Call}
    (h : a.accept fresh m = .ok c) (hparse : Json.parse m.body = .ok (.object members)) :
    ∃ name, members.get? "method" = some (.string name) ∧ Makes a m members name c := by
  obtain ⟨-, request, service, method, payload, hrequest, -, htarget, hpayload, rfl⟩ :=
    accept_eq_ok_iff.mp h
  obtain ⟨members', hparse', hreads⟩ := parse_eq_ok_iff.mp hrequest
  cases hparse.symm.trans hparse'
  -- Whether there is an id or not, the rest of the call is the same.
  have hcall (id : Option Json) (c : Call) : (c.identified id).service = c.service ∧
      (c.identified id).method = c.method ∧ (c.identified id).payload = c.payload := by
    cases id <;> exact ⟨rfl, rfl, rfl⟩
  obtain ⟨hservice, hmethod, hsame⟩ := hcall request.id
    ((m.toCall fresh service method payload).withHeader Headers.contentType a.codec.contentType)
  refine ⟨request.method, hreads.method, fun {s n} hname ↦ ?_, fun hnone ↦ ?_, ?_, fun {id} hid ↦ ?_,
    fun hid ↦ ?_⟩
  · rw [target, splitMethod?_eq_some_iff.mpr hname] at htarget
    cases htarget
    exact ⟨hservice, hmethod⟩
  · rcases target_eq_ok_iff.mp htarget with hname | ⟨-, hnames, rfl⟩
    · exact absurd hname (hnone _ _)
    · rw [hservice, hmethod]
      exact ⟨hnames, rfl⟩
  · rw [hsame, ← hreads.params]
    exact hpayload
  · rw [hreads.id, hid]
    exact ⟨Dictionary.get?_insert_self .., rfl⟩
  · rw [hreads.id, hid]
    exact ⟨rfl, rfl⟩

/-- With a codec that refuses no parameters, a JSON-RPC message becomes a call if and only if its body is
JSON text of an object whose `method` is a text that is not blank, whose `jsonrpc` is absent or `2.0`, and
which says where it goes, be it in the name of the method or in the envelope.

* What is no JSON text fails as one that cannot be read, and everything else that fails as one that does
  not keep the protocol.
* If the name has a point with something on both sides of the first one, then the service stands before
  it and the method behind it; if not, then the name is the method and the envelope names the service.
* The payload encodes `params`, or `null` if there are none.
* The value of `id` is noted, also if it is `null`; without an `id` the call is a published message and
  keeps the metadata of the envelope.
* Other members of the object make no difference. -/
theorem request_decides (a : JsonRpc) (hwrites : a.codec.Writes) (fresh : TraceId) {m : Inbound}
    (hm : m.protocol = .jsonRpc) :
    ((∃ c, a.accept fresh m = .ok c) ↔
      ∃ members name, Json.parse m.body = .ok (.object members) ∧ Accepts m members name) ∧
    ((∃ f, a.accept fresh m = .error f ∧ f.code = .serialization) ↔ ∀ j, Json.parse m.body ≠ .ok j) ∧
    ((∃ f, a.accept fresh m = .error f ∧ f.code = .protocol) ↔
      (∃ j, Json.parse m.body = .ok j) ∧
        ¬ ∃ members name, Json.parse m.body = .ok (.object members) ∧ Accepts m members name) ∧
    (∀ c, a.accept fresh m = .ok c → ∃ members name, Json.parse m.body = .ok (.object members) ∧
      Accepts m members name ∧ Makes a m members name c) ∧
    ∀ (members members' : Dictionary Json) (body' : Bytes), Json.parse m.body = .ok (.object members) →
      Json.parse body' = .ok (.object members') →
      (∀ key ∈ ["jsonrpc", "method", "params", "id"], members.get? key = members'.get? key) →
      a.accept fresh { m with body := body' } = a.accept fresh m := by
  have haccepts : (∃ c, a.accept fresh m = .ok c) ↔
      ∃ members name, Json.parse m.body = .ok (.object members) ∧ Accepts m members name :=
    exists_accept_iff_accepts hwrites hm
  refine ⟨haccepts, ⟨?_, accept_of_parse hm⟩, ⟨?_, ?_⟩, ?_, ?_⟩
  · rintro ⟨f, hf, hcode⟩ j hj
    rw [code_of_accept hwrites hm hf hj] at hcode
    cases hcode
  · rintro ⟨f, hf, hcode⟩
    refine ⟨?_, fun h ↦ ?_⟩
    · by_contra hnone
      obtain ⟨f', hf', hcode'⟩ : ∃ f, a.accept fresh m = .error f ∧ f.code = .serialization :=
        accept_of_parse hm fun j hj ↦ hnone ⟨j, hj⟩
      cases hf.symm.trans hf'
      rw [hcode] at hcode'
      cases hcode'
    · obtain ⟨c, hc⟩ := haccepts.mpr h
      cases hc.symm.trans hf
  · rintro ⟨⟨j, hj⟩, hnot⟩
    cases h : a.accept fresh m with
    | ok c => exact absurd (haccepts.mp ⟨c, h⟩) hnot
    | error f => exact ⟨f, rfl, code_of_accept hwrites hm h hj⟩
  · intro c hc
    obtain ⟨members, name, hparse, haccepted⟩ := haccepts.mp ⟨c, hc⟩
    obtain ⟨name', hname', hmakes⟩ := makes_of_accept hc hparse
    cases haccepted.method.symm.trans hname'
    exact ⟨members, name, hparse, haccepted, hmakes⟩
  · intro members members' body' hparse hparse' heq
    have hsame : parse body' = parse m.body := (parse_congr hparse hparse' heq).symm
    change (requireProtocol protocols m.protocol >>= fun _ ↦ parse body' >>= _) = _
    rw [hsame]
    rfl

/-- The name of the method has a second point, the id is `null`, and there is a member that means nothing. -/
theorem request_decides_null_id :
    let fresh : TraceId := ⟨"t", by decide⟩
    let m : Inbound :=
      { protocol := .jsonRpc
        body := Utf8.encode "\x7b\"method\":\"Calculator.add.v2\",\"id\":null,\"x\":[1]\x7d" }
    m.protocol = .jsonRpc ∧
      ∃ c, accept {} fresh m = .ok c ∧ c.service = "Calculator" ∧ c.method = "add.v2" ∧
        Codec.json.encode .null = .ok c.payload ∧ c.metadata.get? Metadata.jsonRpcId = some .null := by
  intro fresh m
  have hparse : Json.parse m.body = .ok (.object
      [("id", .null), ("method", .string "Calculator.add.v2"), ("x", .array [.int 1])]) := by
    decide +kernel
  have hname : Qualifies "Calculator.add.v2" "Calculator" "add.v2" :=
    ⟨by decide +kernel, by decide +kernel, by decide, by decide⟩
  obtain ⟨haccepts, -, -, hmakes, -⟩ := request_decides {} Codec.writes_json fresh (m := m) rfl
  obtain ⟨c, hc⟩ := haccepts.mpr
    ⟨_, _, hparse, .inl rfl, rfl, by decide +kernel, .inl ⟨_, _, hname⟩⟩
  obtain ⟨members, name, hparse', haccepted, hcall⟩ := hmakes c hc
  cases hparse.symm.trans hparse'
  cases haccepted.method
  obtain ⟨hservice, hmethod⟩ := hcall.qualified hname
  exact ⟨rfl, c, hc, hservice, hmethod, hcall.payload, (hcall.identified rfl).1⟩

end JsonRpc

end Interchange
