import ApiDouble.Import.OpenApi
import ApiDouble.Proofs.Collection.Lists
import ApiDouble.Proofs.Import.Noted

/-!
# Examples of responses

**Exchanges.** The examples of all responses of an operation stand in one list (`answersOf`), and of
those with a value the first one of each name records an exchange. It is joined by what has its name
elsewhere: the first body of the request, the parameters, the headers of the response (`joined?`).

**Accounting.** Every other example of a response is named by a warning of its own, and so is every
example of a request body that joins no exchange (`responses_accounted`). This is kept by each
response that the import goes on to (`joins_addRecorded`, `joins_addResponse`).

Main results: `mem_answersOf_iff`, `name_operation`, `joins_addResponse`, `responses_accounted`.
-/

namespace ApiDouble.Import.OpenApi

open Text Noted

variable {resolve : Resolver} {node : Document} {ps : List Declared}

/-! ## Values of examples -/

/-- The value of an example, its references followed. -/
def exampleValue? (resolve : Resolver) (node : Document) : Option Document :=
  (resolve node).toOption.bind (·.get? "value")

/-- The value of the example with a name among those of a node. -/
def exampleNamed? (resolve : Resolver) (name : String) (node : Document) : Option Document :=
  ((node.get "examples").get? name).bind (exampleValue? resolve)

theorem value_value? (resolve : Resolver) (unit : String) (node : Document) :
    (value? resolve unit node).value = exampleValue? resolve node := by
  unfold value? exampleValue?
  cases resolve node with
  | error e => rfl
  | ok found =>
    rw [orDangling_ok, pure_bind]
    show _ = found.get? "value"
    cases hv : found.get? "value" with
    | none => simp only [hv]; rfl
    | some v => simp only [hv]; rfl

/-- An example without a value is named by one warning. -/
theorem warnings_value? (unit : String) (h : exampleValue? resolve node = none) :
    ∃ w, (value? resolve unit node).warnings = [w] ∧ w.unit = unit := by
  unfold exampleValue? at h
  unfold value?
  cases hr : resolve node with
  | error e => exact ⟨_, rfl, rfl⟩
  | ok found =>
    rw [hr] at h
    have hnone : found.get? "value" = none := h
    rw [orDangling_ok, pure_bind]
    simp only [hnone]
    exact ⟨_, rfl, rfl⟩

theorem value_exampleOf? (resolve : Resolver) (unit name : String) (node : Document) :
    (exampleOf? resolve unit name node).value = exampleNamed? resolve name node := by
  unfold exampleOf? exampleNamed?
  cases (node.get "examples").get? name with
  | none => rfl
  | some e => exact value_value? resolve unit e

/-! ## What joins an exchange -/

/-- The first body with a value for a name. -/
def joinedBody? (resolve : Resolver) (name : String) (node : Document) : Option (String × String) :=
  ((node.get "requestBody").get "content").members.findSome? fun c =>
    (exampleNamed? resolve name c.2).map fun v => (v.text, c.1)

/-- The parameters at some locations that have a value for a name, with their values. -/
def joinedValues (resolve : Resolver) (name : String) (ps : List Declared)
    (located : String → Bool) : List (String × String) :=
  (ps.filter fun p => located p.location).filterMap fun p =>
    (exampleNamed? resolve name p.node).map fun v => (p.name, v.text)

/-- The request with a name. -/
def joinedRequest (resolve : Resolver) (node : Document) (ps : List Declared) (name : String) :
    Message where
  name := name
  content := (joinedBody? resolve name node).map (·.1)
  mediaType := (joinedBody? resolve name node).map (·.2)
  headers := (joinedValues resolve name ps (· == "header")).map fun v => .ofCsv v.1 v.2
  parameters := (joinedValues resolve name ps fun l => l == "path" || l == "query").map fun v =>
    ⟨v.1, v.2⟩

/-- The headers of a response that have a value for a name. -/
def joinedHeaders (resolve : Resolver) (name : String) (response : Document) : List Header :=
  (response.get "headers").members.filterMap fun m =>
    ((resolve m.2).toOption.bind (exampleNamed? resolve name)).map fun v => .ofCsv m.1 v.text

/-- The exchange that an example of a response stands for, if it has a value. -/
def joined? (resolve : Resolver) (node : Document) (ps : List Declared) (r : Recorded) :
    Option Exchange :=
  (exampleValue? resolve r.node).map fun v =>
    .requestResponse (joinedRequest resolve node ps r.name) {
      name := r.name
      status := some r.status
      content := some v.text
      mediaType := some r.mediaType
      headers := joinedHeaders resolve r.name r.response }

theorem name_joined {r : Recorded} {e : Exchange} (h : joined? resolve node ps r = some e) :
    e.name = r.name := by
  obtain ⟨v, -, rfl⟩ := Option.map_eq_some_iff.1 h
  rfl

theorem value_body? (resolve : Resolver) (unit name : String) (cs : List (String × Document)) :
    (body? resolve unit name cs).value = cs.findSome? fun c =>
      (exampleNamed? resolve name c.2).map fun v => (v.text, c.1) := by
  induction cs with
  | nil => rfl
  | cons c cs ih =>
    rw [body?, value_bind, value_exampleOf?, List.findSome?_cons]
    cases exampleNamed? resolve name c.2 with
    | none => exact ih
    | some v => rfl

theorem map_filter_values (resolve : Resolver) (name : String) (ps : List Declared)
    (located : String → Bool) :
    (((ps.filterMap fun p => (exampleNamed? resolve name p.node).map fun v => (p, v.text)).filter
        fun v => located v.1.location).map fun v => (v.1.name, v.2)) =
      joinedValues resolve name ps located := by
  rw [joinedValues, List.filter_filterMap, List.map_filterMap, List.filterMap_filter]
  congr 1
  funext p
  cases exampleNamed? resolve name p.node with
  | none => split <;> rfl
  | some v =>
    show ((some (p, v.text)).filter fun v => located v.1.location).map _ = _
    rw [Option.filter_some]
    split <;> rfl

theorem value_request (resolve : Resolver) (unit name : String) (node : Document)
    (ps : List Declared) :
    (request resolve unit name node ps).value = joinedRequest resolve node ps name := by
  have hvalues : ((ps.mapM fun p => do
        return (← exampleOf? resolve unit name p.node).map fun v => (p, v.text) :
          Noted (List (Option (Declared × String)))).value.filterMap id) =
      ps.filterMap fun p => (exampleNamed? resolve name p.node).map fun v => (p, v.text) := by
    rw [value_mapM, List.filterMap_map]
    congr 1
    funext p
    show (exampleOf? resolve unit name p.node).value.map _ = _
    rw [value_exampleOf?]
  unfold request joinedRequest
  simp only [value_bind, value_pure, value_body?]
  rw [hvalues, ← map_filter_values, ← map_filter_values, List.map_map, List.map_map]
  rfl

theorem value_responseHeaders (resolve : Resolver) (unit name : String) (response : Document) :
    (responseHeaders resolve unit name response).value = joinedHeaders resolve name response := by
  unfold responseHeaders joinedHeaders
  rw [value_bind, value_mapM, value_pure, List.filterMap_map]
  congr 1
  funext m
  rw [Function.comp_apply, id, value_bind]
  cases resolve m.2 with
  | error e => rfl
  | ok h =>
    show (exampleOf? resolve unit name h).value.map _ = _
    rw [value_exampleOf?]
    rfl

/-! ## One example -/

theorem isSome_exchange?_iff {op : Operation} {name : String} :
    (op.exchange? name).isSome ↔ name ∈ op.exchanges.map (·.name) := by
  rw [Operation.exchange?, List.find?_isSome, List.mem_map]
  exact exists_congr fun e => and_congr_right fun _ => beq_iff_eq

/-- What becomes of an example. Its name is taken, or it has no value, and a warning says so; or it
records an exchange. -/
theorem addRecorded_cases (resolve : Resolver) (node : Document) (ps : List Declared)
    (op : Operation) (r : Recorded) :
    ((r.name ∈ op.exchanges.map (·.name) ∨ joined? resolve node ps r = none) ∧
        (addRecorded resolve node ps op r).value = op ∧
        ∃ w, (addRecorded resolve node ps op r).warnings = [w] ∧
          w.unit = op.name ++ "#" ++ r.name) ∨
      r.name ∉ op.exchanges.map (·.name) ∧ ∃ e, joined? resolve node ps r = some e ∧
        (addRecorded resolve node ps op r).value =
          { op with exchanges := op.exchanges ++ [e] } := by
  unfold addRecorded
  by_cases htaken : (op.exchange? r.name).isSome
  · refine .inl ⟨.inl (isSome_exchange?_iff.1 htaken), ?_⟩
    simp only [htaken, if_true]
    exact ⟨rfl, _, rfl, rfl⟩
  · have hfree : r.name ∉ op.exchanges.map (·.name) := fun h => htaken (isSome_exchange?_iff.2 h)
    simp only [htaken]
    cases hvalue : exampleValue? resolve r.node with
    | none =>
      refine .inl ⟨.inr (by rw [joined?, hvalue]; rfl), ?_⟩
      obtain ⟨w, hw, hunit⟩ := warnings_value? (op.name ++ "#" ++ r.name) hvalue
      simp only [Bool.false_eq_true, if_false, value_bind, warnings_bind, value_value?, hvalue, hw]
      exact ⟨rfl, w, rfl, hunit⟩
    | some v =>
      refine .inr ⟨hfree, _, by rw [joined?, hvalue]; rfl, ?_⟩
      simp only [Bool.false_eq_true, if_false, value_bind, value_value?, hvalue]
      rw [value_request, value_responseHeaders]
      rfl

/-! ## All examples -/

/-- The examples of a response, none if it is a reference that leads nowhere. -/
def answersIn (resolve : Resolver) (m : String × Document) : List Recorded :=
  match resolve m.2 with
  | .error _ => []
  | .ok response => recorded m.1 response

/-- The examples of all responses of an operation, in the order of the document. -/
def answersOf (resolve : Resolver) (node : Document) : List Recorded :=
  (node.get "responses").members.flatMap (answersIn resolve)

/-- The examples of a response are those of its contents, each with its media type. -/
theorem mem_recorded_iff {status : String} {response : Document} {r : Recorded} :
    r ∈ recorded status response ↔ r.status = status ∧ r.response = response ∧
      ∃ content, (r.mediaType, content) ∈ (response.get "content").members ∧
        (r.name, r.node) ∈ (content.get "examples").members := by
  simp only [recorded, List.mem_flatMap, List.mem_map]
  constructor
  · rintro ⟨c, hc, e, he, rfl⟩
    exact ⟨rfl, rfl, c.2, hc, he⟩
  · rintro ⟨rfl, rfl, content, hc, he⟩
    exact ⟨_, hc, _, he, rfl⟩

/-- **The examples of an operation**: a status, the response that it leads to, a media type with the
content under it, and a name with its node. -/
theorem mem_answersOf_iff {r : Recorded} :
    r ∈ answersOf resolve node ↔
      ∃ reference, (r.status, reference) ∈ (node.get "responses").members ∧
        resolve reference = .ok r.response ∧
        ∃ content, (r.mediaType, content) ∈ (r.response.get "content").members ∧
          (r.name, r.node) ∈ (content.get "examples").members := by
  rw [answersOf, List.mem_flatMap]
  constructor
  · rintro ⟨m, hm, hr⟩
    rw [answersIn] at hr
    cases hresolved : resolve m.2 with
    | error e =>
      rw [hresolved] at hr
      cases hr
    | ok response =>
      rw [hresolved] at hr
      obtain ⟨hstatus, rfl, hexample⟩ := mem_recorded_iff.1 hr
      refine ⟨m.2, ?_, hresolved, hexample⟩
      rwa [hstatus]
  · rintro ⟨reference, hm, hresolved, hexample⟩
    refine ⟨(r.status, reference), hm, ?_⟩
    rw [answersIn, hresolved]
    exact mem_recorded_iff.2 ⟨rfl, rfl, hexample⟩

/-- What an import has made of the examples `rs`, having begun with the operation `start`: the first
one of each name that has a value is joined, and each of the others has a warning. -/
structure Joins (resolve : Resolver) (node : Document) (ps : List Declared) (start : Operation)
    (rs : List Recorded) (kept : List Nat) (o : Noted Operation) : Prop where
  same : ∃ es, o.value = { start with exchanges := es }
  firsts : Firsts Recorded.name (joined? resolve node ps) rs kept o.value.exchanges
  reported : Reported ((others rs kept).map fun r => start.name ++ "#" ++ r.name) o.warnings

variable {start : Operation} {rs : List Recorded} {kept : List Nat} {o : Noted Operation}

theorem Joins.name (h : Joins resolve node ps start rs kept o) : o.value.name = start.name := by
  obtain ⟨es, hes⟩ := h.same
  rw [hes]

theorem Joins.noted (h : Joins resolve node ps start rs kept o) (ws : List Warning) :
    Joins resolve node ps start rs kept ⟨o.value, o.warnings ++ ws⟩ where
  same := h.same
  firsts := h.firsts
  reported := h.reported.sublist (List.sublist_append_left _ _)

/-- One more example. -/
theorem joins_addRecorded (h : Joins resolve node ps start rs kept o) (r : Recorded) :
    ∃ kept', Joins resolve node ps start (rs ++ [r]) kept'
      (o >>= fun op => addRecorded resolve node ps op r) := by
  have hnames : ∀ {name}, name ∈ o.value.exchanges.map (·.name) ↔
      ∃ x ∈ rs, (joined? resolve node ps x).isSome ∧ x.name = name :=
    h.firsts.mem_names_iff fun _ _ he => name_joined he
  obtain ⟨hleft, hvalue, w, hw, hunit⟩ | ⟨hfree, e, he, hvalue⟩ :=
    addRecorded_cases resolve node ps o.value r
  · -- The example is left out: nothing changes but that one warning names it.
    refine ⟨kept, ?_, ?_, ?_⟩
    · rw [value_bind, hvalue]
      exact h.same
    · rw [value_bind, hvalue]
      refine h.firsts.leave fun hsome => ?_
      rcases hleft with htaken | hnone
      · exact hnames.1 htaken
      · rw [hnone] at hsome
        cases hsome
    · rw [h.name] at hunit
      rw [warnings_bind, hw, h.firsts.others_leave, List.map_append, List.map_singleton, ← hunit]
      exact h.reported.append (reported_singleton w)
  · -- It is recorded, as the first one of its name.
    refine ⟨kept ++ [rs.length], ?_, ?_, ?_⟩
    · obtain ⟨es, hes⟩ := h.same
      refine ⟨o.value.exchanges ++ [e], ?_⟩
      rw [value_bind, hvalue, hes]
    · rw [value_bind, hvalue]
      refine h.firsts.keep he fun z hz hsome hname => hfree (hnames.2 ⟨z, hz, hsome, hname⟩)
    · rw [warnings_bind, Firsts.others_keep]
      exact h.reported.sublist (List.sublist_append_left _ _)

/-- **One more response.** -/
theorem joins_addResponse (h : Joins resolve node ps start rs kept o) (m : String × Document) :
    ∃ kept', Joins resolve node ps start (rs ++ answersIn resolve m) kept'
      (o >>= fun op => addResponse resolve node ps op m.1 m.2) := by
  unfold addResponse answersIn
  cases resolve m.2 with
  | error e =>
    rw [List.append_nil]
    exact ⟨kept, h.noted _⟩
  | ok response =>
    have hrun := foldlM_induction (I := fun rs o => ∃ kept, Joins resolve node ps start rs kept o)
      (g := fun r => [r]) (fun zs o r ⟨kept, hz⟩ => joins_addRecorded hz r) ⟨kept, h⟩
      (recorded m.1 response)
    rw [List.flatMap_singleton'] at hrun
    exact hrun

/-! ## Operations -/

theorem override_keeps (extension : Document) (op : Operation) :
    (override extension op).value.name = op.name ∧
      (override extension op).value.exchanges = op.exchanges := by
  unfold override
  dsimp only
  split
  · exact ⟨rfl, rfl⟩
  · split <;> exact ⟨rfl, rfl⟩

theorem addressed_keeps (verb path : String) (ps : List Declared) :
    (addressed verb path ps).name = Operation.nameOf verb path ∧
      (addressed verb path ps).exchanges = [] := by
  unfold addressed
  dsimp only
  split
  · exact ⟨rfl, rfl⟩
  · rw [Operation.addResourcePath]
    split <;> exact ⟨rfl, rfl⟩

/-- An operation but for its exchanges. -/
def bare (op : Operation) : Operation := { op with exchanges := [] }

theorem bare_addRecorded (resolve : Resolver) (node : Document) (ps : List Declared)
    (op : Operation) (r : Recorded) : bare (addRecorded resolve node ps op r).value = bare op := by
  obtain ⟨-, hvalue, -⟩ | ⟨-, e, -, hvalue⟩ := addRecorded_cases resolve node ps op r
  · rw [hvalue]
  · rw [hvalue]
    rfl

theorem bare_addResponse (resolve : Resolver) (node : Document) (ps : List Declared)
    (op : Operation) (status : String) (response : Document) :
    bare (addResponse resolve node ps op status response).value = bare op := by
  unfold addResponse
  rw [value_bind]
  split
  · rfl
  · exact foldlM_keeps (bare_addRecorded resolve node ps) op _

/-- Examples change nothing but the exchanges of an operation. -/
theorem bare_operation (resolve : Resolver) (path verb : String) (node : Document)
    (ps : List Declared) :
    bare (operation resolve path verb node ps).value =
      bare (override (node.get "x-dispatch") (addressed verb path ps)).value := by
  unfold operation
  simp only [value_bind, value_pure]
  apply foldlM_keeps
  intro op m
  exact bare_addResponse resolve node ps op m.1 m.2

/-- The names of the examples of a request body. -/
def bodyNames (node : Document) : List String :=
  ((node.get "requestBody").get "content").members.flatMap fun c =>
    (c.2.get "examples").members.map (·.1)

/-- The names of the examples of a request body that join no exchange. -/
def unanswered (op : Operation) (node : Document) : List String :=
  (bodyNames node).filter fun n => !(op.exchanges.map (·.name)).contains n

/-- An example of a request body that joins no exchange has a warning. -/
theorem reported_noteUnanswered (op : Operation) (node : Document) :
    Reported ((unanswered op node).map fun n => op.name ++ "#" ++ n)
      (noteUnanswered op node).warnings := by
  have hnames : bodyNames node =
      (((node.get "requestBody").get "content").members.flatMap fun c =>
        (c.2.get "examples").members).map (·.1) := by
    rw [bodyNames, List.map_flatMap]
  unfold noteUnanswered unanswered
  rw [hnames, warnings_forM]
  generalize (((node.get "requestBody").get "content").members.flatMap fun c =>
    (c.2.get "examples").members) = es
  induction es with
  | nil => exact reported_nil _
  | cons e es ih =>
    rw [List.flatMap_cons, List.map_cons, List.filter_cons]
    by_cases htaken : e.1 ∈ op.exchanges.map (·.name)
    · have hsome : (op.exchange? e.1).isSome = true := isSome_exchange?_iff.2 htaken
      rw [if_neg (by simpa using htaken), hsome]
      exact ih
    · have hnone : ¬(op.exchange? e.1).isSome = true := fun h => htaken (isSome_exchange?_iff.1 h)
      rw [if_pos (by simpa using htaken), if_neg hnone]
      exact (reported_singleton _).append ih

/-- What an operation has made of the examples of its responses. -/
theorem joins_operation (resolve : Resolver) (path verb : String) (node : Document)
    (ps : List Declared) :
    ∃ (start : Operation) (kept : List Nat) (o : Noted Operation),
      start.name = Operation.nameOf verb path ∧
      Joins resolve node ps start (answersOf resolve node) kept o ∧
      (operation resolve path verb node ps).value = o.value ∧
      (o.warnings ++ (noteUnanswered o.value node).warnings).Sublist
        (operation resolve path verb node ps).warnings := by
  obtain ⟨hname, hexchanges⟩ := addressed_keeps verb path ps
  obtain ⟨hname', hexchanges'⟩ :=
    override_keeps (node.get "x-dispatch") (addressed verb path ps)
  have hstart : Joins resolve node ps
      (override (node.get "x-dispatch") (addressed verb path ps)).value [] []
      (override (node.get "x-dispatch") (addressed verb path ps)) := by
    refine ⟨⟨_, rfl⟩, ?_, reported_nil _⟩
    rw [hexchanges', hexchanges]
    exact .nil
  -- The invariant of the loop over the responses speaks of the examples gone through so far.
  have hrun := foldlM_induction
    (I := fun rs o => ∃ kept, Joins resolve node ps
      (override (node.get "x-dispatch") (addressed verb path ps)).value rs kept o)
    (fun zs o m ⟨kept, hz⟩ => joins_addResponse hz m) ⟨[], hstart⟩ (node.get "responses").members
  obtain ⟨kept, hjoins⟩ := hrun
  refine ⟨_, kept, _, hname'.trans hname, hjoins, rfl, ?_⟩
  unfold operation
  simp only [warnings_bind, value_bind, warnings_pure, List.append_nil]
  rw [← List.append_assoc, ← List.append_assoc]
  exact List.sublist_append_left _ _

/-- **An operation is named by its verb and its path.** -/
theorem name_operation (resolve : Resolver) (path verb : String) (node : Document)
    (ps : List Declared) :
    (operation resolve path verb node ps).value.name = Operation.nameOf verb path := by
  obtain ⟨start, kept, o, hname, hjoins, hvalue, -⟩ := joins_operation resolve path verb node ps
  rw [hvalue, hjoins.name, hname]

/-- **Every example of a response is accounted for.** The exchanges of an operation are those of the
first example of each name that has a value, in the order of the document. Each other example, and
each example of a request body that joins no exchange, has a warning of its own with its name. -/
theorem responses_accounted (resolve : Resolver) (path verb : String) (node : Document)
    (ps : List Declared) :
    let built := operation resolve path verb node ps
    built.value.name = Operation.nameOf verb path ∧
      (built.value.exchanges.map (·.name)).Nodup ∧
      (∀ name, name ∈ built.value.exchanges.map (·.name) ↔
        ∃ r ∈ answersOf resolve node, (joined? resolve node ps r).isSome ∧ r.name = name) ∧
      ∃ kept,
        Firsts Recorded.name (joined? resolve node ps) (answersOf resolve node) kept
          built.value.exchanges ∧
        Reported (((others (answersOf resolve node) kept).map (·.name) ++
            unanswered built.value node).map fun n => built.value.name ++ "#" ++ n)
          built.warnings := by
  intro built
  obtain ⟨start, kept, o, hname, hjoins, hvalue, hwarnings⟩ :=
    joins_operation resolve path verb node ps
  have hkeys : ∀ x y, joined? resolve node ps x = some y → y.name = x.name :=
    fun _ _ he => name_joined he
  have hbuilt : built.value = o.value := hvalue
  rw [hbuilt]
  refine ⟨hjoins.name.trans hname, hjoins.firsts.nodup hkeys,
    fun name => hjoins.firsts.mem_names_iff hkeys, kept, hjoins.firsts, ?_⟩
  have hreported := hjoins.reported.append (reported_noteUnanswered o.value node)
  rw [List.map_append, List.map_map]
  rw [← hjoins.name] at hreported
  exact hreported.sublist hwarnings

end ApiDouble.Import.OpenApi
