import ApiDouble.Proofs.Contract.Header
import ApiDouble.Proofs.Replay.Loop

/-!
# Headers on their way out

**HTTP.** A call has the headers of three layers: those recorded, those that the test overrides for
all operations, and those that it overrides for this one. Behind them stands the media type of the
body, if there are both and no layer has a content type (`Composed`).

**SOAP.** The same headers are sent without any action among them. The action of the call comes
behind them, and after it a content type if there is none by then (`ComposedWithAction`).

In both no two headers have the same name, because what is added has a name that is missing. What
holds of one call holds of all calls of a batch, and the outcome of a call has the headers that were
sent with it.

Main results: `headers_composed`, `headers_composedWithAction`, `run_sends`.
-/

namespace ApiDouble.Replay

open Text Header

/-! ## What is sent -/

/-- The layers of the headers of a call, later ones overriding earlier ones. -/
def Plan.layers (p : Plan) (request : Message) : List (List Header) :=
  [request.headers, p.overrides.globals, p.overrides.of p.operation.name]

/-- The layer of an operation is the one that its name stands for. -/
theorem of_eq_of_mem {overrides : HeaderOverrides} {operation : String} {hs : List Header}
    (h : (operation, hs) ∈ overrides.operations.toList) : overrides.of operation = hs := by
  rw [HeaderOverrides.of, SortedMap.get?_eq_some_iff.2 h, Option.getD_some]

theorem of_eq_nil {overrides : HeaderOverrides} {operation : String}
    (h : ∀ hs, (operation, hs) ∉ overrides.operations.toList) : overrides.of operation = [] := by
  have hnone : overrides.operations.get? operation = none :=
    Option.eq_none_iff_forall_not_mem.2 fun hs hhs => h hs (SortedMap.get?_eq_some_iff.1 hhs)
  rw [HeaderOverrides.of, hnone, Option.getD_none]

/-- No header has the name. -/
def Lacks (hs : List Header) (name : String) : Prop := ∀ h ∈ hs, ¬sameName h.name name

/-- The content type that a request brings along: the media type of its body, if it has both and no
layer has a content type. -/
def IsBodyType (p : Plan) (request : Message) (h : Header) : Prop :=
  ∃ mediaType, request.mediaType = some mediaType ∧ request.content.isSome ∧
    Lacks (p.layers request).flatten "Content-Type" ∧
    h = ⟨"Content-Type", .ofList [mediaType]⟩

/-- The headers of an HTTP call. -/
structure Composed (p : Plan) (request : Message) (hs : List Header) : Prop where
  parts : ∃ (layered : List Header) (typed : Option Header),
    Layered (p.layers request) layered ∧ (∀ h, typed = some h ↔ IsBodyType p request h) ∧
    hs = layered ++ typed.toList
  distinct : (hs.map fun h => folded h.name).Nodup

/-- The action of a SOAP call in quotes: the one asked for, or else the path of the operation. -/
def Plan.action (p : Plan) : Header :=
  ⟨"SOAPAction", .ofList ["\"" ++ p.invocation.soapAction.getD p.operation.pathPattern ++ "\""]⟩

/-- The content type of a SOAP call that has no other. -/
def xmlType : Header := ⟨"Content-Type", .ofList ["text/xml;charset=UTF-8"]⟩

/-- The headers of a SOAP call. -/
structure ComposedWithAction (p : Plan) (request : Message) (hs : List Header) : Prop where
  parts : ∃ (composed : List Header) (typed : Option Header), Composed p request composed ∧
    (∀ h, typed = some h ↔ Lacks composed "Content-Type" ∧ h = xmlType) ∧
    hs = composed.filter (!sameName ·.name "SOAPAction") ++ p.action :: typed.toList
  distinct : (hs.map fun h => folded h.name).Nodup

/-! ## One more header -/

variable {p : Plan} {request : Message} {hs layered : List Header} {name : String}

theorem nodup_append_toList {typed : Option Header} (hhs : (hs.map fun h => folded h.name).Nodup)
    (htyped : ∀ h, typed = some h → Lacks hs h.name) :
    ((hs ++ typed.toList).map fun h => folded h.name).Nodup := by
  cases typed with
  | none => rwa [Option.toList_none, List.append_nil]
  | some h =>
    rw [Option.toList_some, List.map_append, List.map_singleton, List.nodup_append]
    refine ⟨hhs, List.pairwise_singleton .., fun a ha b hb => ?_⟩
    obtain ⟨g, hg, rfl⟩ := List.mem_map.1 ha
    rw [List.mem_singleton.1 hb]
    exact fun he => htyped h rfl g hg (sameName_iff_folded.2 he)

theorem lacks_layered {layers : List (List Header)} (hlayered : Layered layers layered) :
    Lacks layered name ↔ Lacks layers.flatten name := by
  have hmem : (∃ g ∈ layered, sameName g.name name) ↔
      ∃ x ∈ layers.flatten, sameName x.name name := hlayered.exists_mem_iff
  have hnot := not_congr hmem
  simp only [not_exists, not_and] at hnot
  exact hnot

theorem lacks_congr {name' : String} (h : folded name = folded name') :
    Lacks hs name ↔ Lacks hs name' := by
  simp only [Lacks, sameName_iff_folded, h]

theorem isSome_find?_iff : (find? hs name).isSome = true ↔ ¬Lacks hs name := by
  rw [find?, List.find?_isSome, Lacks]
  simp only [not_forall, not_not, exists_prop]

theorem exists_appended {c : Prop} {b : Bool} (hb : b = true ↔ ¬c) (hs : List Header)
    (h : Header) : ∃ typed : Option Header, (∀ g, typed = some g ↔ c ∧ g = h) ∧
      (if b then hs else hs ++ [h]) = hs ++ typed.toList := by
  cases b with
  | true =>
    have hc : ¬c := hb.1 rfl
    exact ⟨none, fun g => iff_of_false nofun fun hg => hc hg.1, (List.append_nil hs).symm⟩
  | false =>
    have hc : c := by simpa using hb
    exact ⟨some h, fun g => by simp [hc, eq_comm], rfl⟩

/-! ## HTTP -/

/-- The media type of the body is put behind the headers of the layers. -/
theorem exists_bodyType (p : Plan) (request : Message) : ∃ typed : Option Header,
    (∀ h, typed = some h ↔ IsBodyType p request h) ∧
      p.headers request = merge (p.layers request) ++ typed.toList := by
  have hfind : (find? (merge (p.layers request)) "content-type").isSome = true ↔
      ¬Lacks (p.layers request).flatten "Content-Type" := by
    have hfolded : folded "content-type" = folded "Content-Type" := by decide
    rw [isSome_find?_iff, lacks_congr hfolded, lacks_layered (layered_merge (p.layers request))]
  unfold Plan.headers IsBodyType
  cases request.mediaType with
  | none => exact ⟨none, by simp, (List.append_nil _).symm⟩
  | some mediaType =>
    cases request.content with
    | none => exact ⟨none, by simp, (List.append_nil _).symm⟩
    | some content =>
      obtain ⟨typed, htyped, happended⟩ := exists_appended hfind (merge (p.layers request))
        ⟨"Content-Type", .ofList [mediaType]⟩
      exact ⟨typed, fun h => by simp [htyped], happended⟩

/-- **The headers before the last touch of a protocol.** -/
theorem headers_composed (p : Plan) (request : Message) :
    Composed p request (p.headers request) := by
  have hlayered : Layered (p.layers request) (merge (p.layers request)) :=
    layered_merge (p.layers request)
  obtain ⟨typed, htyped, hheaders⟩ := exists_bodyType p request
  refine ⟨⟨_, typed, hlayered, htyped, hheaders⟩, ?_⟩
  rw [hheaders]
  refine nodup_append_toList hlayered.nodup fun h hh => ?_
  obtain ⟨mediaType, -, -, hlacks, rfl⟩ := (htyped h).1 hh
  exact (lacks_layered hlayered).2 hlacks

/-! ## SOAP -/

/-- The headers of a call with its action in the place of any others. -/
def Plan.withAction (p : Plan) (hs : List Header) : List Header :=
  hs.filter (!sameName ·.name "SOAPAction") ++ [p.action]

theorem lacks_withAction (p : Plan) (hs : List Header)
    (hname : folded name ≠ folded "SOAPAction") :
    Lacks (p.withAction hs) name ↔ Lacks hs name := by
  constructor
  · intro hlacks h hh hsame
    refine hlacks h (List.mem_append_left _ (List.mem_filter.2 ⟨hh, ?_⟩)) hsame
    rw [Bool.not_eq_true', Bool.eq_false_iff, Ne, sameName_iff_folded,
      sameName_iff_folded.1 hsame]
    exact hname
  · intro hlacks h hh hsame
    rcases List.mem_append.1 hh with hh | hh
    · exact hlacks h (List.mem_filter.1 hh).1 hsame
    · rw [List.mem_singleton.1 hh, sameName_iff_folded] at hsame
      exact hname hsame.symm

theorem nodup_withAction (p : Plan) (hhs : (hs.map fun h => folded h.name).Nodup) :
    ((p.withAction hs).map fun h => folded h.name).Nodup := by
  have hwith : p.withAction hs =
      hs.filter (fun g => !sameName g.name "SOAPAction") ++ (some p.action).toList := rfl
  rw [hwith]
  refine nodup_append_toList ?_ fun h hh => ?_
  · exact (List.filter_sublist.map _).nodup hhs
  · cases hh
    intro g hg hsame
    have hother : (!sameName g.name "SOAPAction") = true := (List.mem_filter.1 hg).2
    rw [Bool.not_eq_true'] at hother
    exact Bool.false_ne_true (hother.symm.trans hsame)

/-- **The headers of a SOAP call**, made from those before the last touch. -/
theorem headers_composedWithAction {call : Call} (h : Composed p request call.headers) :
    ComposedWithAction p request (Soap.prepare p.operation p.invocation call).headers := by
  have hlacks : Lacks (p.withAction call.headers) "Content-Type" ↔
      Lacks call.headers "Content-Type" := lacks_withAction p call.headers (by decide)
  have hany : (p.withAction call.headers).any (sameName ·.name "content-type") = true ↔
      ¬Lacks call.headers "Content-Type" := by
    have hfolded : folded "content-type" = folded "Content-Type" := by decide
    rw [← hlacks, ← lacks_congr hfolded, List.any_eq_true, Lacks]
    simp only [not_forall, not_not, exists_prop]
  obtain ⟨typed, htyped, happended⟩ := exists_appended hany (p.withAction call.headers) xmlType
  have hheaders : (Soap.prepare p.operation p.invocation call).headers =
      p.withAction call.headers ++ typed.toList := happended
  refine ⟨⟨call.headers, typed, h, htyped, ?_⟩, ?_⟩
  · rw [hheaders, Plan.withAction, List.append_assoc]
    rfl
  · rw [hheaders]
    refine nodup_append_toList (nodup_withAction p h.distinct) fun g hg => ?_
    obtain ⟨hmissing, rfl⟩ := (htyped g).1 hg
    exact hlacks.2 hmissing

/-- A test overrides one recorded header and the action, which SOAP does not let it do. -/
example :
    let overrides := [.ofCsv "soapaction" "other", .ofCsv "X-Tenant" "acme"]
    let p : Plan :=
      ⟨.soap, .ofPath "POST" "sayHello", ⟨overrides, .empty⟩, "http://localhost", {}⟩
    (p.call ⟨"hello", some "<Envelope/>", none, [.ofCsv "x-tenant" "none"], []⟩).headers =
      [.ofCsv "x-tenant" "acme", .ofCsv "SOAPAction" "\"sayHello\"", xmlType] := by
  decide +kernel

/-! ## All calls of a batch -/

/-- What is sent for a request, by the protocol that has the last touch. -/
structure Sent (p : Plan) (request : Message) (call : Call) : Prop where
  eq_call : call = p.call request
  http : p.runner.prepare = Runner.http.prepare → Composed p request call.headers
  soap : p.runner.prepare = Runner.soap.prepare → ComposedWithAction p request call.headers

theorem sent_call (p : Plan) (request : Message) : Sent p request (p.call request) where
  eq_call := rfl
  http hprepare := by
    rw [Plan.call, hprepare]
    exact headers_composed p request
  soap hprepare := by
    rw [Plan.call, hprepare]
    exact headers_composedWithAction (headers_composed p request)

section

variable {requests skipped : List Message} {s : Moment} {answered : List Answered} {call : Call}

theorem mem_events_iff {a : Answered} :
    .sent call ∈ a.events p ↔ call = p.call a.request := by
  simp [Answered.events]

theorem Concluded.sent_of_mem (h : Concluded p requests s answered skipped) {a : Answered}
    (ha : a ∈ answered) : .sent (p.call a.request) ∈ s.seen := by
  have hmem : .sent (p.call a.request) ∈ answered.flatMap (·.events p) :=
    List.mem_flatMap.2 ⟨a, ha, mem_events_iff.2 rfl⟩
  rcases h.seen with hseen | ⟨first, -, hseen⟩
  · rw [hseen]
    exact hmem
  · rw [hseen]
    exact List.mem_append_left _ hmem

theorem Concluded.exists_request (h : Concluded p requests s answered skipped)
    (hcall : .sent call ∈ s.seen) : ∃ request ∈ requests, call = p.call request := by
  have hanswered : .sent call ∈ answered.flatMap (·.events p) →
      ∃ request ∈ requests, call = p.call request := by
    intro hmem
    obtain ⟨a, ha, hevent⟩ := List.mem_flatMap.1 hmem
    refine ⟨a.request, ?_, mem_events_iff.1 hevent⟩
    rw [h.requests]
    exact List.mem_append_left _ (List.mem_map_of_mem ha)
  rcases h.seen with hseen | ⟨first, hfirst, hseen⟩
  · rw [hseen] at hcall
    exact hanswered hcall
  · rw [hseen] at hcall
    rcases List.mem_append.1 hcall with hmem | hmem
    · exact hanswered hmem
    · cases List.mem_singleton.1 hmem
      refine ⟨first, ?_, rfl⟩
      rw [h.requests]
      exact List.mem_append_right _ (List.mem_of_head? hfirst)

end

/-- The request of an outcome is the one recorded, with the headers that were sent. -/
theorem request_outcome (p : Plan) (a : Answered) :
    (a.outcome p).request = { a.request with headers := (p.call a.request).headers } := by
  obtain ⟨request, reply, elapsed⟩ := a
  cases reply <;> rfl

/-- **All calls of a batch have composed headers**, whatever happens while it runs, and what is
recorded of a call that was answered are the headers sent. -/
theorem run_sends {W : Type} (e : Surroundings W) (p : Plan) (requests : List Message)
    (cancelled : Bool) (w : W) :
    ∃ s w' answered skipped,
      e.seat.run e.transport requests.length ⟨⟨p, requests, false, []⟩, cancelled, []⟩ w =
        ((true, s), w') ∧
      Concluded p requests s answered skipped ∧
      (∀ call, .sent call ∈ s.seen → ∃ request ∈ requests, Sent p request call) ∧
      ∀ a ∈ answered, ∃ call, .sent call ∈ s.seen ∧ Sent p a.request call ∧
        (a.outcome p).request = { a.request with headers := call.headers } := by
  obtain ⟨s, w', hrun, hsteps, hdone⟩ := run_steps e (p := p) requests [] cancelled [] w
  obtain ⟨answered, skipped, h⟩ := (course_of_steps hsteps).concluded hdone
  refine ⟨s, w', answered, skipped, hrun, h, fun call hcall => ?_, fun a ha => ?_⟩
  · obtain ⟨request, hrequest, rfl⟩ := h.exists_request hcall
    exact ⟨request, hrequest, sent_call p request⟩
  · exact ⟨p.call a.request, h.sent_of_mem ha, sent_call p a.request, request_outcome p a⟩

end ApiDouble.Replay
