import ApiDouble.Proofs.Import.MessageExamples

/-!
# Alternatives of a message

**Candidates.** A message with `oneOf` stands for its candidates, in their order. One that leads to
a message adds what that message adds; one that leads nowhere adds nothing, and a warning says so
(`Addition.ofCandidate`, `lostCandidate?`). So an operation has the exchanges that it would have
with each candidate for its message, one after the other (`operation_oneOf`).

**One level.** A candidate may have a `oneOf` itself. As the message of an operation it stands for
its own candidates, but among other candidates it is taken for a message: its examples and bindings
count, and its candidates are passed over without a warning (`ofCandidate_eq_note_nil`,
`oneOf_nested`).

Main results: `ofCandidate_eq_note_nil`, `operation_oneOf`.
-/

namespace ApiDouble.Import.AsyncApi

open Text Noted

variable {source : Source} {opName : String} {node message candidate : Document}

/-- What a candidate adds to an operation. -/
def Addition.ofCandidate (source : Source) (opName : String) (candidate : Document) : Addition :=
  match source.resolve "$ref" candidate with
  | .error _ => note []
  | .ok message => ofMessage source opName message

/-- Whether a candidate leads to a `oneOf`. -/
def isNested (source : Source) (candidate : Document) : Bool :=
  match source.resolve "$ref" candidate with
  | .error _ => false
  | .ok message => message.has "oneOf"

/-- The node of an operation with another message. -/
def withMessage (message node : Document) : Document :=
  .object (Document.put "message" message node.members)

theorem get_message_withMessage (message node : Document) :
    (withMessage message node).get "message" = message := by
  simp [withMessage, Document.get, Document.valueOf?_put]

/-- A candidate adds exchanges as it would if it were the message, unless it is nested. -/
theorem exchanges_ofCandidate (h : isNested source candidate = false) :
    (Addition.ofCandidate source opName candidate).exchanges =
      (messagesOf source (withMessage candidate node)).flatMap fun m =>
        (exchanges source opName m).value := by
  unfold isNested at h
  unfold messagesOf Addition.ofCandidate
  rw [get_message_withMessage]
  cases hr : source.resolve "$ref" candidate with
  | error e => rfl
  | ok message =>
    rw [hr] at h
    have hplain : ¬message.has "oneOf" = true := by simpa using h
    dsimp only
    rw [if_neg hplain, List.flatMap_singleton]
    rfl

/-- **A nested candidate with nothing of its own leaves no trace**, whatever its candidates are. -/
theorem ofCandidate_eq_note_nil (hnested : source.resolve "$ref" candidate = .ok message)
    (hexamples : message.get "examples" = .null) (hbindings : message.get "bindings" = .null) :
    Addition.ofCandidate source opName candidate = .note [] ∧
      lostCandidate? source opName candidate = none := by
  unfold Addition.ofCandidate lostCandidate?
  rw [hnested]
  refine ⟨?_, rfl⟩
  have hnone : exchanges source opName message = pure [] := by
    unfold exchanges
    rw [hexamples]
    rfl
  show Addition.ofMessage source opName message = _
  unfold Addition.ofMessage
  rw [hnone, hbindings]
  rfl

/-- What the messages of a `oneOf` add is the sum of what its candidates add. -/
theorem sum_ofCandidate (hmessage : source.resolve "$ref" (node.get "message") = .ok message)
    (hone : message.has "oneOf" = true) (opName : String) :
    Addition.sum ((messagesOf source node).map (Addition.ofMessage source opName)) =
      Addition.sum ((message.get "oneOf").items.map (Addition.ofCandidate source opName)) := by
  have hmessages : messagesOf source node =
      (message.get "oneOf").items.filterMap fun c => (source.resolve "$ref" c).toOption := by
    unfold messagesOf
    rw [hmessage]
    exact if_pos hone
  rw [hmessages]
  induction (message.get "oneOf").items with
  | nil => rfl
  | cons c cs ih =>
    rw [List.map_cons, Addition.sum_cons, ← ih, List.filterMap_cons, Addition.ofCandidate]
    cases source.resolve "$ref" c with
    | error e => rfl
    | ok m => rfl

/-- **What comes of the candidates of a `oneOf`.** Each counts as it would if it were the message,
but a nested one counts for its own examples. -/
theorem operation_oneOf (hmessage : source.resolve "$ref" (node.get "message") = .ok message)
    (hone : message.has "oneOf" = true) (name : String) (channel : Document) (verb : String) :
    let built := operation source name channel verb node
    let alone c := operation source name channel verb (withMessage c node)
    let unit := Operation.nameOf verb name
    let candidates := (message.get "oneOf").items
    built.value.exchanges = candidates.flatMap (fun c =>
        if isNested source c then (Addition.ofCandidate source unit c).exchanges
        else (alone c).value.exchanges) ∧
      built.value.bindings = .ofSteps (mergesOf .operation (node.get "bindings") ++
        (mergesOf .operation (channel.get "bindings") ++
          candidates.flatMap fun c => (Addition.ofCandidate source unit c).merges)) ∧
      built.warnings = unsupported unit (node.get "bindings") ++
        (unsupported unit (channel.get "bindings") ++
          (candidates.filterMap (lostCandidate? source unit) ++
            candidates.flatMap fun c => (Addition.ofCandidate source unit c).warnings)) ∧
      ∀ c ∈ candidates, ∀ e, source.resolve "$ref" c = .error e →
        Addition.ofCandidate source unit c = .note [] ∧
          lostCandidate? source unit c =
            some ⟨.referenceResolution, unit ++ "#oneOf", e.message⟩ := by
  intro built alone unit candidates
  have hsum := sum_ofCandidate hmessage hone unit
  refine ⟨?exchanges, ?bindings, ?warnings, ?lost⟩
  case exchanges =>
    have hadded : built.value.exchanges =
        candidates.flatMap fun c => (Addition.ofCandidate source unit c).exchanges := by
      have h := congrArg Addition.exchanges hsum
      simp only [Addition.exchanges_sum_map] at h
      rw [← h]
      exact exchanges_messages source name channel verb node
    rw [hadded]
    -- Only a candidate that is not nested can stand in for the message, so they are told apart
    -- here.
    apply List.flatMap_congr
    intro c hc
    by_cases hnested : isNested source c = true
    · rw [if_pos hnested]
    · rw [if_neg hnested, exchanges_messages]
      exact exchanges_ofCandidate (by simpa using hnested)
  case bindings =>
    have h := congrArg Addition.merges hsum
    simp only [Addition.merges_sum_map] at h
    rw [← h]
    exact bindings_operation source name channel verb node
  case warnings =>
    have hlost : lostMessages source unit node =
        candidates.filterMap (lostCandidate? source unit) := by
      unfold lostMessages
      rw [hmessage]
      exact if_pos hone
    have h := congrArg Addition.warnings hsum
    simp only [Addition.warnings_sum_map] at h
    rw [← h, ← hlost, ← Addition.warnings_sum_map]
    exact congrArg Noted.warnings (operation_eq source name channel verb node)
  case lost =>
    intro c _ e he
    unfold Addition.ofCandidate lostCandidate?
    rw [he]
    exact ⟨rfl, rfl⟩

/-- A message with one example, which has the name and the payload of the message. -/
def sent (name : String) : Document :=
  .object [("examples", .array [.object [("name", .string name), ("payload", .string name)]])]

def oneOf (candidates : List Document) : Document := .object [("oneOf", .array candidates)]

/-- A document with one channel. -/
def ordersOf (message : Document) : Document := .object [
  ("info", .object [("title", .string "Orders")]),
  ("channels", .object [("orders", .object [("publish", .object [("message", message)])])]),
  ("delivered", sent "delivered")]

/-- Candidates that are plain, referred to and nowhere. -/
theorem operation_oneOf_orders :
    let candidates := [sent "placed", .object [("$ref", .string "#/nowhere")],
      .object [("$ref", .string "#/delivered")]]
    let source : Source := ⟨resolve (ordersOf .null) 8, "text/plain"⟩
    let node : Document := .object [("message", oneOf candidates)]
    let built := operation source "orders" .null "publish" node
    source.resolve "$ref" (node.get "message") = .ok (oneOf candidates) ∧
      (oneOf candidates).has "oneOf" = true ∧
      built.value.exchanges.map (·.name) = ["placed", "delivered"] ∧
      built.warnings = [⟨.referenceResolution, "PUBLISH orders#oneOf",
        "unresolved reference '#/nowhere'"⟩] := by
  intro candidates source node built
  have hmessage : source.resolve "$ref" (node.get "message") = .ok (oneOf candidates) := rfl
  have hone : (oneOf candidates).has "oneOf" = true := rfl
  obtain ⟨hexchanges, -, hwarnings, -⟩ :=
    operation_oneOf hmessage hone "orders" .null "publish"
  refine ⟨hmessage, hone, ?_, ?_⟩
  · rw [hexchanges]
    decide +kernel
  · rw [hwarnings]
    decide +kernel

/-- **A `oneOf` among other candidates is not gone into**, and no warning says so. -/
theorem oneOf_nested :
    let built message := (service {} (ordersOf message)).toOption.map fun outcome =>
      (outcome.value.operations.map fun op => op.exchanges.map (·.name), outcome.warnings)
    built (oneOf [sent "placed"]) = some ([["placed"]], []) ∧
      built (oneOf [oneOf [sent "placed"]]) = some ([[]], []) := by
  decide +kernel

end ApiDouble.Import.AsyncApi
