import ApiDouble.Document.Yaml.Node
import ApiDouble.Document.Yaml.Scalar

/-!
# Reading YAML text

A tree of nodes becomes a document in two steps. First every alias is replaced by the node with its
anchor (`Node.expanded?`). A container may not be a part of itself; containers may be nested
`depthLimit` deep after replacement, and there may be at most `expansionLimit` replacements for
every mark of the text, so that a short text cannot stand for an endless one. Then the scalars are
read (`Node.document?`); keys must be scalars and are taken as they are written.
-/

namespace ApiDouble.Yaml

/-- How deep containers may be nested. -/
def depthLimit : Nat := 128

/-- How often aliases may be replaced for every mark of the text. -/
def expansionLimit : Nat := 100

/-- A node without aliases, the depth of its containers, and how many aliases were replaced in it.
-/
structure Expansion where
  node : Node
  depth : Nat
  replaced : Nat

/-- The anchors so far, latest first, and the nodes that have them as far as they are complete. -/
structure Anchors where
  names : List (String × Nat)
  nodes : List (Nat × Expansion)
  next : Nat

def Anchors.none : Anchors := ⟨[], [], 0⟩

/-- Notes an anchor where its node begins. -/
def Anchors.declare (a : Anchors) : Option String → Anchors
  | .none => { a with next := a.next + 1 }
  | some name => { a with names := (name, a.next) :: a.names, next := a.next + 1 }

/-- Notes the node that has an anchor. -/
def Anchors.define (a : Anchors) (id : Nat) (e : Expansion) : Anchors :=
  { a with nodes := (id, e) :: a.nodes }

def Anchors.find? (a : Anchors) (name : String) : Option Expansion :=
  (a.names.lookup name).bind fun id => a.nodes.lookup id

mutual

/-- A node with its aliases replaced, given the anchors before it, and the anchors after it. -/
def Node.expand? (a : Anchors) : Node → Option (Expansion × Anchors)
  | .alias name => (a.find? name).map fun e => ({ e with replaced := e.replaced + 1 }, a)
  | .scalar p plain text =>
    let e : Expansion := ⟨.scalar p plain text, 0, 0⟩
    some (e, (a.declare p.anchor).define a.next e)
  | .sequence p items => do
    let (xs, depth, replaced, a') ← expandItems? (a.declare p.anchor) items
    let e : Expansion := ⟨.sequence p xs, depth + 1, replaced⟩
    return (e, a'.define a.next e)
  | .mapping p entries => do
    let (es, depth, replaced, a') ← expandEntries? (a.declare p.anchor) entries
    let e : Expansion := ⟨.mapping p es, depth + 1, replaced⟩
    return (e, a'.define a.next e)

def expandItems? (a : Anchors) : List Node → Option (List Node × Nat × Nat × Anchors)
  | [] => some ([], 0, 0, a)
  | n :: ns => do
    let (e, a) ← n.expand? a
    let (xs, depth, replaced, a) ← expandItems? a ns
    return (e.node :: xs, max e.depth depth, e.replaced + replaced, a)

def expandEntries? (a : Anchors) :
    List (Node × Node) → Option (List (Node × Node) × Nat × Nat × Anchors)
  | [] => some ([], 0, 0, a)
  | (k, v) :: es => do
    let (ek, a) ← k.expand? a
    let (ev, a) ← v.expand? a
    let (xs, depth, replaced, a) ← expandEntries? a es
    return ((ek.node, ev.node) :: xs, max ev.depth depth, ek.replaced + ev.replaced + replaced, a)

/-- The marks that a node makes: one for a scalar or alias, two around a container. -/
def Node.marks : Node → Nat
  | .alias _ => 1
  | .scalar .. => 1
  | .sequence _ items => 2 + itemMarks items
  | .mapping _ entries => 2 + entryMarks entries

def itemMarks : List Node → Nat
  | [] => 0
  | n :: ns => n.marks + itemMarks ns

def entryMarks : List (Node × Node) → Nat
  | [] => 0
  | (k, v) :: es => k.marks + v.marks + entryMarks es

end

/-- A node with its aliases replaced, if it keeps to the limits. -/
def Node.expanded? (n : Node) : Option Node := do
  let (e, _) ← n.expand? .none
  if depthLimit < e.depth ∨ expansionLimit * n.marks < e.replaced then none else some e.node

/-- The text of a scalar. -/
def Node.text? : Node → Option String
  | .scalar _ _ text => some text
  | _ => none

/-- A tag that is not one of the standard ones. -/
def isCustomTag (tag : Option String) : Bool := tag.any fun t => t.toList.head? == some '!'

def scalarValue? (tag : Option String) (plain : Bool) (text : String) : Option Document :=
  if isCustomTag tag then none
  else
    match tag with
    | some t => tagged? t text
    | none => if plain then plain? text else some (.string text)

mutual

/-- The document that a node without aliases stands for. -/
def Node.document? : Node → Option Document
  | .alias _ => none
  | .scalar p plain text => scalarValue? p.tag plain text
  | .sequence p items => if isCustomTag p.tag then none else (itemDocuments? items).map .array
  | .mapping p entries =>
    if isCustomTag p.tag then none else (entryDocuments? entries).map .ofMembers

def itemDocuments? : List Node → Option (List Document)
  | [] => some []
  | n :: ns => do return (← n.document?) :: (← itemDocuments? ns)

def entryDocuments? : List (Node × Node) → Option (List (String × Document))
  | [] => some []
  | (k, v) :: es => do return (← k.text?, ← v.document?) :: (← entryDocuments? es)

end

/-- The root of the only document of a YAML text, its aliases replaced; nothing for a text without a
document. -/
def root? (s : List Char) : Option (Option Node) := do
  match ← Node.ofTokens? (← Token.scan? s) with
  | none => some none
  | some n => return some (← n.expanded?)

/-- The document of a YAML text; `null` if there is none. -/
def parse? (s : List Char) : Option Document := do
  match ← root? s with
  | none => some .null
  | some n => n.document?

/-- The document of a YAML text in UTF-8. -/
def parseBytes? (bs : List UInt8) : Option Document := (Text.Utf8.decode? bs).bind parse?

end ApiDouble.Yaml
