import ApiDouble.Document.Yaml.Token

/-!
# Nodes of YAML text

The tokens of a document make up a tree of nodes (`Node.ofTokens?`): scalars, sequences and
mappings, each with an anchor and a tag if it has them, and aliases of earlier anchors. Where a node
is missing the empty plain scalar takes its place. A text holds one document.

As with JSON text, every reader answers with the rest of the tokens and the fact that it is shorter.
-/

namespace ApiDouble.Yaml

/-- The anchor and tag of a node. -/
structure Properties where
  anchor : Option String
  tag : Option String
deriving DecidableEq, Inhabited

/-- A tree of nodes. -/
inductive Node
  | alias (name : String)
  | scalar (properties : Properties) (plain : Bool) (text : String)
  | sequence (properties : Properties) (items : List Node)
  | mapping (properties : Properties) (entries : List (Node × Node))
deriving Inhabited

def Node.empty : Node := .scalar ⟨none, none⟩ true ""

/-- Handles and what they stand for. -/
abbrev Handles := List (String × String)

def Handles.standard : Handles := [("!", "!"), ("!!", "tag:yaml.org,2002:")]

/-- The tag that a handle and a suffix make. Without a handle the suffix is the whole tag. -/
def Handles.resolve? (hs : Handles) (handle suffix : String) : Option String :=
  if handle.isEmpty then some suffix else (hs.lookup handle).map (· ++ suffix)

/-- What is left of `ts`, something having been read from it. -/
abbrev After (ts : List Token) := { r : List Token // r.length < ts.length }

/-- What is left of `ts`, perhaps all of it. -/
abbrev Within (ts : List Token) := { r : List Token // r.length ≤ ts.length }

theorem lt_cons {r ts : List Token} {t : Token} (h : r.length ≤ ts.length) :
    r.length < (t :: ts).length := Nat.lt_succ_of_le h

/-- The anchor and the tag at the head of some tokens, in either order. -/
def properties? (hs : Handles) (ts : List Token) : Option (Properties × Within ts) :=
  match ts with
  | .anchor a :: .tag h s :: r => do
    return (⟨some a, ← hs.resolve? h s⟩, ⟨r, by simp only [List.length_cons]; omega⟩)
  | .anchor a :: r => some (⟨some a, none⟩, ⟨r, by simp only [List.length_cons]; omega⟩)
  | .tag h s :: .anchor a :: r => do
    return (⟨some a, ← hs.resolve? h s⟩, ⟨r, by simp only [List.length_cons]; omega⟩)
  | .tag h s :: r => do
    return (⟨none, ← hs.resolve? h s⟩, ⟨r, by simp only [List.length_cons]; omega⟩)
  | ts => some (⟨none, none⟩, ⟨ts, Nat.le_refl _⟩)

/-- Where a node can stand: in block style, and there perhaps as a sequence without indentation of
its own, or inside brackets. -/
inductive Place
  | block | indentless | flow
deriving DecidableEq

/-- The empty node that an anchor or tag alone stands for. -/
def emptyNode {ts : List Token} (p : Properties) (rest : Within ts) : Option (Node × After ts) :=
  if h : rest.1.length < ts.length then some (.scalar p true "", ⟨rest.1, h⟩) else none

mutual

/-- The node at the head of some tokens. -/
def node? (hs : Handles) (place : Place) (ts : List Token) : Option (Node × After ts) :=
  match ts with
  | .alias name :: r => some (.alias name, ⟨r, lt_cons (Nat.le_refl _)⟩)
  | ts => do
    let (p, rest) ← properties? hs ts
    have hrest := rest.2
    match h : rest.1 with
    | .scalar plain text :: r =>
      let unmarked := p.tag = some "!"
      return (.scalar (if unmarked then { p with tag := none } else p) plain text,
        ⟨r, by simp only [h, List.length_cons] at hrest; omega⟩)
    | .sequenceStart :: r => do
      have hr : r.length < ts.length := by simp only [h, List.length_cons] at hrest; omega
      let (xs, r') ← flowItems? hs true r
      return (.sequence p xs, ⟨r'.1, Nat.lt_trans r'.2 hr⟩)
    | .mappingStart :: r => do
      have hr : r.length < ts.length := by simp only [h, List.length_cons] at hrest; omega
      let (es, r') ← flowEntries? hs true r
      return (.mapping p es, ⟨r'.1, Nat.lt_trans r'.2 hr⟩)
    | .blockEntry :: r =>
      if place = .indentless then do
        have hr : r.length < ts.length := by simp only [h, List.length_cons] at hrest; omega
        let (x, r') ← nodeUnless? hs [.blockEntry, .key, .value, .blockEnd] .block r
        have hr' := r'.2
        let (xs, r'') ← indentlessItems? hs r'.1
        return (.sequence p (x :: xs), ⟨r''.1, Nat.lt_of_le_of_lt (Nat.le_trans r''.2 hr') hr⟩)
      else emptyNode p rest
    | .blockSequence :: r =>
      if place = .flow then emptyNode p rest
      else do
        have hr : r.length < ts.length := by simp only [h, List.length_cons] at hrest; omega
        let (xs, r') ← blockItems? hs r
        return (.sequence p xs, ⟨r'.1, Nat.lt_trans r'.2 hr⟩)
    | .blockMapping :: r =>
      if place = .flow then emptyNode p rest
      else do
        have hr : r.length < ts.length := by simp only [h, List.length_cons] at hrest; omega
        let (es, r') ← blockEntries? hs r
        return (.mapping p es, ⟨r'.1, Nat.lt_trans r'.2 hr⟩)
    | _ => emptyNode p rest
termination_by (ts.length, 0)

/-- The node at the head of some tokens, the empty one before any of the tokens `ends`. -/
def nodeUnless? (hs : Handles) (ends : List Token) (place : Place) (ts : List Token) :
    Option (Node × Within ts) :=
  if ts.head?.any ends.contains then some (.empty, ⟨ts, Nat.le_refl _⟩)
  else (node? hs place ts).map fun p => (p.1, ⟨p.2.1, Nat.le_of_lt p.2.2⟩)
termination_by (ts.length, 1)

/-- The entries of a sequence in block style. -/
def blockItems? (hs : Handles) (ts : List Token) : Option (List Node × After ts) :=
  match ts with
  | .blockEntry :: r => do
    let (x, r') ← nodeUnless? hs [.blockEntry, .blockEnd] .block r
    have hr' := lt_cons (t := .blockEntry) r'.2
    let (xs, r'') ← blockItems? hs r'.1
    return (x :: xs, ⟨r''.1, Nat.lt_trans r''.2 hr'⟩)
  | .blockEnd :: r => some ([], ⟨r, lt_cons (Nat.le_refl _)⟩)
  | _ => none
termination_by (ts.length, 0)

/-- The further entries of a sequence that is not indented within its mapping. -/
def indentlessItems? (hs : Handles) (ts : List Token) : Option (List Node × Within ts) :=
  match ts with
  | .blockEntry :: r => do
    let (x, r') ← nodeUnless? hs [.blockEntry, .key, .value, .blockEnd] .block r
    have hr' := lt_cons (t := .blockEntry) r'.2
    let (xs, r'') ← indentlessItems? hs r'.1
    return (x :: xs, ⟨r''.1, Nat.le_of_lt (Nat.lt_of_le_of_lt r''.2 hr')⟩)
  | ts => some ([], ⟨ts, Nat.le_refl _⟩)
termination_by (ts.length, 0)

/-- The value after a key in block style. -/
def blockValue? (hs : Handles) (ts : List Token) : Option (Node × Within ts) :=
  match ts with
  | .value :: r =>
    (nodeUnless? hs [.key, .value, .blockEnd] .indentless r).map fun p =>
      (p.1, ⟨p.2.1, Nat.le_of_lt (lt_cons p.2.2)⟩)
  | ts => some (.empty, ⟨ts, Nat.le_refl _⟩)
termination_by (ts.length, 0)

/-- The entries of a mapping in block style. -/
def blockEntries? (hs : Handles) (ts : List Token) : Option (List (Node × Node) × After ts) :=
  match ts with
  | .key :: r => do
    let (k, r') ← nodeUnless? hs [.key, .value, .blockEnd] .indentless r
    have hr' := lt_cons (t := .key) r'.2
    let (v, r'') ← blockValue? hs r'.1
    have hr'' := Nat.lt_of_le_of_lt r''.2 hr'
    let (es, rest) ← blockEntries? hs r''.1
    return ((k, v) :: es, ⟨rest.1, Nat.lt_trans rest.2 hr''⟩)
  | .blockEnd :: r => some ([], ⟨r, lt_cons (Nat.le_refl _)⟩)
  | _ => none
termination_by (ts.length, 0)

/-- The value after a key inside brackets that `close` closes. -/
def flowValue? (hs : Handles) (close : Token) (ts : List Token) : Option (Node × Within ts) :=
  match ts with
  | .value :: r =>
    (nodeUnless? hs [.flowEntry, close] .flow r).map fun p =>
      (p.1, ⟨p.2.1, Nat.le_of_lt (lt_cons p.2.2)⟩)
  | ts => some (.empty, ⟨ts, Nat.le_refl _⟩)
termination_by (ts.length, 0)

/-- The items of a sequence in brackets. An item that is a single key with its value stands for a
mapping. -/
def flowItems? (hs : Handles) (first : Bool) (ts : List Token) : Option (List Node × After ts) :=
  match ts with
  | .sequenceEnd :: r => some ([], ⟨r, lt_cons (Nat.le_refl _)⟩)
  | .flowEntry :: r =>
    if first then none
    else
      match r with
      | .sequenceEnd :: r' => some ([], ⟨r', by simp only [List.length_cons]; omega⟩)
      | r => do
        let (x, r') ← flowItem? hs r
        have hr' := Nat.lt_trans r'.2 (Nat.lt_succ_self r.length)
        let (xs, rest) ← flowItems? hs false r'.1
        return (x :: xs, ⟨rest.1, Nat.lt_trans rest.2 hr'⟩)
  | ts =>
    if first then do
      let (x, r') ← flowItem? hs ts
      have hr' := r'.2
      let (xs, rest) ← flowItems? hs false r'.1
      return (x :: xs, ⟨rest.1, Nat.lt_trans rest.2 hr'⟩)
    else none
termination_by (ts.length, 2)

/-- The key of an item that is a single entry. A key that is missing takes the token in its place
away. -/
def flowKey? (hs : Handles) (ts : List Token) : Option (Node × Within ts) :=
  match ts with
  | .value :: r => some (.empty, ⟨r, Nat.le_of_lt (lt_cons (Nat.le_refl _))⟩)
  | .flowEntry :: r => some (.empty, ⟨r, Nat.le_of_lt (lt_cons (Nat.le_refl _))⟩)
  | .sequenceEnd :: r => some (.empty, ⟨r, Nat.le_of_lt (lt_cons (Nat.le_refl _))⟩)
  | ts => (node? hs .flow ts).map fun p => (p.1, ⟨p.2.1, Nat.le_of_lt p.2.2⟩)
termination_by (ts.length, 1)

/-- One item of a sequence in brackets. -/
def flowItem? (hs : Handles) (ts : List Token) : Option (Node × After ts) :=
  match ts with
  | .key :: r => do
    let (k, r') ← flowKey? hs r
    have hr' := lt_cons (t := .key) r'.2
    let (v, r'') ← flowValue? hs .sequenceEnd r'.1
    return (.mapping ⟨none, none⟩ [(k, v)], ⟨r''.1, Nat.lt_of_le_of_lt r''.2 hr'⟩)
  | ts => node? hs .flow ts
termination_by (ts.length, 1)

/-- The entries of a mapping in braces. -/
def flowEntries? (hs : Handles) (first : Bool) (ts : List Token) :
    Option (List (Node × Node) × After ts) :=
  match ts with
  | .mappingEnd :: r => some ([], ⟨r, lt_cons (Nat.le_refl _)⟩)
  | .flowEntry :: r =>
    if first then none
    else
      match r with
      | .mappingEnd :: r' => some ([], ⟨r', by simp only [List.length_cons]; omega⟩)
      | r => do
        let (e, r') ← flowPair? hs r
        have hr' := Nat.lt_trans r'.2 (Nat.lt_succ_self r.length)
        let (es, rest) ← flowEntries? hs false r'.1
        return (e :: es, ⟨rest.1, Nat.lt_trans rest.2 hr'⟩)
  | ts =>
    if first then do
      let (e, r') ← flowPair? hs ts
      have hr' := r'.2
      let (es, rest) ← flowEntries? hs false r'.1
      return (e :: es, ⟨rest.1, Nat.lt_trans rest.2 hr'⟩)
    else none
termination_by (ts.length, 2)

/-- One entry of a mapping in braces. -/
def flowPair? (hs : Handles) (ts : List Token) : Option ((Node × Node) × After ts) :=
  match ts with
  | .key :: r => do
    let (k, r') ← nodeUnless? hs [.value, .flowEntry, .mappingEnd] .flow r
    have hr' := lt_cons (t := .key) r'.2
    let (v, r'') ← flowValue? hs .mappingEnd r'.1
    return ((k, v), ⟨r''.1, Nat.lt_of_le_of_lt r''.2 hr'⟩)
  | ts => (node? hs .flow ts).map fun p => ((p.1, .empty), p.2)
termination_by (ts.length, 1)

end

/-! ## Documents -/

/-- The handles that the directives before a document set. A version must be 1.1 or 1.2, and neither
it nor a handle may be given twice. -/
def directives? (version : Bool) (hs : Handles) : List Token → Option (Handles × List Token)
  | .version major minor :: r =>
    if version ∨ major ≠ 1 ∨ (minor ≠ 1 ∧ minor ≠ 2) then none else directives? true hs r
  | .tagHandle handle head :: r =>
    if (hs.lookup handle).isSome then none else directives? version (hs ++ [(handle, head)]) r
  | ts => some (hs ++ Handles.standard, ts)

/-- The root of the only document; nothing for a text without any. -/
def Node.ofTokens? (ts : List Token) : Option (Option Node) :=
  let ended (r : List Token) : Bool := r.all (· == .documentEnd)
  match ts with
  | [] => some none
  | .version .. :: _ | .tagHandle .. :: _ | .documentStart :: _ => do
    let (hs, r) ← directives? false [] ts
    match r with
    | .documentStart :: r =>
      let ends : List Token → Bool
        | [] | .version .. :: _ | .tagHandle .. :: _ | .documentStart :: _ | .documentEnd :: _ =>
          true
        | _ => false
      if ends r then if ended r then some (some .empty) else none
      else
        let (n, rest) ← node? hs .block r
        if ended rest.1 then some (some n) else none
    | _ => none
  | ts => do
    let (n, rest) ← node? Handles.standard .block ts
    if ended rest.1 then some (some n) else none

end ApiDouble.Yaml
