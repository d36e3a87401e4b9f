import ApiDouble.Contract.Service
import ApiDouble.Document.Basic
import ApiDouble.Settings

/-!
# References, errors and warnings

A node of a specification may stand for another one, which it names in a field such as `$ref` by a
pointer into the same document. Following references stops at the first node without one
(`resolve`). A pointer that comes up twice is a cycle, and a bound limits how many are followed.

Only a specification that cannot be read at all ends an import with an error. It goes on when a part
is of no use: the part is left out and a warning says so. `Noted` carries a value together with the
warnings met on the way to it, in their order.
-/

namespace ApiDouble.Import

/-! ## References -/

/-- Why a reference leads nowhere. -/
inductive ReferenceError
  | unresolved (pointer : String)
  | cyclic (pointer : String)
  | tooDeep (limit : Nat)
  | external (pointer : String)
deriving DecidableEq, Repr

def ReferenceError.message : ReferenceError → String
  | unresolved p => "unresolved reference '" ++ p ++ "'"
  | cyclic p => "cyclic reference '" ++ p ++ "'"
  | tooDeep n => "reference chain longer than " ++ toString n ++ " hops"
  | external p => "external reference '" ++ p ++ "' is not supported"

/-- The node of a document that a pointer of the form `#/a/b` names. -/
def target (root : Document) (pointer : String) : Except ReferenceError Document :=
  match pointer.toList with
  | '#' :: rest =>
    match root.at? rest with
    | some d => .ok d
    | none => .error (.unresolved pointer)
  | _ => .error (.external pointer)

/-- The pointer that a node holds in the field `key`. -/
def pointer? (key : String) (node : Document) : Option String :=
  (node.get? key).bind Document.string?

/-- The node at the end of a chain of references, `seen` being the pointers followed so far and
`left` how many more may be. -/
def follow (root : Document) (key : String) (limit : Nat) (seen : List String) (node : Document) :
    (left : Nat) → Except ReferenceError Document
  | 0 =>
    match pointer? key node with
    | none => .ok node
    | some p => .error (if seen.contains p then .cyclic p else .tooDeep limit)
  | left + 1 =>
    match pointer? key node with
    | none => .ok node
    | some p =>
      if seen.contains p then .error (.cyclic p)
      else (target root p).bind fun next => follow root key limit (p :: seen) next left

/-- Follows the references of `node` under `key`, at most `limit` of them. -/
def resolve (root : Document) (limit : Nat) (key : String) (node : Document) :
    Except ReferenceError Document :=
  follow root key limit [] node limit

/-! ## Errors -/

/-- The languages that specifications are written in. -/
inductive Dialect
  | asyncApi | openApi
deriving DecidableEq, Repr

def Dialect.all : List Dialect := [.asyncApi, .openApi]

/-- The key at the root of a document that says which dialect it is in. -/
def Dialect.rootKey : Dialect → String
  | asyncApi => "asyncapi"
  | openApi => "openapi"

def Dialect.title : Dialect → String
  | asyncApi => "AsyncAPI"
  | openApi => "OpenAPI"

/-- Why a specification cannot be imported. -/
inductive Error
  | malformed (format : Format)
  | rootNotObject (format : Format)
  | untitled (dialect : Dialect)
  | unknownDialect (rootKeys : List String)
deriving DecidableEq, Repr

/-- The wording of an error, none where it is up to the reader of the format. -/
def Error.message? : Error → Option String
  | malformed _ => none
  | rootNotObject f => some s!"spec parse error ({f.word}): document root is not an object"
  | untitled d => some s!"spec parse error (yaml): {d.title} document has no info.title"
  | unknownDialect keys => some ("unsupported specification dialect: " ++
      "no 'asyncapi' or 'openapi' root key (found: " ++ ", ".intercalate keys ++ ")")

/-! ## Warnings -/

inductive WarningKind
  | partialImport | referenceResolution
deriving DecidableEq, Repr

def WarningKind.word : WarningKind → String
  | partialImport => "partial_import"
  | referenceResolution => "reference_resolution"

/-- A part that was left out, and why. -/
structure Warning where
  kind : WarningKind
  unit : String
  reason : String
deriving DecidableEq, Repr

def Warning.text (w : Warning) : String := w.unit ++ ": " ++ w.reason

/-- A value and the warnings about it. -/
structure Noted (α : Type) where
  value : α
  warnings : List Warning
deriving DecidableEq, Repr

namespace Noted

instance : Monad Noted where
  pure x := ⟨x, []⟩
  bind x f := ⟨(f x.value).value, x.warnings ++ (f x.value).warnings⟩

variable {α β : Type}

@[simp] theorem value_pure (x : α) : (pure x : Noted α).value = x := rfl

@[simp] theorem warnings_pure (x : α) : (pure x : Noted α).warnings = [] := rfl

@[simp] theorem value_bind (x : Noted α) (f : α → Noted β) :
    (x >>= f).value = (f x.value).value := rfl

@[simp] theorem warnings_bind (x : Noted α) (f : α → Noted β) :
    (x >>= f).warnings = x.warnings ++ (f x.value).warnings := rfl

/-- Notes that a part is missing or malformed. -/
def incomplete (unit reason : String) : Noted Unit := ⟨(), [⟨.partialImport, unit, reason⟩]⟩

/-- Notes that a reference leads nowhere. -/
def dangling (unit : String) (e : ReferenceError) : Noted Unit :=
  ⟨(), [⟨.referenceResolution, unit, e.message⟩]⟩

/-- The value if there is one, or else a note that a reference leads nowhere. -/
def orDangling (unit : String) : Except ReferenceError α → Noted (Option α)
  | .ok x => return some x
  | .error e => do dangling unit e; return none

/-- Adds an operation to a service, or notes that its name is taken. -/
def declare (s : Service) (op : Operation) : Noted Service :=
  match s.addOperation? op with
  | some s => return s
  | none => do incomplete op.name "duplicate operation name"; return s

end Noted

end ApiDouble.Import
