import ApiDouble.Text.Bytes

/-!
# Tokens of YAML text

The characters of a text are cut into lexemes (`lexeme?`), and from these the tokens follow
(`Token.scan?`): in block style the beginning and end of collections are not written but follow from
the columns, and a key is known as one only when the colon behind it is reached. So the scanner
keeps the open indentations and, for every level of brackets, the place where a key may have begun.

Line breaks are brought to one form beforehand (`unifyBreaks`).
-/

namespace ApiDouble.Yaml

/-! ## Characters -/

/-- One character for every way to end a line; the two Unicode separators stay as they are. -/
def unifyBreaks : List Char → List Char
  | [] => []
  | '\r' :: '\n' :: r => '\n' :: unifyBreaks r
  | c :: r => (if c = '\r' ∨ c = '\u0085' then '\n' else c) :: unifyBreaks r

def isBreak (c : Char) : Bool := c == '\n' || c == '\u2028' || c == '\u2029'

def isWhite (c : Char) : Bool := c == ' ' || c == '\t'

def isGap (c : Char) : Bool := isWhite c || isBreak c

/-- The characters of anchors, handles and directives. -/
def isWordChar (c : Char) : Bool := c.isAlphanum || c == '_' || c == '-'

/-- Whether a word ends where `s` begins. -/
def atGap (s : List Char) : Bool := s.head?.all isGap

/-- The characters that may stand in a text at all. -/
def isPrintable (c : Char) : Bool :=
  let n := c.toNat
  n == 9 || n == 10 || n == 13 || (0x20 ≤ n && n ≤ 0x7E) || n == 0x85 || (0xA0 ≤ n && n ≤ 0xFFFD) ||
    0x10000 ≤ n

/-- Whether a line begins with one of the marks between documents. -/
def isDocumentMark (s : List Char) : Bool :=
  (['-', '-', '-'].isPrefixOf s || ['.', '.', '.'].isPrefixOf s) && atGap (s.drop 3)

/-! ## Tokens -/

inductive Token
  | version (major minor : Nat)
  | tagHandle (handle head : String)
  | documentStart
  | documentEnd
  | blockSequence
  | blockMapping
  | blockEnd
  | sequenceStart
  | sequenceEnd
  | mappingStart
  | mappingEnd
  | blockEntry
  | flowEntry
  | key
  | value
  | alias (name : String)
  | anchor (name : String)
  | tag (handle suffix : String)
  | scalar (plain : Bool) (text : String)
deriving DecidableEq

/-- How the scanner takes a lexeme. -/
inductive Role
  /-- Ends every block. -/
  | document
  /-- Opens brackets. -/
  | opening
  /-- Closes brackets. -/
  | closing
  | flowEntry
  | blockEntry
  | key
  | value
  /-- May begin a key; says whether a key may begin after it. -/
  | content (keyAfter : Bool)
  /-- A block scalar. -/
  | block

/-- A lexeme: its token, its role, and how many characters it has after its first. -/
structure Lexeme where
  token : Token
  role : Role
  extra : Nat

/-! ## Folding -/

/-- What a run of blanks and breaks between two words stands for: itself on one line; a blank for
one break; the breaks but the first for more. -/
def foldGap (run : List Char) : List Char :=
  match run.filter isBreak with
  | [] => run
  | ['\n'] => [' ']
  | '\n' :: more => more
  | breaks => breaks

/-- How many characters follow the last break. -/
def lastColumn (run : List Char) : Nat := (run.reverse.takeWhile fun c => !isBreak c).length

/-- Whether a run has a tab before column `indent` of a line other than its first. -/
def hasTabBefore (indent : Int) (run : List Char) : Bool :=
  let rec go (column : Option Nat) : List Char → Bool
    | [] => false
    | c :: r =>
      if isBreak c then go (some 0) r
      else (c == '\t' && column.any fun n => (n : Int) < indent) || go (column.map (· + 1)) r
  go none run

/-! ## Plain scalars -/

/-- The part of a plain scalar up to the next gap. Inside brackets a colon before an indicator is
refused. -/
def plainWord? (flow : Bool) : List Char → Option (List Char)
  | [] => some []
  | c :: r =>
    if isGap c then some []
    else if flow ∧ c = ':' ∧ r.head?.any [',', '?', '[', ']', '\x7b', '\x7d'].contains then none
    else if c = ':' ∧ atGap r then some []
    else if flow ∧ [',', '[', ']', '\x7b', '\x7d'].contains c then some []
    else (plainWord? flow r).map (c :: ·)

/-- The text of a plain scalar, how many characters it takes, and whether it ended behind a line
break. Lines after the first must be indented by `indent`. -/
def plainText? (flow : Bool) (indent : Int) (s : List Char) : Option (List Char × Nat × Bool) := do
  let word ← plainWord? flow s
  let rest := s.drop word.length
  let run := rest.takeWhile isGap
  if _h : run.length = 0 then return (word, word.length, false)
  else
    let after := rest.drop run.length
    let broken := run.any isBreak
    if hasTabBefore indent run then none
    else
      let taken := word.length + run.length
      let ends := after.head? = some '#' ∨
        (broken ∧ ((¬ flow ∧ (lastColumn run : Int) < indent) ∨
          (lastColumn run = 0 ∧ isDocumentMark after)))
      if ends then return (word, taken, broken)
      else if (← plainWord? flow after).isEmpty then return (word, taken, broken)
      else
        let (more, n, last) ← plainText? flow indent after
        return (word ++ foldGap run ++ more, taken + n, last)
termination_by s.length
decreasing_by
  have h₁ : ((s.drop word.length).takeWhile isGap).length ≠ 0 := _h
  have h₂ : ((s.drop word.length).takeWhile isGap).length ≤ (s.drop word.length).length :=
    (List.takeWhile_prefix _).length_le
  change ((s.drop word.length).drop ((s.drop word.length).takeWhile isGap).length).length < s.length
  rw [List.length_drop]
  rw [List.length_drop] at h₂ ⊢
  omega

/-! ## Quoted scalars -/

/-- The character of an escape of one letter. -/
def escape? : Char → Option Char
  | '0' => some '\x00'
  | 'a' => some '\x07'
  | 'b' => some '\x08'
  | 't' => some '\t'
  | '\t' => some '\t'
  | 'n' => some '\n'
  | 'v' => some '\x0b'
  | 'f' => some '\x0c'
  | 'r' => some '\r'
  | 'e' => some '\x1b'
  | ' ' => some ' '
  | '"' => some '"'
  | '/' => some '/'
  | '\\' => some '\\'
  | 'N' => some '\u0085'
  | '_' => some '\u00a0'
  | 'L' => some '\u2028'
  | 'P' => some '\u2029'
  | _ => none

/-- How many hexadecimal digits follow an escape letter. -/
def escapeDigits? : Char → Option Nat
  | 'x' => some 2
  | 'u' => some 4
  | 'U' => some 8
  | _ => none

def hexValue? (c : Char) : Option Nat :=
  if '0' ≤ c ∧ c ≤ '9' then some (c.toNat - '0'.toNat)
  else if 'a' ≤ c ∧ c ≤ 'f' then some (c.toNat - 'a'.toNat + 10)
  else if 'A' ≤ c ∧ c ≤ 'F' then some (c.toNat - 'A'.toNat + 10)
  else none

/-- The character with a code point in hexadecimal digits; surrogates have none. -/
def codePoint? (n : Nat) (ds : List Char) : Option Char := do
  if ds.length ≠ n then none
  else
    let v ← ds.foldlM (fun v c => (hexValue? c).map (v * 16 + ·)) 0
    if (0xD800 ≤ v ∧ v ≤ 0xDFFF) ∨ 0x10FFFF < v then none else some (Char.ofNat v)

/-- The text after a gap inside quotes; a document mark may not stand there. -/
def afterGap? (run after : List Char) : Option Unit :=
  if run.any isBreak ∧ lastColumn run = 0 ∧ isDocumentMark after then none else some ()

/-- The text up to the closing single quote, and how many characters it takes. -/
def singleQuoted? (s : List Char) : Option (List Char × Nat) :=
  match s with
  | [] => none
  | '\'' :: '\'' :: r => (singleQuoted? r).map fun p => ('\'' :: p.1, p.2 + 2)
  | '\'' :: _ => some ([], 1)
  | c :: r => do
    if isGap c then
      let run := c :: r.takeWhile isGap
      let after := r.drop (run.length - 1)
      afterGap? run after
      let (cs, n) ← singleQuoted? after
      return (foldGap run ++ cs, run.length + n)
    else
      let (cs, n) ← singleQuoted? r
      return (c :: cs, n + 1)
termination_by s.length
decreasing_by all_goals simp only [List.length_cons, List.length_drop]; omega

/-- The text up to the closing double quote, and how many characters it takes. A backslash at the
end of a line takes the break away. -/
def doubleQuoted? (s : List Char) : Option (List Char × Nat) :=
  match s with
  | [] => none
  | '"' :: _ => some ([], 1)
  | '\\' :: [] => none
  | '\\' :: c :: r => do
    if isBreak c then
      let run := r.takeWhile isGap
      afterGap? (c :: run) (r.drop run.length)
      let (cs, n) ← doubleQuoted? (r.drop run.length)
      return (run.filter isBreak ++ cs, 2 + run.length + n)
    else
      match escapeDigits? c with
      | some k =>
        let x ← codePoint? k (r.take k)
        let (cs, n) ← doubleQuoted? (r.drop k)
        return (x :: cs, 2 + k + n)
      | none =>
        let x ← escape? c
        let (cs, n) ← doubleQuoted? r
        return (x :: cs, 2 + n)
  | c :: r => do
    if isGap c then
      let run := c :: r.takeWhile isGap
      let after := r.drop (run.length - 1)
      afterGap? run after
      let (cs, n) ← doubleQuoted? after
      return (foldGap run ++ cs, run.length + n)
    else
      let (cs, n) ← doubleQuoted? r
      return (c :: cs, n + 1)
termination_by s.length
decreasing_by all_goals simp only [List.length_cons, List.length_drop]; omega

/-! ## Block scalars -/

/-- Which line breaks at its end a block scalar keeps. -/
inductive Chomping
  | strip | clip | keep
deriving DecidableEq

/-- The header of a block scalar: chomping, indentation beyond the surrounding one, and how many
characters it takes up to and with the line break. -/
def blockHeader? (s : List Char) : Option (Chomping × Nat × Nat) :=
  let chomping (c : Char) : Option Chomping :=
    if c = '+' then some .keep else if c = '-' then some .strip else none
  let read : Option (Chomping × Nat × Nat) :=
    match s with
    | c :: d :: _ =>
      match chomping c with
      | some m =>
        if d = '0' then none
        else if d.isDigit then some (m, d.toNat - '0'.toNat, 2) else some (m, 0, 1)
      | none =>
        if c = '0' then none
        else if c.isDigit then
          let n := c.toNat - '0'.toNat
          match chomping d with
          | some m => some (m, n, 2)
          | none => some (.clip, n, 1)
        else some (.clip, 0, 0)
    | [c] =>
      match chomping c with
      | some m => some (m, 0, 1)
      | none =>
        if c = '0' then none
        else if c.isDigit then some (.clip, c.toNat - '0'.toNat, 1) else some (.clip, 0, 0)
    | [] => some (.clip, 0, 0)
  read.bind fun (mode, n, taken) =>
    let rest := s.drop taken
    let whites := rest.takeWhile isWhite
    let rest := rest.drop whites.length
    let comment := if rest.head? = some '#' then rest.takeWhile (!isBreak ·) else []
    let rest := rest.drop comment.length
    if rest.head?.all isBreak then
      some (mode, n, taken + whites.length + comment.length + (rest.take 1).length)
    else none

/-- The empty lines and indentation before a line of a block scalar. `indent` is zero as long as it
is not known. -/
structure BlockGap where
  breaks : List Char
  column : Nat
  widest : Nat
  taken : Nat

def blockGap? (indent column widest : Nat) : List Char → Option BlockGap
  | [] => some ⟨[], column, max widest column, 0⟩
  | c :: r =>
    let short := indent = 0 ∨ column < indent
    if c = ' ' ∧ short then
      (blockGap? indent (column + 1) widest r).map fun g => { g with taken := g.taken + 1 }
    else if c = '\t' ∧ short then none
    else if isBreak c then
      (blockGap? indent 0 (max widest column) r).map fun g =>
        { g with breaks := c :: g.breaks, taken := g.taken + 1 }
    else some ⟨[], column, max widest column, 0⟩

/-- The text of a block scalar so far: its lines joined, the break after the last line, the breaks
of the empty lines after that, and how many characters were taken. -/
structure BlockText where
  text : List Char
  lastBreak : List Char
  emptyLines : List Char
  taken : Nat

/-- Reads the lines of a block scalar from the indentation of a line. Folding puts a blank in the
place of a single break between two lines that do not begin with a blank. -/
def blockLines? (literal : Bool) (indent : Nat) (column : Nat) (acc : BlockText)
    (afterBlank : Bool) (s : List Char) : Option BlockText :=
  match s with
  | [] => some acc
  | c :: r =>
    if column = indent then
      let blank := isWhite c
      let joint :=
        if !literal ∧ acc.lastBreak.head? = some '\n' ∧ !afterBlank ∧ !blank then
          if acc.emptyLines.isEmpty then [' '] else []
        else acc.lastBreak
      let line := r.takeWhile (!isBreak ·)
      let rest := r.drop line.length
      let lineEnd := rest.take 1
      match blockGap? indent 0 0 (rest.drop 1) with
      | none => none
      | some g =>
        blockLines? literal indent g.column
          ⟨acc.text ++ joint ++ acc.emptyLines ++ c :: line, lineEnd, g.breaks,
            acc.taken + 1 + line.length + lineEnd.length + g.taken⟩
          blank ((rest.drop 1).drop g.taken)
    else some acc
termination_by s.length
decreasing_by simp only [List.length_cons, List.length_drop]; omega

/-- The text of a block scalar whose surroundings are indented by `outer`, and how many characters
it takes. -/
def blockText? (literal : Bool) (outer : Int) (s : List Char) : Option (List Char × Nat) := do
  let (mode, extra, taken) ← blockHeader? s
  let wanted := if extra = 0 then 0 else (max outer 0).toNat + extra
  let g ← blockGap? wanted 0 0 (s.drop taken)
  let indent := if wanted = 0 then max (max g.widest (outer + 1).toNat) 1 else wanted
  let t ← blockLines? literal indent g.column ⟨[], [], g.breaks, taken + g.taken⟩ false
    ((s.drop taken).drop g.taken)
  let kept :=
    match mode with
    | .strip => []
    | .clip => t.lastBreak
    | .keep => t.lastBreak ++ t.emptyLines
  return (t.text ++ kept, t.taken)

/-! ## Tags and directives -/

/-- The characters of a tag. -/
def isTagChar (verbatim : Bool) (c : Char) : Bool :=
  isWordChar c || ";/?:@&=+$.%!~*'()".toList.contains c ||
    (verbatim && [',', '[', ']'].contains c)

/-- The bytes of a tag with its percent escapes decoded. -/
def tagBytes? : List Char → Option (List UInt8)
  | [] => some []
  | '%' :: a :: b :: r => do
    let x ← hexValue? a
    let y ← hexValue? b
    return UInt8.ofNat (16 * x + y) :: (← tagBytes? r)
  | c :: r => if c = '%' then none else (tagBytes? r).map (String.utf8EncodeChar c ++ ·)

def tagText? (s : List Char) : Option (List Char) := (tagBytes? s).bind Text.Utf8.decode?

/-- The handle at the head of a tag: an exclamation mark, or two with a word between them. A word
without the second mark belongs to no handle. -/
def handle (s : List Char) : List Char :=
  let word := (s.drop 1).takeWhile isWordChar
  '!' :: word ++ (if (s.drop (1 + word.length)).head? = some '!' then ['!'] else [])

/-- The tag after its exclamation mark: handle and suffix, and how many characters it takes. -/
def tag? (flow : Bool) (r : List Char) : Option (String × String × Nat) := do
  let (h, suffix, taken) ←
    match r with
    | '<' :: r' =>
      let uri := r'.takeWhile (isTagChar true)
      if uri.isEmpty ∨ (r'.drop uri.length).head? ≠ some '>' then none
      else (tagText? uri).map fun t => ([], t, uri.length + 2)
    | _ =>
      let s := '!' :: r
      let h := handle s
      if 1 < h.length ∧ h.getLast? = some '!' then
        let uri := (s.drop h.length).takeWhile (isTagChar false)
        if uri.isEmpty then none else (tagText? uri).map fun t => (h, t, h.length - 1 + uri.length)
      else
        let uri := (s.drop h.length).takeWhile (isTagChar false)
        (tagText? uri).map fun t =>
          let suffix := h.drop 1 ++ t
          if suffix.isEmpty then ([], ['!'], 0) else (['!'], suffix, h.length - 1 + uri.length)
  let after := r.drop taken
  if atGap after ∨ (flow ∧ after.head? = some ',') then
    some (String.ofList h, String.ofList suffix, taken)
  else none

/-- A number of at most nine digits. -/
def versionNumber? (ds : List Char) : Option Nat :=
  if ds.isEmpty ∨ 9 < ds.length then none
  else some (ds.foldl (fun n c => n * 10 + (c.toNat - '0'.toNat)) 0)

/-- A directive after its percent sign, and how many characters it takes up to and with the line
break. -/
def directive? (r : List Char) : Option (Token × Nat) := do
  let name := r.takeWhile isWordChar
  let rest := r.drop name.length
  if name.isEmpty ∨ !atGap rest then none
  else
    let rest := rest.dropWhile isWhite
    let (token, rest) ←
      if name = "YAML".toList then do
        let major := rest.takeWhile Char.isDigit
        let rest := rest.drop major.length
        let minor := (rest.drop 1).takeWhile Char.isDigit
        if rest.head? ≠ some '.' then none
        else
          let token := Token.version (← versionNumber? major) (← versionNumber? minor)
          pure (token, rest.drop (1 + minor.length))
      else if name = "TAG".toList then do
        let h := handle rest
        if rest.head? ≠ some '!' ∨ (1 < h.length ∧ h.getLast? ≠ some '!') then none
        else
          let rest := rest.drop h.length
          let rest' := rest.dropWhile isWhite
          let uri := rest'.takeWhile (isTagChar true)
          if !rest.head?.any isWhite ∨ uri.isEmpty ∨ !atGap (rest'.drop uri.length) then none
          else
            let token := Token.tagHandle (String.ofList h) (String.ofList (← tagText? uri))
            pure (token, rest'.drop uri.length)
      else none
    let rest := rest.dropWhile isWhite
    let rest := if rest.head? = some '#' then rest.dropWhile (!isBreak ·) else rest
    if rest.head?.all isBreak then some (token, r.length - (rest.drop 1).length) else none

/-! ## Lexemes -/

/-- Whether a plain scalar may begin with `c` when `r` follows. -/
def startsPlain (flow : Bool) (c : Char) (r : List Char) : Bool :=
  (!isGap c && !"-?:,[]\x7b\x7d#&*!|>'\"%@\x60".toList.contains c) ||
    (c == '-' && !r.head?.any isWhite) || (!flow && (c == '?' || c == ':') && !atGap r)

/-- The lexeme that begins with `c`, after which `r` follows. `flow` says whether brackets are open,
`lineStart` whether `c` stands in the first column, and `indent` is the indentation around it. -/
def lexeme? (flow lineStart : Bool) (indent : Int) (c : Char) (r : List Char) : Option Lexeme :=
  let single (token : Token) (role : Role) : Option Lexeme := some ⟨token, role, 0⟩
  if lineStart ∧ c = '%' then (directive? r).map fun p => ⟨p.1, .document, p.2⟩
  else if lineStart ∧ isDocumentMark (c :: r) then
    some ⟨if c = '-' then .documentStart else .documentEnd, .document, 2⟩
  else if c = '[' then single .sequenceStart .opening
  else if c = '\x7b' then single .mappingStart .opening
  else if c = ']' then single .sequenceEnd .closing
  else if c = '\x7d' then single .mappingEnd .closing
  else if c = ',' then single .flowEntry .flowEntry
  else if c = '-' ∧ atGap r then single .blockEntry .blockEntry
  else if c = '?' ∧ (flow ∨ atGap r) then single .key .key
  else if c = ':' ∧ (flow ∨ atGap r) then single .value .value
  else if c = '*' ∨ c = '&' then
    let name := r.takeWhile isWordChar
    let after := r.drop name.length
    let ends := atGap after ∨ after.head?.any "?:,]\x7d%@\x60".toList.contains
    if name.isEmpty ∨ ¬ ends then none
    else
      let name' := String.ofList name
      some ⟨if c = '*' then .alias name' else .anchor name', .content false, name.length⟩
  else if c = '!' then (tag? flow r).map fun (h, suffix, n) => ⟨.tag h suffix, .content false, n⟩
  else if (c = '|' ∨ c = '>') ∧ ¬ flow then
    (blockText? (c == '|') indent r).map fun (t, n) => ⟨.scalar false (String.ofList t), .block, n⟩
  else if c = '\'' then
    (singleQuoted? r).map fun (t, n) => ⟨.scalar false (String.ofList t), .content false, n⟩
  else if c = '"' then
    (doubleQuoted? r).map fun (t, n) => ⟨.scalar false (String.ofList t), .content false, n⟩
  else if startsPlain flow c r then
    (plainText? flow (indent + 1) (c :: r)).map fun (t, n, broken) =>
      ⟨.scalar true (String.ofList t), .content broken, n - 1⟩
  else none

/-! ## The scanner -/

/-- A place in a text. -/
structure Position where
  index : Nat
  line : Nat
  column : Nat

def Position.next (p : Position) (c : Char) : Position :=
  if isBreak c then ⟨p.index + 1, p.line + 1, 0⟩ else ⟨p.index + 1, p.line, p.column + 1⟩

/-- Where a key may have begun: the place, the number of tokens before it, and whether the layout
leaves it no choice. -/
structure KeyStart where
  position : Position
  tokensBefore : Nat
  required : Bool

/-- What the scanner knows between two lexemes. The indentation is `-1` outside of any block. `keys`
has an entry for every level of brackets, innermost first. -/
structure Scanner where
  tokens : Array Token
  flow : Nat
  indent : Int
  outerIndents : List Int
  keyAllowed : Bool
  keys : List (Option KeyStart)

namespace Scanner

def start : Scanner := ⟨#[], 0, -1, [], true, [none]⟩

def push (s : Scanner) (t : Token) : Scanner := { s with tokens := s.tokens.push t }

/-- Puts a token before those from number `n` on. -/
def insertAt (s : Scanner) (n : Nat) (t : Token) : Scanner :=
  { s with tokens := (s.tokens.take n).push t ++ s.tokens.drop n }

/-- Forgets the key that may have begun on the innermost level, unless it had to be one. -/
def dropKey? (s : Scanner) : Option Scanner :=
  match s.keys with
  | some k :: _ => if k.required then none else some { s with keys := none :: s.keys.drop 1 }
  | _ => some s

/-- Notes that a key may begin here. -/
def noteKey? (s : Scanner) (p : Position) : Option Scanner :=
  if s.keyAllowed then
    s.dropKey?.map fun s =>
      let k : KeyStart := ⟨p, s.tokens.size, s.flow == 0 && s.indent == (p.column : Int)⟩
      { s with keys := some k :: s.keys.drop 1 }
  else some s

/-- Forgets keys that would reach over a line or over more than 1024 characters. -/
def dropStale? (s : Scanner) (p : Position) : Option Scanner := do
  let keys ← s.keys.mapM fun
    | none => some none
    | some k =>
      if k.position.line < p.line ∨ k.position.index + 1024 < p.index then
        if k.required then none else some none
      else some (some k)
  return { s with keys }

/-- Opens a block at a column, unless one is open there. -/
def openBlock (s : Scanner) (column : Nat) (before : Nat) (t : Token) : Scanner :=
  if s.flow = 0 ∧ s.indent < column then
    { s.insertAt before t with indent := column, outerIndents := s.indent :: s.outerIndents }
  else s

/-- Closes the open blocks that are indented more than `column`. -/
def closeBlocks (s : Scanner) (column : Int) : Scanner :=
  if s.flow = 0 then
    let rec go (s : Scanner) : List Int → Scanner
      | [] => s
      | outer :: rest =>
        if column < s.indent then
          go { s.push .blockEnd with indent := outer, outerIndents := rest } rest
        else s
    go s s.outerIndents
  else s

/-- Opens a block for an entry or key that stands at `column`; inside brackets there is none. -/
def enterBlock? (s : Scanner) (column : Nat) (t : Token) : Option Scanner :=
  if s.flow ≠ 0 then some s
  else if s.keyAllowed then some (s.openBlock column s.tokens.size t)
  else none

/-- Takes a lexeme that stands at `p`. -/
def accept? (s : Scanner) (p : Position) (l : Lexeme) : Option Scanner :=
  match l.role with
  | .document =>
    (s.closeBlocks (-1)).dropKey?.map fun s => { s.push l.token with keyAllowed := false }
  | .opening =>
    (s.noteKey? p).map fun s =>
      { s.push l.token with flow := s.flow + 1, keys := none :: s.keys, keyAllowed := true }
  | .closing =>
    s.dropKey?.map fun s =>
      let s := if s.flow = 0 then s else { s with flow := s.flow - 1, keys := s.keys.drop 1 }
      { s.push l.token with keyAllowed := false }
  | .flowEntry => s.dropKey?.map fun s => { s.push l.token with keyAllowed := true }
  | .blockEntry => do
    let s ← (← s.enterBlock? p.column .blockSequence).dropKey?
    return { s.push l.token with keyAllowed := true }
  | .key => do
    let s ← (← s.enterBlock? p.column .blockMapping).dropKey?
    return { s.push l.token with keyAllowed := s.flow == 0 }
  | .value =>
    match s.keys with
    | some k :: _ =>
      let s := (s.insertAt k.tokensBefore .key).openBlock k.position.column k.tokensBefore
        .blockMapping
      some { s.push l.token with keys := none :: s.keys.drop 1, keyAllowed := false }
    | _ =>
      (s.enterBlock? p.column .blockMapping).map fun s =>
        { s.push l.token with keyAllowed := s.flow == 0 }
  | .content keyAfter => (s.noteKey? p).map fun s => { s.push l.token with keyAllowed := keyAfter }
  | .block => s.dropKey?.map fun s => { s.push l.token with keyAllowed := true }

/-- The tokens at the end of the text. -/
def finish? (s : Scanner) : Option (List Token) :=
  (s.closeBlocks (-1)).dropKey?.map (·.tokens.toList)

/-- Scans a text. Blanks, comments and breaks between lexemes are passed over; outside of brackets a
new line allows a key to begin, and until one has begun a tab is not a blank. `comment` says whether
the scanner is in a comment. -/
def run? (s : Scanner) (p : Position) (comment : Bool) : List Char → Option (List Token)
  | [] => (s.dropStale? p).bind fun s => (s.closeBlocks p.column).finish?
  | c :: r =>
    if isBreak c then
      run? { s with keyAllowed := s.keyAllowed || s.flow == 0 } (p.next c) false r
    else if comment ∨ c = ' ' ∨ (c = '\t' ∧ (s.flow ≠ 0 ∨ ¬ s.keyAllowed)) ∨
        (p.column = 0 ∧ c = '\uFEFF') then
      run? s (p.next c) comment r
    else if c = '#' then run? s (p.next c) true r
    else
      (s.dropStale? p).bind fun s =>
        let s := s.closeBlocks p.column
        (lexeme? (s.flow != 0) (p.column == 0) s.indent c r).bind fun l =>
          (s.accept? p l).bind fun s =>
            run? s ((c :: r.take l.extra).foldl Position.next p) false (r.drop l.extra)
termination_by s => s.length
decreasing_by all_goals simp only [List.length_cons, List.length_drop]; omega

end Scanner

/-- The tokens of a text. -/
def Token.scan? (s : List Char) : Option (List Token) :=
  if s.all isPrintable then Scanner.start.run? ⟨0, 0, 0⟩ false (unifyBreaks s) else none

end ApiDouble.Yaml
