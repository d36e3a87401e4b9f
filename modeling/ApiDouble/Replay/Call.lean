import ApiDouble.Contract.Exchange
import ApiDouble.Text.Bytes
import ApiDouble.Text.Characters
import ApiDouble.Text.Search
import ApiDouble.Uri.Query

/-!
# Calls

What a runner sends and what it gets back. A call that cannot be written as an HTTP request is
refused before it is sent: its method and the names of its headers have to be tokens, the values of
its headers must not hold control characters, and its address has to be one that can be called.

An address can be called if it has the scheme `http` or `https` and a host. Blanks and control
characters at its ends do not count, nor do tabs and line breaks inside. A text that is no address
at all is told apart from an address that nobody can call (`Refusal`). The latter is shown in its
normal form: scheme and host in lower case, and what may not stand in an address written in percent
code.
-/

namespace ApiDouble.Uri

open Text

/-! ## Addresses -/

/-- Why an address cannot be called. -/
inductive Refusal
  | malformed
  | unusable (normal : List Char)
deriving DecidableEq, Repr

/-! ### Hosts -/

/-- The characters that no host has. -/
def isForbiddenInHost (c : Char) : Bool :=
  c.toNat ≤ 0x20 || c.toNat == 0x7F || "#%/:<>?@[\\]^|".toList.contains c

/-- One number of a dotted address: hexadecimal after `0x`, octal after `0`, or else decimal. -/
def dottedPart? : List Char → Option Nat
  | ['0'] => some 0
  | '0' :: x :: ds =>
    if x = 'x' ∨ x = 'X' then if ds.isEmpty then some 0 else naturalIn? 16 ds
    else naturalIn? 8 (x :: ds)
  | ds => natural? ds

/-- The parts of a host between its dots; one dot at the end does not count. -/
def labels (host : List Char) : List (List Char) :=
  let parts := splitOn '.' host
  if parts.getLast? = some [] then parts.dropLast else parts

/-- Whether a host is meant as a dotted address: if its last part is a number. -/
def isDotted (host : List Char) : Bool :=
  (labels host).getLast?.any fun l =>
    (!l.isEmpty && l.all Char.isDigit) || (l.take 2 == ['0', 'x'] && (dottedPart? l).isSome)

/-- Whether the numbers of a dotted address fit: one byte each, the last one all bytes that are
left. -/
def fits : (bytes : Nat) → List Nat → Bool
  | _, [] => false
  | bytes, [n] => decide (n < Nat.pow 256 bytes)
  | bytes, n :: ns => decide (n < 256) && fits (bytes - 1) ns

def isDottedAddress (host : List Char) : Bool :=
  let parts := labels host
  parts.length ≤ 4 && ((parts.mapM dottedPart?).any (fits 4))

/-- How many groups of two bytes a part of a bracketed address has. Its last group may be a dotted
address, which stands for two. -/
def groups? (s : List Char) : Option Nat :=
  if s.isEmpty then some 0
  else
    let parts := splitOn ':' s
    let isGroup (p : List Char) : Bool := p.length ≤ 4 && (naturalIn? 16 p).isSome
    match parts.getLast? with
    | none => none
    | some last =>
      if !parts.dropLast.all isGroup then none
      else if isGroup last then some parts.length
      else if (splitOn '.' last).length = 4 ∧ isDottedAddress last then some (parts.length + 1)
      else none

/-- Whether a text is the inside of a bracketed address: eight groups, or fewer with a gap. -/
def isBracketedAddress (s : List Char) : Bool :=
  match splitAt [':', ':'] s with
  | [whole] => groups? whole == some 8
  | [before, after] =>
    match groups? before, groups? after with
    | some m, some n => decide (m + n ≤ 7)
    | _, _ => false
  | _ => false

def isHost (host : List Char) : Bool :=
  match host with
  | '[' :: inner => inner.getLast? == some ']' && isBracketedAddress inner.dropLast
  | _ =>
    let name := decode host
    !name.isEmpty && !name.any isForbiddenInHost && (!isDotted name || isDottedAddress name)

/-- Whether digits make a number of sixteen bits. -/
def isSixteenBit (ds : List Char) : Bool := ds.all Char.isDigit && natOfDigits ds < UInt16.size

/-- The host of an authority and what follows it, what is in front of an at sign aside. -/
def splitHost (authority : List Char) : List Char × List Char :=
  let place := ((splitAt ['@'] authority).getLast?).getD []
  let host :=
    if place.head? = some '[' then place.take ((place.takeWhile (· != ']')).length + 1)
    else place.takeWhile (· != ':')
  (host, place.drop host.length)

/-- Whether an authority names a host, with a colon and a number behind it if anything is. -/
def isAuthority (authority : List Char) : Bool :=
  match splitHost authority with
  | (host, []) => isHost host
  | (host, ':' :: ds) => isHost host && isSixteenBit ds
  | _ => false

/-! ### Schemes -/

/-- The scheme of an address in lower case, and what follows its colon. -/
def scheme? (s : List Char) : Option (List Char × List Char) :=
  let scheme := s.takeWhile fun c => c.isAlphanum || ['+', '-', '.'].contains c
  match s.drop scheme.length with
  | ':' :: rest => if scheme.head?.any Char.isAlpha then some (asciiLower scheme, rest) else none
  | _ => none

/-- The schemes of addresses that must have a host. -/
def hostSchemes : List (List Char) := ["http", "https", "ws", "wss", "ftp"].map String.toList

/-- The text without what does not count. -/
def significant (s : List Char) : List Char :=
  let isOuter (c : Char) : Bool := c.toNat ≤ 0x20
  let inner := ((s.dropWhile isOuter).reverse.dropWhile isOuter).reverse
  inner.filter fun c => !(['\t', '\n', '\r'].contains c)

/-! ### Normal form -/

/-- Whether a byte of a path or a query stands for itself. -/
def isPlainByte (b : UInt8) : Bool :=
  0x21 ≤ b && b ≤ 0x7E && !("\"<>\x60\x7b\x7d".toList.contains (Char.ofNat b.toNat))

/-- Whether a byte stands for itself behind a scheme without slashes. -/
def isOpaqueByte (b : UInt8) : Bool := 0x20 ≤ b && b ≤ 0x7E

/-- An address with an authority: its path begins with a slash and has no backslashes. -/
def normalWithHost (scheme authority path : List Char) : List Char :=
  let path := if path.head?.any ['/', '\\'].contains then path else '/' :: path
  let segments := path.takeWhile fun c => c != '?' && c != '#'
  let main := segments.map fun c => if c = '\\' then '/' else c
  scheme ++ "://".toList ++ asciiLower authority ++
    encode isPlainByte (main ++ path.drop main.length)

/-- The characters of an authority that cannot be sent. -/
def isUnsendable (c : Char) : Bool := ['"', '\x60', '\x7b', '\x7d'].contains c

/-- Why an address cannot be called, none if it can. -/
def refusal? (url : String) : Option Refusal :=
  match scheme? (significant url.toList) with
  | none => some .malformed
  | some (scheme, rest) =>
    if hostSchemes.contains scheme then
      let place := rest.dropWhile ['/', '\\'].contains
      let authority := place.takeWhile fun c => !(['/', '\\', '?', '#'].contains c)
      if !isAuthority authority then some .malformed
      else if scheme.take 4 = "http".toList ∧ !(authority.any isUnsendable) then none
      else some (.unusable (normalWithHost scheme authority (place.drop authority.length)))
    else
      let keep := if rest.head? = some '/' then isPlainByte else isOpaqueByte
      some (.unusable (scheme ++ ':' :: encode keep rest))

end ApiDouble.Uri

/-! ## Calls and replies -/

namespace ApiDouble.Replay

open Text

/-- A request on its way out. -/
structure Call where
  method : String
  url : String
  headers : List Header
  body : Option String
deriving DecidableEq, Inhabited

/-- A response as it was captured. -/
structure Capture where
  status : Nat
  headers : List Header
  mediaType : Option String
  body : String
deriving DecidableEq, Inhabited

/-- Why a call has no response. -/
inductive TransportError
  | invalidRequest (message : String)
  | connect (message : String)
  | timeout (message : String)
  | request (message : String)
  | body (message : String)
  | client (message : String)
deriving DecidableEq, Repr

def TransportError.message : TransportError → String
  | invalidRequest m => "invalid request: " ++ m
  | connect m => "connection failed: " ++ m
  | timeout m => "timed out: " ++ m
  | request m => "request failed: " ++ m
  | body m => "failed to read response: " ++ m
  | client m => "failed to build client: " ++ m

/-- How a call ended. -/
abbrev Reply := Except TransportError Capture

/-! ### Refused calls -/

/-- The characters of a token. -/
def isTokenChar (c : Char) : Bool :=
  c.isAlphanum || "!#$%&'*+-.^_\x60|~".toList.contains c

def isToken (s : String) : Bool := !s.isEmpty && s.toList.all isTokenChar

/-- Whether a byte may stand in the value of a header. -/
def isValueByte (b : UInt8) : Bool := (32 ≤ b && b != 127) || b == 9

def isHeaderValue (s : String) : Bool := (Utf8.bytes s).all isValueByte

/-- What is wrong with an address. -/
def addressFault? (url : String) : Option String :=
  match Uri.refusal? url with
  | none => none
  | some .malformed => some "builder error"
  | some (.unusable normal) => some ("builder error for url (" ++ String.ofList normal ++ ")")

/-- Why a call is refused, none if it can be sent. The method is looked at first, then each header,
then the address. -/
def Call.refusal? (c : Call) : Option TransportError :=
  if !isToken c.method then
    some (.invalidRequest ("method '" ++ c.method ++ "': invalid HTTP method"))
  else
    match c.headers.findSome? header? with
    | some e => some e
    | none => (addressFault? c.url).map .invalidRequest
where
  header? (h : Header) : Option TransportError :=
    if !isToken h.name then
      some (.invalidRequest ("header name '" ++ h.name ++ "': invalid HTTP header name"))
    else if !isHeaderValue h.joined then
      some (.invalidRequest ("header value for '" ++ h.name ++ "': failed to parse header value"))
    else none

end ApiDouble.Replay
