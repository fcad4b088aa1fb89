import PacketRelay.Config.Number
import PacketRelay.Socket

/-!
Reading an address with a port: `192.0.2.1:80`, or an IPv6 address in brackets, which may be
shortened by a double colon, may end in dotted form and may name a scope.
-/

set_option autoImplicit false

namespace PacketRelay.Config.Endpoint

open Number

/-- The pieces of a text between the occurrences of a character; always at least one. -/
def pieces (separator : Char) : List Char → List (List Char)
  | [] => [[]]
  | c :: rest =>
    match pieces separator rest with
    | first :: more => if c == separator then [] :: first :: more else (c :: first) :: more
    | [] => [[c]]

/-- One number of a dotted quad: up to three digits, without a leading zero. -/
def octet? (text : List Char) : Option UInt8 :=
  if 1 < text.length ∧ text.head? = some '0' then none
  else if 3 < text.length then none
  else (decimal? 255 text).map UInt8.ofNat

/-- The bytes of a dotted quad. -/
def quad? (text : List Char) : Option Bytes :=
  match (pieces '.' text).mapM octet? with
  | some [a, b, c, d] => some [a, b, c, d]
  | _ => none

/-- The bytes of one group: up to four hexadecimal digits. -/
def group? (text : List Char) : Option Bytes :=
  if 4 < text.length then none else (natural? 16 text).map fun n => Wire.octets16 (UInt16.ofNat n)

/-- The bytes of groups separated by colons. The last may be a dotted quad, where that is
allowed. -/
def groups? (quadAtEnd : Bool) : List (List Char) → Option Bytes
  | [] => some []
  | [last] => (group? last).or (if quadAtEnd then quad? last else none)
  | first :: rest => do return (← group? first) ++ (← groups? quadAtEnd rest)

/-- Groups of a text that may be empty. -/
def side? (quadAtEnd : Bool) (text : List Char) : Option Bytes :=
  if text.isEmpty then some [] else groups? quadAtEnd (pieces ':' text)

/-- A text around its first double colon. -/
def splitAtGap : List Char → Option (List Char × List Char)
  | ':' :: ':' :: rest => some ([], rest)
  | c :: rest => (splitAtGap rest).map fun (before, after) => (c :: before, after)
  | [] => none

/-- The bytes of an IPv6 address. A double colon stands for one or more groups of zeros. -/
def v6Bytes? (text : List Char) : Option Bytes :=
  match splitAtGap text with
  | none => (groups? true (pieces ':' text)).filter (·.length == 16)
  | some (before, after) => do
    let head ← side? false before
    let tail ← side? true after
    if head.length + tail.length ≤ 14 then
      return head ++ List.replicate (16 - head.length - tail.length) 0 ++ tail
    else none

def v6? (text : List Char) (port : UInt16) : Option Socket.Target := do
  let (address, scope) := cut (· == '%') text
  let bytes ← v6Bytes? address
  let scope ← match scope with
    | none => some 0
    | some digits => decimal? 4294967295 digits
  return ⟨.v6 (Octets.read 16 bytes), port, UInt32.ofNat scope⟩

def parse (text : String) : Option Socket.Target :=
  match text.toList with
  | '[' :: rest => do
    let (inside, behind) := cut (· == ']') rest
    match behind with
    | some (':' :: port) => v6? inside (UInt16.ofNat (← decimal? 65535 port))
    | _ => none
  | chars => do
    let (address, port) := cut (· == ':') chars
    let bytes ← quad? address
    let port ← decimal? 65535 (← port)
    return ⟨.v4 (Octets.read 4 bytes), UInt16.ofNat port, 0⟩

end PacketRelay.Config.Endpoint
