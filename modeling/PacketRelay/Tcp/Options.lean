import PacketRelay.Wire.Word
import PacketRelay.Packet.Error

/-!
The options of a TCP header.

The option bytes are a run of single no-operation bytes and of options made of a kind, a length that
counts kind and length too, and a body; an end-of-list byte ends the run early. The kinds known here
have bodies of fixed length, save selective acknowledgments, which come in blocks of eight bytes.
-/

set_option autoImplicit false

namespace PacketRelay.Tcp

open Wire

/-- The two clock values of the timestamp option. -/
structure Timestamps where
  value : UInt32
  echoReply : UInt32
  deriving DecidableEq

structure Options where
  mss : Option UInt16
  windowScale : Option UInt8
  sackPermitted : Bool
  timestamps : Option Timestamps
  deriving DecidableEq

namespace Options

def empty : Options := ⟨none, none, false, none⟩

/-- Kinds of options. -/
def kindEnd : UInt8 := 0
def kindNop : UInt8 := 1
def kindMss : UInt8 := 2
def kindWindowScale : UInt8 := 3
def kindSackPermitted : UInt8 := 4
def kindSack : UInt8 := 5
def kindTimestamps : UInt8 := 8

/-- Takes one option into account. A known kind whose body has the wrong length is refused, an
unknown kind changes nothing. -/
def record (seen : Options) (kind : UInt8) (body : Bytes) : Option Options :=
  if kind = kindMss then
    match body with
    | [a, b] => some { seen with mss := some (word16 a b) }
    | _ => none
  else if kind = kindWindowScale then
    match body with
    | [shift] => some { seen with windowScale := some shift }
    | _ => none
  else if kind = kindSackPermitted then
    match body with
    | [] => some { seen with sackPermitted := true }
    | _ => none
  else if kind = kindSack then
    if body.length % 8 = 0 then some seen else none
  else if kind = kindTimestamps then
    match body with
    | [a, b, c, d, e, f, g, h] =>
      some { seen with timestamps := some ⟨word32 a b c d, word32 e f g h⟩ }
    | _ => none
  else some seen

/-- Walks the option bytes, adding to the options seen so far. The last occurrence of a kind counts,
and the first fault ends the walk. -/
def walk (seen : Options) : Bytes → Except PacketError Options
  | [] => .ok seen
  | [kind] =>
    if kind = kindEnd ∨ kind = kindNop then .ok seen
    else .error (.malformed .optionWithoutLength)
  | kind :: length :: rest =>
    if kind = kindEnd then .ok seen
    else if kind = kindNop then walk seen (length :: rest)
    else if length < 2 ∨ rest.length + 2 < length.toNat then
      .error (.malformed .optionLengthOutOfRange)
    else match seen.record kind (rest.take (length.toNat - 2)) with
      | some seen => walk seen (rest.drop (length.toNat - 2))
      | none => .error (.malformed .optionWrongLength)
termination_by bytes => bytes.length
decreasing_by all_goals simp <;> omega

def parse (bytes : Bytes) : Except PacketError Options := walk empty bytes

/-- The maximum segment size option. -/
def writeMss (mss : UInt16) : Bytes := [kindMss, 4] ++ octets16 mss

/-- The timestamp option, padded in front to whole words. -/
def writeTimestamps (t : Timestamps) : Bytes :=
  [kindNop, kindNop, kindTimestamps, 10] ++ octets32 t.value ++ octets32 t.echoReply

end Options
end PacketRelay.Tcp
