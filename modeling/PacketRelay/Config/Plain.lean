import PacketRelay.Config.Number
import PacketRelay.Config.Value

/-!
The values of plain scalars in a configuration document.

A plain scalar is a null, a truth value, a number or else text. Numbers that are too large to be
kept, and whole numbers with needless zeros in front, are text.
-/

set_option autoImplicit false

namespace PacketRelay.Config.Plain

open Number

/-- Digits with a leading zero in front of others are text, not a number. -/
def hasLeadingZero (digits : List Char) : Bool :=
  1 < digits.length && digits.head? == some '0' && digits.all Char.isDigit

/-- A number without its sign: decimal, or behind `0x`, `0o` or `0b` in that base. -/
def natural? (text : List Char) : Option Nat :=
  match text with
  | '0' :: 'x' :: rest => Number.natural? 16 rest
  | '0' :: 'o' :: rest => Number.natural? 8 rest
  | '0' :: 'b' :: rest => Number.natural? 2 rest
  | _ => if hasLeadingZero text then none else Number.natural? 10 text

/-- Whether a whole number is kept: as a signed or an unsigned number of 128 bits. -/
def fits (negative : Bool) (size : Nat) : Bool :=
  if negative then size ≤ Nat.pow 2 127 else size < Nat.pow 2 128

/-- A whole number that is kept: whether there is a minus in front, and its size. -/
def integer? (text : List Char) : Option (Bool × Nat) :=
  let (negative, digits) := unsign text
  ((natural? digits).filter (fits negative)).map (negative, ·)

/-- Infinities and the number that is none. -/
def specialReals : List String :=
  [".inf", ".Inf", ".INF", "+.inf", "+.Inf", "+.INF", "-.inf", "-.Inf", "-.INF", ".nan", ".NaN", ".NAN"]

/-- Whether a text is a number that is not whole, or too large to be kept as one. -/
def isReal (text : List Char) : Bool :=
  specialReals.contains (String.ofList text) ||
    (!hasLeadingZero (unsign text).2 && (magnitude? text).any (·.isFinite))

def value (word : String) : Value :=
  let text := word.toList
  if ["", "~", "null", "Null", "NULL"].contains word then .empty
  else if ["true", "True", "TRUE"].contains word then .boolean true
  else if ["false", "False", "FALSE"].contains word then .boolean false
  else match integer? text with
    | some (negative, size) => .integer negative size
    | none => if isReal text then .real else .text word

end PacketRelay.Config.Plain
