/-!
Numbers in configuration texts.
-/

set_option autoImplicit false

namespace PacketRelay.Config.Number

def digit? (base : Nat) (c : Char) : Option Nat :=
  let value :=
    if '0' ≤ c ∧ c ≤ '9' then some (c.toNat - '0'.toNat)
    else if 'a' ≤ c ∧ c ≤ 'f' then some (c.toNat - 'a'.toNat + 10)
    else if 'A' ≤ c ∧ c ≤ 'F' then some (c.toNat - 'A'.toNat + 10)
    else none
  value.filter (· < base)

/-- The number that digits spell after those of `n`. -/
def extend? (base n : Nat) : List Char → Option Nat
  | [] => some n
  | c :: rest => (digit? base c).bind fun d => extend? base (n * base + d) rest

/-- The number that one or more digits spell. -/
def natural? (base : Nat) (text : List Char) : Option Nat :=
  if text.isEmpty then none else extend? base 0 text

def decimal? (bound : Nat) (text : List Char) : Option Nat :=
  (natural? 10 text).filter (· ≤ bound)

/-- A sign, if there is one, and the rest; the flag tells a minus. -/
def unsign : List Char → Bool × List Char
  | '-' :: rest => (true, rest)
  | '+' :: rest => (false, rest)
  | text => (false, text)

/-- A whole number with an optional sign in front: whether the sign is a minus, and the size. -/
def integer? (text : List Char) : Option (Bool × Nat) :=
  let (negative, digits) := unsign text
  (natural? 10 digits).map (negative, ·)

def signed (negative : Bool) (size : Nat) : Int := if negative then -(size : Int) else size

/-- The part of a text before the first of some characters, and the part behind it, if there is
one. -/
def cut (stop : Char → Bool) (text : List Char) : List Char × Option (List Char) :=
  match text.span fun c => !stop c with
  | (before, _ :: after) => (before, some after)
  | (before, []) => (before, none)

/-- The size of a real number, as `digits · 10 ^ exponent`. -/
structure Magnitude where
  digits : Nat
  exponent : Int

/-- The size of a number with an optional sign: digits around an optional point, at least one of
them, and perhaps an exponent. -/
def magnitude? (text : List Char) : Option Magnitude := do
  let (mantissa, exponent) := cut (fun c => c == 'e' || c == 'E') (unsign text).2
  let (whole, fraction) := cut (· == '.') mantissa
  let fraction := fraction.getD []
  let digits ← natural? 10 (whole ++ fraction)
  let exponent ← match exponent with
    | none => some 0
    | some e => (integer? e).map fun (negative, size) => signed negative size
  return ⟨digits, exponent - fraction.length⟩

/-- The least size that rounds beyond the largest double: half a unit above it. -/
def doubleBound : Nat := Nat.pow 2 1024 - Nat.pow 2 970

/-- Whether a number of this size is a finite double. Exponents that settle it at sight are sorted
out before any power of ten is taken. -/
def Magnitude.isFinite (m : Magnitude) : Bool :=
  match m.exponent with
  | .ofNat e => m.digits == 0 || (e ≤ 308 && m.digits * Nat.pow 10 e < doubleBound)
  | .negSucc e => m.digits.log2 ≤ e || m.digits < doubleBound * Nat.pow 10 (e + 1)

end PacketRelay.Config.Number
