import PacketRelay.Config.Character
import PacketRelay.Config.Number

/-!
Escapes in quoted texts: a backslash and what it stands for together with the letters behind it.
-/

set_option autoImplicit false

namespace PacketRelay.Config

/-- What may follow a backslash: letters that stand for a character, and letters that announce a
number of hexadecimal digits of a code point. A quote or a backslash always stands for itself. -/
structure Escapes where
  letters : List (Char × Nat)
  codes : List (Char × Nat)

namespace Escapes

def charOf? (code : Nat) : Option Char :=
  if code.isValidChar then some (Char.ofNat code) else none

/-- Decodes what follows a backslash. Gives the character and how much more it takes than one
letter. -/
def decode? (escapes : Escapes) (letter : Char) (more : List Char) : Option (Char × Nat) :=
  if letter == Character.quote || letter == Character.backslash then some (letter, 0)
  else match escapes.codes.lookup letter with
    | some n =>
      if more.length < n then none
      else ((Number.natural? 16 (more.take n)).bind charOf?).map fun c => (c, n)
    | none => (escapes.letters.lookup letter).map fun code => (Char.ofNat code, 0)

end Escapes
end PacketRelay.Config
