/-!
The characters that configuration texts set apart.
-/

set_option autoImplicit false

namespace PacketRelay.Config.Character

def quote : Char := Char.ofNat 34
def apostrophe : Char := Char.ofNat 39
def backslash : Char := Char.ofNat 92

/-- The mark that may stand at the start of a file. -/
def byteOrderMark : Char := Char.ofNat 0xfeff

/-- Blanks separate words within a line. -/
def isBlank (c : Char) : Bool := c == ' ' || c == '\t'

/-- White space of the ASCII range; the vertical tab is none. -/
def isAsciiSpace (c : Char) : Bool := isBlank c || c == '\n' || c == '\r' || c.toNat == 12

def isSpace (c : Char) : Bool :=
  let n := c.toNat
  (9 ≤ n && n ≤ 13) || (0x2000 ≤ n && n ≤ 0x200a) ||
    [0x20, 0x85, 0xa0, 0x1680, 0x2028, 0x2029, 0x202f, 0x205f, 0x3000].contains n

/-- A text without white space at either end. -/
def trim (text : List Char) : List Char :=
  ((text.dropWhile isSpace).reverse.dropWhile isSpace).reverse

end PacketRelay.Config.Character
