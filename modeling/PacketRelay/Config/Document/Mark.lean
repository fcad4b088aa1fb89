import PacketRelay.Config.Character

/-!
Places in a document, and what may stand there.

Line breaks are read in one form: `lines` makes a line feed of every break but the two separators,
which keep their own.
-/

set_option autoImplicit false

namespace PacketRelay.Config.Document

open Character

structure Mark where
  /-- Bytes in front of the place. -/
  offset : Nat
  /-- Lines in front of the place. -/
  line : Nat
  /-- Characters in front of the place on its line. -/
  column : Nat
  deriving DecidableEq

namespace Mark

def start : Mark := ⟨0, 0, 0⟩

/-- The place behind a character within a line. -/
def step (m : Mark) (c : Char) : Mark := ⟨m.offset + c.utf8Size, m.line, m.column + 1⟩

/-- The place behind some characters within a line. -/
def past (m : Mark) (text : List Char) : Mark := text.foldl step m

/-- The place behind a line break. -/
def newline (m : Mark) (c : Char) : Mark := ⟨m.offset + c.utf8Size, m.line + 1, 0⟩

end Mark

/-- The characters that a document may have. -/
def isAllowed (c : Char) : Bool :=
  let n := c.toNat
  [0x09, 0x0a, 0x0d, 0x85].contains n || (0x20 ≤ n && n ≤ 0x7e) || (0xa0 ≤ n && n ≤ 0xfffd) ||
    0x10000 ≤ n

/-- A text with its line breaks in one form. A carriage return and a line feed make one break. -/
def lines : List Char → List Char
  | [] => []
  | c :: rest =>
    if c == '\r' && rest.head? == some '\n' then lines rest
    else (if c == '\r' || c.toNat == 0x85 then '\n' else c) :: lines rest

/-- Line breaks: the line feed, the line separator and the paragraph separator. -/
def isBreak (c : Char) : Bool := c == '\n' || c.toNat == 0x2028 || c.toNat == 0x2029

/-- Whether a word ends in front of a text. -/
def ends (text : List Char) : Bool := text.head?.all fun c => isBlank c || isBreak c

/-- Whether a text starts with three times the same character and then a word ends. -/
def startsTriple (c : Char) : List Char → Bool
  | a :: b :: d :: rest => a == c && b == c && d == c && ends rest
  | _ => false

/-- Whether a text at a place marks the start or the end of a document: three dashes or points at
the start of a line. -/
def atMarker (m : Mark) (text : List Char) : Bool :=
  m.column == 0 && (startsTriple '-' text || startsTriple '.' text)

end PacketRelay.Config.Document
