import PacketRelay.Config.Document.Mark
import PacketRelay.Config.Escape

/-!
Scalars in a document: plain, quoted and in block form.

A plain or quoted scalar may go on over several lines. Inside it a single line break counts as a
space, of several the first is dropped, and blanks beside a break do not count. A scalar in block
form keeps its lines, or folds them likewise.
-/

set_option autoImplicit false

namespace PacketRelay.Config.Document

open Character

/-- A scalar that has been read in part: what is certain of its text, and the gap behind it. -/
structure Folding where
  /-- The text up to the last character that is not white space, latest first. -/
  text : List Char := []
  /-- Whether the line has ended in the gap. -/
  broken : Bool := false
  /-- The blanks of the gap while the line has not ended, latest first. -/
  blanks : List Char := []
  /-- The break that ended the line. An escaped one is none. -/
  lineBreak : List Char := []
  /-- The breaks behind that, latest first. -/
  more : List Char := []

namespace Folding

/-- What a gap counts as when the scalar goes on behind it, latest first. -/
def gap (f : Folding) : List Char :=
  if !f.broken then f.blanks
  else if f.lineBreak == ['\n'] then (if f.more.isEmpty then [' '] else f.more)
  else f.more ++ f.lineBreak

/-- The scalar goes on. -/
def resume (f : Folding) : Folding := { text := f.gap ++ f.text }

/-- The scalar goes on with a character that counts as itself. -/
def put (f : Folding) (c : Char) : Folding := { text := c :: (f.gap ++ f.text) }

def blank (f : Folding) (c : Char) : Folding :=
  if f.broken then f else { f with blanks := c :: f.blanks }

def endLine (f : Folding) (c : Char) : Folding :=
  if f.broken then { f with more := c :: f.more }
  else { f with broken := true, blanks := [], lineBreak := [c] }

/-- The line ends at a backslash. -/
def join (f : Folding) : Folding := { f.resume with broken := true }

def content (f : Folding) : String := String.ofList f.text.reverse

end Folding

/-- A scalar and where it ends. -/
structure Scanned where
  content : String
  /-- Whether the end was found on a line behind that of the last character. -/
  broken : Bool
  mark : Mark
  rest : List Char

def Folding.stop (f : Folding) (mark : Mark) (rest : List Char) : Scanned :=
  ⟨f.content, f.broken, mark, rest⟩

/-- The characters that end a plain scalar inside brackets. -/
def flowIndicators : List Char := [',', '[', ']', '{', '}']

/-- Whether a plain scalar ends at a character behind a gap: at a comment, at the end of the
document, or where a line starts left of the margin. -/
def plainEndsBehindGap (inFlow : Bool) (margin : Nat) (mark : Mark) (text : List Char) : Bool :=
  text.head? == some '#' || atMarker mark text || (!inFlow && mark.column < margin)

/-- Whether a plain scalar ends at a character: at a colon that ends a word, or at a bracket or
comma inside brackets. -/
def plainEndsAt (inFlow : Bool) (c : Char) (rest : List Char) : Bool :=
  (c == ':' && ends rest) || (inFlow && flowIndicators.contains c)

/-- Reads a plain scalar on. Lines it continues on are indented up to the margin, and not by
tabs. -/
def plain? (inFlow : Bool) (margin : Nat) (f : Folding) (mark : Mark) :
    List Char → Option Scanned
  | [] => some (f.stop mark [])
  | c :: rest =>
    if isBreak c then plain? inFlow margin (f.endLine c) (mark.newline c) rest
    else if isBlank c then
      if f.broken && c == '\t' && mark.column < margin then none
      else plain? inFlow margin (f.blank c) (mark.step c) rest
    else if (f.broken || !f.blanks.isEmpty) && plainEndsBehindGap inFlow margin mark (c :: rest) then
      some (f.stop mark (c :: rest))
    else if plainEndsAt inFlow c rest then some (f.stop mark (c :: rest))
    else if inFlow && c == ':' && rest.head?.any ('?' :: flowIndicators).contains then none
    else plain? inFlow margin (f.put c) (mark.step c) rest

/-- The escapes between double quotes. -/
def escapes : Escapes where
  letters := [('0', 0), ('a', 7), ('b', 8), ('t', 9), ('\t', 9), ('n', 10), ('v', 11), ('f', 12),
    ('r', 13), ('e', 27), (' ', 32), ('/', 47), ('N', 0x85), ('_', 0xa0), ('L', 0x2028), ('P', 0x2029)]
  codes := [('x', 2), ('u', 4), ('U', 8)]

/-- Reads a scalar in double quotes on, up to the closing one. -/
def doubleQuoted? (f : Folding) (mark : Mark) (text : List Char) : Option Scanned :=
  match text with
  | [] => none
  | c :: rest =>
    if atMarker mark (c :: rest) then none
    else if isBreak c then doubleQuoted? (f.endLine c) (mark.newline c) rest
    else if isBlank c then doubleQuoted? (f.blank c) (mark.step c) rest
    else if c == quote then some (f.resume.stop (mark.step c) rest)
    else if c == backslash then
      match rest with
      | [] => none
      | letter :: more =>
        if isBreak letter then doubleQuoted? f.join ((mark.step c).newline letter) more
        else match escapes.decode? letter more with
          | none => none
          | some (decoded, n) =>
            doubleQuoted? (f.put decoded) (mark.past (c :: letter :: more.take n)) (more.drop n)
    else doubleQuoted? (f.put c) (mark.step c) rest
termination_by text.length
decreasing_by all_goals simp only [List.length_cons, List.length_drop]; omega

/-- Reads a scalar in apostrophes on, up to the closing one. Two in a row are one of the text. -/
def singleQuoted? (f : Folding) (mark : Mark) : List Char → Option Scanned
  | [] => none
  | c :: rest =>
    if atMarker mark (c :: rest) then none
    else if isBreak c then singleQuoted? (f.endLine c) (mark.newline c) rest
    else if isBlank c then singleQuoted? (f.blank c) (mark.step c) rest
    else if c == apostrophe then
      match rest with
      | next :: more =>
        if next == apostrophe then singleQuoted? (f.put c) ((mark.step c).step next) more
        else some (f.resume.stop (mark.step c) rest)
      | [] => some (f.resume.stop (mark.step c) rest)
    else singleQuoted? (f.put c) (mark.step c) rest

/-- Which of the line breaks at its end a scalar in block form keeps. -/
inductive Chomping
  | strip
  | clip
  | keep
  deriving DecidableEq

structure BlockStyle where
  /-- Whether line breaks stay as they are; otherwise they are folded. -/
  literal : Bool
  chomping : Chomping
  /-- The number of columns its lines are indented by, if it is given. -/
  indentation : Option Nat
  deriving DecidableEq

def chomping? (c : Char) : Option Chomping :=
  if c == '+' then some .keep else if c == '-' then some .strip else none

/-- The number of columns that a digit gives; zero is none. -/
def indentation? (c : Char) : Option Nat := (Number.digit? 10 c).filter (0 < ·)

/-- Reads what stands behind the indicator of a scalar in block form: which breaks to keep and how
far its lines are indented, in either order. Gives what is left of the text. -/
def blockStyle (literal : Bool) (text : List Char) : BlockStyle × List Char :=
  let clipped : BlockStyle := ⟨literal, .clip, none⟩
  match text with
  | [] => (clipped, [])
  | a :: rest =>
    let second := rest.head?
    match chomping? a, indentation? a with
    | some chomping, _ =>
      match second.bind indentation? with
      | some n => (⟨literal, chomping, some n⟩, rest.drop 1)
      | none => (⟨literal, chomping, none⟩, rest)
    | none, some n =>
      match second.bind chomping? with
      | some chomping => (⟨literal, chomping, some n⟩, rest.drop 1)
      | none => (⟨literal, .clip, some n⟩, rest)
    | none, none => (clipped, text)

/-- A scalar in block form that has been read in part. -/
structure BlockFolding where
  /-- The text without the breaks behind its last line, latest first. -/
  text : List Char := []
  /-- The break that ended the last line. -/
  lineBreak : List Char := []
  /-- The breaks of empty lines behind that, latest first. -/
  more : List Char := []
  /-- Whether the last line began with a blank. -/
  blankLine : Bool := false
  /-- The column that lines start at, once it is known. -/
  indent : Option Nat
  /-- The largest column reached in front of the first line. -/
  widest : Nat := 0
  inLine : Bool := false

namespace BlockFolding

/-- Begins a line with the given character. Between two folded lines, neither of which begins with a
blank, a break counts as a space, or as nothing if empty lines follow. -/
def beginLine (f : BlockFolding) (style : BlockStyle) (c : Char) : BlockFolding :=
  let folded := !style.literal && f.lineBreak == ['\n'] && !f.blankLine && !isBlank c
  let between := if folded then (if f.more.isEmpty then [' '] else f.more) else f.more ++ f.lineBreak
  { f with
    text := c :: (between ++ f.text), lineBreak := [], more := [], blankLine := isBlank c
    inLine := true }

/-- The text, with the breaks at its end that are kept. -/
def content (f : BlockFolding) (style : BlockStyle) : String :=
  let kept := match style.chomping with
    | .strip => []
    | .clip => f.lineBreak
    | .keep => f.more ++ f.lineBreak
  String.ofList (kept ++ f.text).reverse

/-- The column that lines start at. If it is not given it is the widest reached in front of the
first line, and at least the margin. -/
def column (f : BlockFolding) (margin : Nat) : Nat := f.indent.getD (max f.widest (max margin 1))

/-- Whether a place is in the indentation of a line. -/
def inIndentation (f : BlockFolding) (mark : Mark) : Bool := f.indent.all (mark.column < ·)

end BlockFolding

/-- Reads a scalar in block form on, from the start of its first line. It ends at the first line
that is neither empty nor indented as its lines are. -/
def blockScalar? (style : BlockStyle) (margin : Nat) (f : BlockFolding) (mark : Mark) :
    List Char → Option Scanned
  | [] => some ⟨f.content style, true, mark, []⟩
  | c :: rest =>
    if f.inLine then
      if isBreak c then
        blockScalar? style margin { f with lineBreak := [c], inLine := false } (mark.newline c) rest
      else blockScalar? style margin { f with text := c :: f.text } (mark.step c) rest
    else if f.inIndentation mark && c == ' ' then
      blockScalar? style margin { f with widest := max f.widest (mark.column + 1) } (mark.step c) rest
    else if f.inIndentation mark && c == '\t' then none
    else if isBreak c then
      blockScalar? style margin { f with more := c :: f.more } (mark.newline c) rest
    else
      let column := f.column margin
      if mark.column == column then
        blockScalar? style margin ({ f with indent := some column }.beginLine style c) (mark.step c) rest
      else some ⟨f.content style, true, mark, c :: rest⟩

end PacketRelay.Config.Document
