import PacketRelay.Config.Document.Scalar

/-!
The tokens of a document.

Structure that is told by indentation becomes explicit: where a line starts a deeper collection a
token opens it, and where a line is less deep again tokens close what was open. A key shows as such
only at the colon behind it, so a scalar or a bracket that may be one is kept in mind, and the
tokens for a key are put in front of it later. A key has to stand on one line, within 1024 bytes of
its colon.

Tags, anchors, aliases and directives are refused.
-/

set_option autoImplicit false

namespace PacketRelay.Config.Document

open Character

inductive Token
  | documentStart
  | documentEnd
  /-- Open a list or a mapping that is told by indentation, and close either. -/
  | blockList
  | blockMapping
  | blockEnd
  /-- Open and close a list in brackets. -/
  | flowList
  | flowListEnd
  /-- Open and close a mapping in braces. -/
  | flowMapping
  | flowMappingEnd
  | separator
  | item
  /-- In front of a key, and in front of its value. -/
  | key
  | value
  | scalar (plain : Bool) (content : String)
  deriving DecidableEq

/-- Something that is a key if a colon follows. -/
structure PossibleKey where
  /-- Whether it stands where a key must be. -/
  required : Bool
  /-- The number of tokens in front of it. -/
  place : Nat
  mark : Mark
  deriving DecidableEq

/-- The largest distance in bytes between the start of a key and its colon. -/
def keyLimit : Nat := 1024

/-- Whether the colon at a place comes too late for a key. -/
def PossibleKey.expired (k : PossibleKey) (now : Mark) : Bool :=
  k.mark.line < now.line || k.mark.offset + keyLimit < now.offset

/-- Gives a possible key up, which is a fault if it was required. -/
def PossibleKey.drop? (key : Option PossibleKey) : Option Unit :=
  if key.any (·.required) then none else some ()

/-- Gives a possible key up if it has expired. -/
def PossibleKey.expire? (now : Mark) (key : Option PossibleKey) : Option (Option PossibleKey) :=
  if key.any (·.expired now) then (drop? key).map fun _ => none else some key

/-- A document that has been split into tokens in part. -/
structure Lexer where
  mark : Mark
  rest : List Char
  tokens : List Token
  /-- The columns of the open collections that are told by indentation, innermost first. -/
  indents : List Nat
  /-- What may be a key in the innermost bracket, or outside of brackets. -/
  key : Option PossibleKey
  /-- The same for all that is around the innermost bracket; as long as there are open brackets. -/
  outer : List (Option PossibleKey)
  keyAllowed : Bool

namespace Lexer

/-- Passes over blanks, comments and line breaks. Outside of brackets a key may start on a new line,
and a tab may not stand where a key may start. A byte order mark may stand at the start of every
line, where it takes up a column. -/
def skipSpace (inFlow : Bool) : Bool → Bool → Mark → List Char → Bool × Mark × List Char
  | _, keyAllowed, mark, [] => (keyAllowed, mark, [])
  | inComment, keyAllowed, mark, c :: rest =>
    if isBreak c then skipSpace inFlow false (keyAllowed || !inFlow) (mark.newline c) rest
    else if inComment || c == '#' then skipSpace inFlow true keyAllowed (mark.step c) rest
    else if c == ' ' || (c == '\t' && (inFlow || !keyAllowed)) ||
        (c == byteOrderMark && mark.column == 0) then
      skipSpace inFlow false keyAllowed (mark.step c) rest
    else (keyAllowed, mark, c :: rest)

def start (text : List Char) : Lexer :=
  { mark := .start, rest := text, tokens := [], indents := [], key := none, outer := []
    keyAllowed := true }

def inFlow (l : Lexer) : Bool := !l.outer.isEmpty

/-- The column that the innermost collection's lines go beyond. -/
def margin (l : Lexer) : Nat :=
  match l.indents with
  | [] => 0
  | column :: _ => column + 1

def emit (l : Lexer) (t : Token) : Lexer := { l with tokens := t :: l.tokens }

/-- Puts a token behind the first `place` ones. -/
def insert (l : Lexer) (place : Nat) (t : Token) : Lexer :=
  let later := l.tokens.length - place
  { l with tokens := l.tokens.take later ++ t :: l.tokens.drop later }

def skip (l : Lexer) (n : Nat) : Lexer :=
  { l with mark := l.mark.past (l.rest.take n), rest := l.rest.drop n }

/-- Opens a collection at a column if it is deeper than the innermost one. -/
def openAt (l : Lexer) (column place : Nat) (t : Token) : Lexer :=
  if l.inFlow || column < l.margin then l
  else { l.insert place t with indents := column :: l.indents }

/-- Opens a collection here if it is deeper than the innermost one. -/
def openHere (l : Lexer) (t : Token) : Lexer := l.openAt l.mark.column l.tokens.length t

/-- Closes the innermost collections that are told by indentation, as long as their columns are
so. -/
def closeWhile (l : Lexer) (p : Nat → Bool) : Lexer :=
  if l.inFlow then l
  else
    { l with
      tokens := (l.indents.takeWhile p).map (fun _ => .blockEnd) ++ l.tokens
      indents := l.indents.dropWhile p }

def closeAll (l : Lexer) : Lexer := l.closeWhile fun _ => true

/-- Closes what is deeper than this line. -/
def closeDeeper (l : Lexer) : Lexer := l.closeWhile (l.mark.column < ·)

def dropKey? (l : Lexer) : Option Lexer :=
  (PossibleKey.drop? l.key).map fun _ => { l with key := none }

def expireKeys? (l : Lexer) : Option Lexer := do
  let key ← PossibleKey.expire? l.mark l.key
  let outer ← l.outer.mapM (PossibleKey.expire? l.mark)
  return { l with key, outer }

/-- Keeps in mind that what starts here may be a key. It must be one at the start of a line of the
innermost collection. -/
def notePossibleKey? (l : Lexer) : Option Lexer :=
  if l.keyAllowed then do
    let required := !l.inFlow && l.indents.head? == some l.mark.column
    return { ← l.dropKey? with key := some ⟨required, l.tokens.length, l.mark⟩ }
  else some l

def marker? (l : Lexer) (t : Token) : Option Lexer := do
  return ({ ← l.closeAll.dropKey? with keyAllowed := false }.skip 3).emit t

def openFlow? (l : Lexer) (t : Token) : Option Lexer := do
  let l ← l.notePossibleKey?
  return ({ l with key := none, outer := l.key :: l.outer, keyAllowed := true }.skip 1).emit t

def closeFlow? (l : Lexer) (t : Token) : Option Lexer := do
  let l ← l.dropKey?
  let l := match l.outer with
    | [] => l
    | key :: outer => { l with key, outer }
  return ({ l with keyAllowed := false }.skip 1).emit t

def separator? (l : Lexer) : Option Lexer := do
  return ({ ← l.dropKey? with keyAllowed := true }.skip 1).emit .separator

/-- The dash of a list item. Outside of brackets it stands where a key might. -/
def item? (l : Lexer) : Option Lexer :=
  if l.inFlow || l.keyAllowed then do
    return ({ ← (l.openHere .blockList).dropKey? with keyAllowed := true }.skip 1).emit .item
  else none

def key? (l : Lexer) : Option Lexer :=
  if l.inFlow || l.keyAllowed then do
    let l ← (l.openHere .blockMapping).dropKey?
    return ({ l with keyAllowed := !l.inFlow }.skip 1).emit .key
  else none

/-- The colon in front of a value. What was noted as a possible key is one now. -/
def value? (l : Lexer) : Option Lexer :=
  match l.key with
  | some key =>
    let l := (l.insert key.place .key).openAt key.mark.column key.place .blockMapping
    some (({ l with key := none, keyAllowed := false }.skip 1).emit .value)
  | none =>
    if l.inFlow || l.keyAllowed then
      let l := l.openHere .blockMapping
      some (({ l with keyAllowed := !l.inFlow }.skip 1).emit .value)
    else none

/-- Goes on behind a scalar. -/
def takeScalar (l : Lexer) (plain : Bool) (s : Scanned) : Lexer :=
  { l with mark := s.mark, rest := s.rest }.emit (.scalar plain s.content)

def quoted? (l : Lexer) (read : Mark → List Char → Option Scanned) : Option Lexer := do
  let l := (← l.notePossibleKey?).skip 1
  return { l with keyAllowed := false }.takeScalar false (← read l.mark l.rest)

/-- A plain scalar. A key may follow if the scalar ended with its line. -/
def plainScalar? (l : Lexer) : Option Lexer := do
  let l ← l.notePossibleKey?
  let s ← plain? l.inFlow l.margin {} l.mark l.rest
  return { l with keyAllowed := s.broken }.takeScalar true s

/-- A scalar in block form. Only a comment may stand behind its indicators. -/
def blockScalar? (l : Lexer) (literal : Bool) : Option Lexer := do
  let l ← l.dropKey?
  let (style, rest) := blockStyle literal (l.rest.drop 1)
  let rest := rest.dropWhile isBlank
  let rest := if rest.head? == some '#' then rest.dropWhile (!isBreak ·) else rest
  let indent := style.indentation.map (l.margin - 1 + ·)
  let s ← match rest with
    | [] => some ⟨"", true, l.mark, []⟩
    | c :: rest =>
      if isBreak c then Document.blockScalar? style l.margin { indent } (l.mark.newline c) rest
      else none
  return { l with keyAllowed := true }.takeScalar false s

/-- The characters that no plain scalar starts with. -/
def indicators : List Char := ['-', '?', ':', ',', '[', ']', '{', '}', '#', '&', '*', '!', '|', '>',
  '%', '@', quote, apostrophe, Char.ofNat 96]

/-- Whether a plain scalar may start with a character. A dash may if no blank follows, a question
mark or a colon outside of brackets also only if the line goes on. -/
def startsPlain (inFlow : Bool) (c : Char) (rest : List Char) : Bool :=
  !(isBlank c || isBreak c || indicators.contains c) ||
    (c == '-' && !rest.head?.any isBlank) ||
    (!inFlow && (c == '?' || c == ':') && !ends rest)

/-- Takes the next token, which starts with the given character. -/
def take? (l : Lexer) (c : Char) (rest : List Char) : Option Lexer :=
  if l.mark.column == 0 && c == '%' then none
  else if atMarker l.mark (c :: rest) then
    l.marker? (if c == '-' then .documentStart else .documentEnd)
  else match c with
    | '[' => l.openFlow? .flowList
    | ']' => l.closeFlow? .flowListEnd
    | '{' => l.openFlow? .flowMapping
    | '}' => l.closeFlow? .flowMappingEnd
    | ',' => l.separator?
    | _ =>
      if c == '-' && ends rest then l.item?
      else if c == '?' && (l.inFlow || ends rest) then l.key?
      else if c == ':' && (l.inFlow || ends rest) then l.value?
      else if (c == '|' || c == '>') && !l.inFlow then l.blockScalar? (c == '|')
      else if c == apostrophe then l.quoted? (singleQuoted? {})
      else if c == quote then l.quoted? (doubleQuoted? {})
      else if startsPlain l.inFlow c rest then l.plainScalar?
      else none

/-- Goes to the next token, and ends what ends in front of it. -/
def prepare? (l : Lexer) : Option Lexer := do
  let (keyAllowed, mark, rest) := skipSpace l.inFlow false l.keyAllowed l.mark l.rest
  return (← { l with keyAllowed, mark, rest }.expireKeys?).closeDeeper

/-- All tokens, in their order. Every step takes at least one character. -/
def run? : Nat → Lexer → Option (List Token)
  | 0, _ => none
  | fuel + 1, l => do
    let l ← l.prepare?
    match l.rest with
    | [] => return (← l.closeAll.dropKey?).tokens.reverse
    | c :: rest => run? fuel (← l.take? c rest)

end Lexer

def tokens? (text : String) : Option (List Token) :=
  let text := text.toList
  if text.all isAllowed then Lexer.run? (text.length + 1) (Lexer.start (lines text)) else none

end PacketRelay.Config.Document
