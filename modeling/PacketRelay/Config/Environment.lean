import PacketRelay.Config.Escape
import PacketRelay.Config.Value

/-!
Settings in environment variables.

A variable whose name starts with `TUN_RELAY_`, in upper or lower case, sets what the rest of the
name says; two underscores or a point lead one level down. Its value may be a list in brackets or a
mapping in braces of values, and what cannot be read so is text as it stands.
-/

set_option autoImplicit false

namespace PacketRelay.Config.Environment

open Character Number

/-- What the names of all variables start with, in lower case. -/
def lead : List Char := "tun_relay_".toList

/-- Puts points in place of double underscores. -/
def levels : List Char → List Char
  | '_' :: '_' :: rest => '.' :: levels rest
  | c :: rest => c :: levels rest
  | [] => []

/-- The keys that a variable's name leads through, if it names a setting. -/
def path? (name : String) : Option (List String) :=
  let name := (trim name.toList).map Char.toLower
  if lead.isPrefixOf name then
    let keys := (String.ofList (trim (levels (name.drop lead.length)))).splitOn "."
    if keys.contains "" then none else some keys
  else none

def escapes : Escapes where
  letters := [('b', 8), ('t', 9), ('n', 10), ('f', 12), ('r', 13)]
  codes := [('u', 4), ('U', 8)]

/-- The text up to the closing quote, behind the opening one, and what follows. A quote behind a
backslash closes nothing. -/
def enclosed? (done : List Char) : List Char → Option (List Char × List Char)
  | [] => none
  | c :: rest =>
    if c == quote then some (done.reverse, rest)
    else if c == backslash then
      match rest with
      | [] => none
      | next :: rest => enclosed? (next :: c :: done) rest
    else enclosed? (c :: done) rest

/-- The characters that may stand in a quoted value as they are: all but control characters, and the
tab. -/
def isQuotable (c : Char) : Bool := c == '\t' || (0x20 ≤ c.toNat && c.toNat != 0x7f)

def decode? (text : List Char) : Option (List Char) :=
  match text with
  | [] => some []
  | c :: rest =>
    if c == backslash then
      match rest with
      | [] => none
      | letter :: more =>
        match escapes.decode? letter more with
        | some (decoded, n) => (decode? (more.drop n)).map (decoded :: ·)
        | none => none
    else if isQuotable c then (decode? rest).map (c :: ·)
    else none
termination_by text.length
decreasing_by all_goals simp only [List.length_cons, List.length_drop]; omega

/-- The characters at the start of a text that fit into a number of bytes. -/
def firstBytes : Nat → List Char → List Char
  | n, c :: rest => if c.utf8Size ≤ n then c :: firstBytes (n - c.utf8Size) rest else []
  | _, [] => []

/-- The text of a quoted value. If it has escapes, then of the characters in front of the first one
as many bytes are kept as there are characters, so all of them if they are ASCII. -/
def unescape? (text : List Char) : Option (List Char) := do
  let front := text.takeWhile (· != backslash)
  let decoded ← decode? text
  if front.length = text.length then return text
  else return firstBytes front.length front ++ decoded.drop front.length

/-- A quoted value, behind the opening quote, and what follows. -/
def quoted? (text : List Char) : Option (String × List Char) := do
  let (inside, rest) ← enclosed? [] text
  return (String.ofList (← unescape? inside), rest)

/-- The characters that end a value inside a list or a mapping. -/
def isSeparator (c : Char) : Bool := c == ',' || c == '{' || c == '}' || c == '[' || c == ']'

def isKeyChar (c : Char) : Bool := c.isAlphanum || c == '_' || c == '-'

/-- Whether a whole number is read as such, as a signed or an unsigned number of 64 bits; others are
text. -/
def fits (negative : Bool) (size : Nat) : Bool :=
  if negative then size ≤ Nat.pow 2 63 else size < Nat.pow 2 64

/-- A value that is neither quoted nor composed: a number or else text. A number that is not whole
shows a point. -/
def bare (text : List Char) : Value :=
  let text := trim text
  if text.contains '.' && (magnitude? text).isSome then .real
  else match integer? text with
    | some (negative, size) =>
      if fits negative size then .integer negative size else .text (String.ofList text)
    | none => .text (String.ofList text)

def after? (word : String) (text : List Char) : Option (List Char) :=
  if word.toList.isPrefixOf text then some (text.drop word.length) else none

/-- A key of a mapping, and the text behind its equals sign. -/
def assignment? (text : List Char) : Option (String × List Char) := do
  let text := text.dropWhile isAsciiSpace
  let (key, rest) ← match text with
    | [] => none
    | c :: inside =>
      if c == quote then quoted? inside
      else if isKeyChar c then
        some (String.ofList (text.takeWhile isKeyChar), text.dropWhile isKeyChar)
      else none
  match rest.dropWhile isAsciiSpace with
  | '=' :: behind => some (key, behind)
  | _ => none

mutual

/-- Reads a value, and gives the text behind it. -/
def value? : Nat → List Char → Option (Value × List Char)
  | 0, _ => none
  | fuel + 1, text => do
    let text := text.dropWhile isAsciiSpace
    let (value, rest) ←
      match after? "true" text, after? "false" text, text with
      | some rest, _, _ => some (.boolean true, rest)
      | none, some rest, _ => some (.boolean false, rest)
      | none, none, '[' :: inside => items? fuel [] inside
      | none, none, '{' :: inside => entries? fuel [] inside
      | none, none, text =>
        if text.head? == some quote then
          (quoted? (text.drop 1)).map fun (content, rest) => (.text content, rest)
        else if text.head? == some apostrophe then
          match text with
          | _ :: c :: close :: rest =>
            if close == apostrophe then some (.text (String.ofList [c]), rest) else none
          | _ => none
        else
          some (bare (text.takeWhile (!isSeparator ·)), text.dropWhile (!isSeparator ·))
    return (value, rest.dropWhile isAsciiSpace)

def items? (fuel : Nat) (done : List Value) (text : List Char) : Option (Value × List Char) :=
  match fuel, text with
  | 0, _ => none
  | _ + 1, ']' :: rest => some (.list done.reverse, rest)
  | fuel + 1, text =>
    match value? fuel text with
    | some (value, ',' :: rest) => items? fuel (value :: done) rest
    | some (value, ']' :: rest) => some (.list (value :: done).reverse, rest)
    | _ => none

def entries? (fuel : Nat) (done : List (String × Value)) (text : List Char) :
    Option (Value × List Char) :=
  match fuel, text with
  | 0, _ => none
  | _ + 1, '}' :: rest => some (.mapping done.reverse, rest)
  | fuel + 1, text =>
    match assignment? text with
    | none => none
    | some (key, text) =>
      match value? fuel text with
      | some (value, ',' :: rest) => entries? fuel ((key, value) :: done) rest
      | some (value, '}' :: rest) => some (.mapping ((key, value) :: done).reverse, rest)
      | _ => none

end

/-- The value of a variable. Every step uses up a character, so their number bounds the steps. -/
def parseValue (text : String) : Value :=
  match value? (2 * text.length + 2) text.toList with
  | some (value, []) => value
  | _ => .text text

/-- Sets a variable; it keeps its place if it was set before. -/
def assign (vars : List (String × String)) (name value : String) : List (String × String) :=
  if vars.any (·.1 == name) then
    vars.map fun v => if v.1 == name then (name, value) else v
  else vars ++ [(name, value)]

/-- What each variable sets, in their order. -/
def layers (vars : List (String × String)) : List Value :=
  vars.filterMap fun (name, value) =>
    (path? name).map fun keys => Value.nest keys (parseValue value)

/-- What all variables set together, later ones over earlier ones. -/
def settings (vars : List (String × String)) : Value :=
  (layers vars).foldl Value.overlay (.mapping [])

end PacketRelay.Config.Environment
