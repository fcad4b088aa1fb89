import PacketRelay.Config.Document.Token
import PacketRelay.Config.Envelope
import PacketRelay.Config.Plain

/-!
Configuration documents.

A document is a mapping, told by indentation or written in braces. Below it values nest up to a
bounded depth. Keys are scalars, whose text counts, and of equal keys the last one does. A text
without any value is an empty mapping; a text with more than one document is refused.
-/

set_option autoImplicit false

namespace PacketRelay.Config.Document

/-- Where a value stands: inside brackets, told by indentation, or told by indentation as a key or
value of a mapping, where the items of a list need not be deeper. -/
inductive Position
  | flow
  | block
  | member
  deriving DecidableEq

/-- Whether a value is left out, being followed by one of some tokens. -/
def isAbsent (stops : List Token) (tokens : List Token) : Bool := tokens.head?.any stops.contains

/-- The text of a key, which is empty if the key is left out. -/
def key? (stops : List Token) (tokens : List Token) : Option (String × List Token) :=
  if isAbsent stops tokens then some ("", tokens)
  else match tokens with
    | .scalar _ content :: rest => some (content, rest)
    | _ => none

mutual

/-- Reads a value with at most `depth` levels of lists and mappings. -/
def value? : Nat → Nat → Position → List Token → Option (Value × List Token)
  | 0, _, _, _ => none
  | fuel + 1, depth, position, tokens =>
    match tokens, depth with
    | .scalar plain content :: rest, _ =>
      some (if plain then Plain.value content else .text content, rest)
    | .item :: _, depth + 1 =>
      if position = .member then items? fuel depth true [] tokens else none
    | .blockList :: rest, depth + 1 =>
      if position = .flow then none else items? fuel depth false [] rest
    | .blockMapping :: rest, depth + 1 =>
      if position = .flow then none else entries? fuel depth [] rest
    | .flowList :: rest, depth + 1 => flowItems? fuel depth [] rest
    | .flowMapping :: rest, depth + 1 => flowEntries? fuel depth [] rest
    | _, _ => none

/-- Reads a value, which is empty if it is left out. -/
def optional? (fuel depth : Nat) (position : Position) (stops : List Token) (tokens : List Token) :
    Option (Value × List Token) :=
  match fuel with
  | 0 => none
  | fuel + 1 =>
    if isAbsent stops tokens then some (.empty, tokens) else value? fuel depth position tokens

/-- Reads the value behind a key, which may be left out with its colon. -/
def keyed? (fuel depth : Nat) (position : Position) (stops : List Token) (tokens : List Token) :
    Option (Value × List Token) :=
  match fuel, tokens with
  | 0, _ => none
  | fuel + 1, .value :: rest => optional? fuel depth position stops rest
  | _ + 1, tokens => some (.empty, tokens)

/-- Reads the items of a list that is told by indentation. If it stands as deep as the mapping
around it, anything that is no item ends it. -/
def items? (fuel depth : Nat) (level : Bool) (done : List Value) (tokens : List Token) :
    Option (Value × List Token) :=
  match fuel, tokens with
  | 0, _ => none
  | fuel + 1, .item :: rest =>
    let stops := if level then [.item, .key, .value, .blockEnd] else [.item, .blockEnd]
    match optional? fuel depth .block stops rest with
    | some (value, rest) => items? fuel depth level (value :: done) rest
    | none => none
  | _ + 1, tokens =>
    if level then some (.list done.reverse, tokens)
    else match tokens with
      | .blockEnd :: rest => some (.list done.reverse, rest)
      | _ => none

/-- Reads the entries of a mapping that is told by indentation. -/
def entries? (fuel depth : Nat) (done : List (String × Value)) (tokens : List Token) :
    Option (Value × List Token) :=
  match fuel, tokens with
  | 0, _ => none
  | _ + 1, .blockEnd :: rest => some (.mapping done.reverse, rest)
  | fuel + 1, .key :: rest =>
    match key? [.key, .value, .blockEnd] rest with
    | none => none
    | some (key, rest) =>
      match keyed? fuel depth .member [.key, .value, .blockEnd] rest with
      | some (value, rest) => entries? fuel depth ((key, value) :: done) rest
      | none => none
  | _ + 1, _ => none

/-- Reads the items of a list in brackets. A comma may stand behind the last one, and an item may be
a mapping of one entry without braces. -/
def flowItems? (fuel depth : Nat) (done : List Value) (tokens : List Token) :
    Option (Value × List Token) :=
  match fuel, tokens with
  | 0, _ => none
  | _ + 1, .flowListEnd :: rest => some (.list done.reverse, rest)
  | fuel + 1, tokens =>
    match flowItem? fuel depth tokens with
    | some (value, .separator :: rest) => flowItems? fuel depth (value :: done) rest
    | some (value, .flowListEnd :: rest) => some (.list (value :: done).reverse, rest)
    | _ => none

def flowItem? (fuel depth : Nat) (tokens : List Token) : Option (Value × List Token) :=
  match fuel, depth, tokens with
  | 0, _, _ => none
  | fuel + 1, depth + 1, .key :: rest =>
    match key? [] rest with
    | none => none
    | some (key, rest) =>
      (keyed? fuel depth .flow [.separator, .flowListEnd] rest).map fun (value, rest) =>
        (.mapping [(key, value)], rest)
  | fuel + 1, depth, tokens => value? fuel depth .flow tokens

/-- Reads the entries of a mapping in braces. A comma may stand behind the last one, and an entry
may be a key alone. -/
def flowEntries? (fuel depth : Nat) (done : List (String × Value)) (tokens : List Token) :
    Option (Value × List Token) :=
  match fuel, tokens with
  | 0, _ => none
  | _ + 1, .flowMappingEnd :: rest => some (.mapping done.reverse, rest)
  | fuel + 1, tokens =>
    match flowEntry? fuel depth tokens with
    | some (entry, .separator :: rest) => flowEntries? fuel depth (entry :: done) rest
    | some (entry, .flowMappingEnd :: rest) => some (.mapping (entry :: done).reverse, rest)
    | _ => none

def flowEntry? (fuel depth : Nat) (tokens : List Token) :
    Option ((String × Value) × List Token) :=
  match fuel, tokens with
  | 0, _ => none
  | fuel + 1, .key :: rest =>
    match key? [.value, .separator, .flowMappingEnd] rest with
    | none => none
    | some (key, rest) =>
      (keyed? fuel depth .flow [.separator, .flowMappingEnd] rest).map fun (value, rest) =>
        ((key, value), rest)
  | _ + 1, .scalar _ content :: rest => some ((content, .empty), rest)
  | _ + 1, _ => none

end

def maxDepth : Nat := 128

def root? (tokens : List Token) : Option (Value × List Token) :=
  match tokens with
  | [] => some (.mapping [], [])
  | .documentStart :: rest =>
    if rest.isEmpty || isAbsent [.documentStart, .documentEnd] rest then some (.mapping [], rest)
    else value? (4 * tokens.length + 1) maxDepth .block rest
  | _ => value? (4 * tokens.length + 1) maxDepth .block tokens

/-- Reads a document. Between two tokens there are at most four steps, so the number of tokens
bounds them. -/
def parse (document : String) : Option (List (String × Value)) := do
  match ← root? (← tokens? document) with
  | (.mapping entries, rest) =>
    if rest.all (· = .documentEnd) then Envelope.openSettings? entries else none
  | _ => none

end PacketRelay.Config.Document
