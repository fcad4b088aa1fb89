import PacketRelay.Config.Value

/-!
Envelopes in a document.

A value may be written out together with the number of the place that it comes from, as a mapping
with two reserved keys. Such an envelope stands for the value in it. The number may also be one of
the entries of any other mapping. Nothing depends on it, but it has to be a number.
-/

set_option autoImplicit false

namespace PacketRelay.Config.Envelope

/-- The key of the value in an envelope. -/
def contentKey : String := "___figment_value_value"

/-- The key of the number of a place. -/
def placeKey : String := "___figment_value_id"

/-- Whether a value can be the number of a place: whole, of 64 bits, and without a minus. -/
def isPlace : Value → Bool
  | .integer false size => size < Nat.pow 2 64
  | _ => false

/-- The value that a mapping stands for whose entries have been opened. -/
def content (entries : List (String × Value)) : Value :=
  (Value.find? entries contentKey).getD (.mapping entries)

mutual

def open? : Value → Option Value
  | .list items => (openItems? items).map .list
  | .mapping entries => (openEntries? entries).map content
  | value => some value

def openItems? : List Value → Option (List Value)
  | [] => some []
  | value :: rest => do return (← open? value) :: (← openItems? rest)

def openEntries? : List (String × Value) → Option (List (String × Value))
  | [] => some []
  | (key, value) :: rest =>
    if key = placeKey then
      if isPlace value then openEntries? rest else none
    else do return (key, ← open? value) :: (← openEntries? rest)

end

/-- Opens all envelopes in the settings of a document, which has no reserved keys itself. -/
def openSettings? (settings : List (String × Value)) : Option (List (String × Value)) :=
  settings.mapM fun (key, value) => (open? value).map (key, ·)

end PacketRelay.Config.Envelope
