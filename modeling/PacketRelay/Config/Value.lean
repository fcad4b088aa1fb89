/-!
Values of a configuration before their types are known, and how later ones are laid over earlier
ones.
-/

set_option autoImplicit false

namespace PacketRelay.Config

inductive Value
  | empty
  | boolean (b : Bool)
  /-- A whole number: whether there is a minus in front, and its size. -/
  | integer (negative : Bool) (size : Nat)
  /-- A number with a fraction or an exponent. No setting is one, so which number it is does not
  matter. -/
  | real
  | text (s : String)
  | list (items : List Value)
  | mapping (entries : List (String × Value))

namespace Value

/-- The value under a key; of several the last. -/
def find? (entries : List (String × Value)) (key : String) : Option Value :=
  (entries.reverse.find? fun entry => entry.1 == key).map (·.2)

/-- A value at the end of a path of keys. -/
def nest (path : List String) (value : Value) : Value :=
  path.foldr (fun key inner => mapping [(key, inner)]) value

mutual

/-- Lays a value over another. Mappings are combined key by key; otherwise the upper value hides the
lower one. -/
def overlay (lower upper : Value) : Value :=
  match lower, upper with
  | mapping below, mapping above => mapping (below ++ overlayEntries below above)
  | _, upper => upper
termination_by sizeOf upper

/-- Lays every entry over the one below with the same key. -/
def overlayEntries (below : List (String × Value)) : List (String × Value) → List (String × Value)
  | [] => []
  | (key, upper) :: rest =>
    let value := match find? below key with
      | some lower => overlay lower upper
      | none => upper
    (key, value) :: overlayEntries below rest
termination_by above => sizeOf above

end

end Value
end PacketRelay.Config
