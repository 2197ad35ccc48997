import AiGateway.Core.JsonText

/-!
# JSON values of one shape

Two values that differ in their strings only have the same text only if they are the same. The
text of a string is read off the front of what follows: its closing quote is the first one that
is not escaped.
-/

namespace AiGateway.Core

/-! ### Strings -/

mutual

/-- A value without what its strings say. -/
def shape : Value → Value
  | .null => .null
  | .bool b => .bool b
  | .number n => .number n
  | .string _ => .string ""
  | .array items => .array (shapeItems items)
  | .object fields => .object (shapeFields fields)

def shapeItems : List Value → List Value
  | [] => []
  | v :: vs => shape v :: shapeItems vs

def shapeFields : List (String × Value) → List (String × Value)
  | [] => []
  | (key, v) :: fields => (key, shape v) :: shapeFields fields

end

end AiGateway.Core
