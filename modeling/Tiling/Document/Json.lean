import Tiling.Decimal.Literal
import Tiling.Order.SortedMap

/-!
JSON values. A number is kept as it is written, and the fields of an object in the order in
which they are written.
-/

namespace Tiling

/-- A JSON value. -/
inductive Json where
  | null
  | bool (value : Bool)
  | number (literal : String)
  | text (value : String)
  | list (items : List Json)
  | object (fields : List (String × Json))
deriving Inhabited

namespace Json

/-- The value of an object's field, the last one if it is given more than once. -/
def field? (json : Json) (name : String) : Option Json :=
  match json with
  | object fields => (fields.reverse.find? fun field => field.1 = name).map (·.2)
  | _ => none

def text? : Json → Option String
  | text value => some value
  | _ => none

def float? : Json → Option Float
  | number literal => Decimal.float? literal
  | _ => none

/-- A list, if all its items can be read. -/
def list? {α : Type} (json : Json) (read : Json → Option α) : Option (List α) :=
  match json with
  | list items => items.mapM read
  | _ => none

/-- An object as a map, if all its values can be read. -/
def map? {α : Type} (json : Json) (read : Json → Option α) : Option (SortedMap String α) :=
  match json with
  | object fields => do
    return .ofList (← fields.mapM fun (name, value) => return (name, ← read value))
  | _ => none

end Json

end Tiling
