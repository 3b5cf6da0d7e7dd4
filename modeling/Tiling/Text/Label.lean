import Tiling.Decimal.Text
import Tiling.Name
import Tiling.Order.SortedMap
import Tiling.Text.Quoted

/-!
Labels: the text of a value as it stands in messages and listings. Numbers are written plainly,
texts and characters between quotes, and composed values with their parts between brackets.
-/

namespace Tiling

/-- A type whose values have a text. -/
class Label (α : Type) where
  label : α → String

export Label (label)

namespace Label

/-- A name before its fields: `Name \x7b field: text, field: text \x7d`. -/
def record (name : String) (fields : List (String × String)) : String :=
  name ++ " \x7b " ++ ", ".intercalate (fields.map fun field => field.1 ++ ": " ++ field.2) ++
    " \x7d"

/-- A record that leaves fields out, which two dots stand for. -/
def partialRecord (name : String) (fields : List (String × String)) : String :=
  name ++ " \x7b " ++ String.join (fields.map fun field => field.1 ++ ": " ++ field.2 ++ ", ") ++
    ".. \x7d"

/-- A name before one part. -/
def wrapped (name part : String) : String := name ++ "(" ++ part ++ ")"

/-- Parts between braces. -/
def braced (parts : List String) : String := "\x7b" ++ ", ".intercalate parts ++ "\x7d"

/-- Parts between square brackets. -/
def bracketed (parts : List String) : String := "[" ++ ", ".intercalate parts ++ "]"

end Label

instance : Label Nat := ⟨toString⟩
instance : Label Int := ⟨toString⟩
instance : Label Bool := ⟨toString⟩
instance : Label Float := ⟨Decimal.text⟩
instance : Label String := ⟨Quoted.text⟩
instance : Label Char := ⟨Quoted.character⟩

instance : Label Name := ⟨fun
  | .number value => label value
  | .text value => label value⟩

variable {κ α : Type}

instance [Label α] : Label (Option α) := ⟨fun
  | some value => Label.wrapped "Some" (label value)
  | none => "None"⟩

instance [Label α] : Label (List α) := ⟨fun values => Label.bracketed (values.map label)⟩

instance [Key κ] [Label κ] [Label α] : Label (SortedMap κ α) := ⟨fun map =>
  Label.braced (map.entries.map fun entry => label entry.1 ++ ": " ++ label entry.2)⟩

/-- A set is written without the values that its members stand for. -/
instance (priority := 10000) [Key κ] [Label κ] : Label (SortedSet κ) := ⟨fun set =>
  Label.braced (set.toList.map label)⟩

end Tiling
