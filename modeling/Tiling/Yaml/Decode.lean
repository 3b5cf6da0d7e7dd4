import Tiling.Decimal.Literal
import Tiling.Order.SortedMap
import Tiling.Yaml.Node

/-!
Values of documents. What a node is read as depends on what is asked for: any scalar is a text,
whatever it looks like, while a number must be a plain one. A plain scalar without text passes
for a list or map without entries. Aliases cost: only so many may be followed while a document is
read, however often they lead to the same node.
-/

namespace Tiling.Yaml

/-- Reads a number. Infinity and the lack of a number have spellings of their own; beyond these a
number must be finite. -/
def float? (text : String) : Option Float :=
  let (isSigned, body) :=
    match text.toList with
    | '+' :: rest => (true, String.ofList rest)
    | _ => (false, text)
  if isSigned && (body.startsWith "+" || body.startsWith "-") then none
  else if body ∈ [".inf", ".Inf", ".INF"] then some (1 / 0)
  else if text ∈ ["-.inf", "-.Inf", "-.INF"] then some (-1 / 0)
  else if text ∈ [".nan", ".NaN", ".NAN"] then some (0 / 0)
  else (Decimal.float? body).filter Float.isFinite

/-- The spellings of what is not there. -/
def isNull (text : String) : Bool := text ∈ ["~", "null", "Null", "NULL"]

/-- The tag of a number. -/
def floatTag : String := "tag:yaml.org,2002:float"

/-- The tag of what is not there. -/
def nullTag : String := "tag:yaml.org,2002:null"

/-- Reads values from a document, as long as there are aliases left that may be followed. -/
abbrev Decoding (α : Type) := ReaderT Document (StateT Nat Option) α

namespace Decoding

variable {α : Type}

/-- How many aliases may be followed for each part of a document. -/
def aliasesPerPart : Nat := 100

/-- What is read from a document. -/
def run? (decoding : Decoding α) (document : Document) : Option α :=
  (StateT.run (ReaderT.run decoding document) (aliasesPerPart * document.root.parts)).map (·.1)

/-- A node, or the one it stands for. -/
def follow : Node → Decoding Node
  | .alias number => do
    match ← getThe Nat with
    | 0 => failure
    | left + 1 =>
      set left
      return (← readThe Document).numbered number
  | node => return node

/-- A node read as a text. -/
def text (node : Node) : Decoding String := do
  match ← follow node with
  | .scalar text .. => return text
  | _ => failure

/-- A node read as a number. -/
def float (node : Node) : Decoding Float := do
  match ← follow node with
  | .scalar text style tag =>
    if style = .plain ∨ style = .literal ∧ tag = some floatTag then Yaml.float? text else failure
  | _ => failure

/-- A node read as a list of values. -/
def list (read : Node → Decoding α) (node : Node) : Decoding (List α) := do
  match ← follow node with
  | .list items => items.mapM read
  | .scalar "" .plain _ => return []
  | _ => failure

/-- A node read as a map from texts, in which a later value takes the place of an earlier one. -/
def map (read : Node → Decoding α) (node : Node) : Decoding (SortedMap String α) := do
  match ← follow node with
  | .map entries =>
    let entries ← entries.mapM fun (key, value) => return (← text key, ← read value)
    return .ofList entries
  | .scalar "" .plain _ => return .empty
  | _ => failure

/-- A node read as a value that need not be there. -/
def optional (read : Node → Decoding α) (node : Node) : Decoding (Option α) := do
  let node ← follow node
  match node with
  | .scalar text .plain none =>
    if text.isEmpty || isNull text then return none else return some (← read node)
  | .scalar text .plain (some tag) =>
    if tag = nullTag then if isNull text then return none else failure
    else return some (← read node)
  | _ => return some (← read node)

/-- The known fields of a node, none of which may be given twice. Other fields are passed over. -/
def fields (known : List String) (node : Node) : Decoding (List (String × Node)) := do
  match ← follow node with
  | .map entries =>
    let entries ← entries.mapM fun (key, value) => return (← text key, value)
    let fields := entries.filter fun (name, _) => name ∈ known
    if (fields.map (·.1)).Nodup then return fields else failure
  | _ => failure

/-- A field that must be given. -/
def required (read : Node → Decoding α) (fields : List (String × Node)) (name : String) :
    Decoding α := do
  read (← fields.lookup name)

/-- A field that may be left out. -/
def given (read : Node → Decoding α) (fields : List (String × Node)) (name : String) :
    Decoding (Option α) := do
  match fields.lookup name with
  | some node => return some (← read node)
  | none => return none

end Decoding

end Tiling.Yaml
