/-!
The tokens of a document. Indentation is among them: a block collection is opened by a token of
its own and closed by another, as a bracketed one is.
-/

namespace Tiling.Yaml

/-- How a scalar is written. -/
inductive Style where
  | plain
  | singleQuoted
  | doubleQuoted
  | literal
  | folded
deriving DecidableEq, Inhabited

/-- A token of a document. -/
inductive Token where
  | version (major minor : Nat)
  /-- Declares what a tag handle stands for. -/
  | handle (name meaning : String)
  | documentStart
  | documentEnd
  | blockList
  | blockMap
  | blockEnd
  | listOpen
  | listClose
  | mapOpen
  | mapClose
  /-- Precedes an item of a block list. -/
  | item
  /-- Separates the entries of a bracketed collection. -/
  | comma
  | key
  | value
  | anchor (name : String)
  | alias (name : String)
  | tag (handle suffix : String)
  | scalar (text : String) (style : Style)
deriving DecidableEq, Inhabited

end Tiling.Yaml
