import Tiling.Document.Json
import Tiling.Kit
import Tiling.Yaml.Decode

/-!
Kits and tiles from text. A kit is a map with the fields `boundary_socket`, `opposites` and
`tiles`; a tile has the fields `id`, `sockets`, `plugs` and `weight`. In a kit, the last two may be
left out.
-/

namespace Tiling

/-- Reads what a tile accepts on each slot. -/
def plugsOfNode (node : Yaml.Node) : Yaml.Decoding (SortedMap String (SortedSet String)) :=
  Yaml.Decoding.map (fun node => .ofList <$> Yaml.Decoding.list Yaml.Decoding.text node) node

namespace TileEntry

/-- Reads an entry of a kit. -/
def ofNode (node : Yaml.Node) : Yaml.Decoding (TileEntry String String String) := do
  let fields ← Yaml.Decoding.fields ["id", "sockets", "plugs", "weight"] node
  return {
    id := ← Yaml.Decoding.required Yaml.Decoding.text fields "id"
    sockets := ← Yaml.Decoding.required (Yaml.Decoding.map Yaml.Decoding.text) fields "sockets"
    plugs := (← Yaml.Decoding.given (Yaml.Decoding.optional plugsOfNode) fields "plugs").join
    weight :=
      (← Yaml.Decoding.given (Yaml.Decoding.optional Yaml.Decoding.float) fields "weight").join }

end TileEntry

namespace KitDocument

/-- Reads what a node says about a kit. -/
def ofNode (node : Yaml.Node) : Yaml.Decoding (KitDocument String String String) := do
  let fields ← Yaml.Decoding.fields ["boundary_socket", "opposites", "tiles"] node
  return {
    boundarySocket := ← Yaml.Decoding.required Yaml.Decoding.text fields "boundary_socket"
    opposites :=
      ← Yaml.Decoding.required (Yaml.Decoding.map Yaml.Decoding.text) fields "opposites"
    tiles := ← Yaml.Decoding.required (Yaml.Decoding.list TileEntry.ofNode) fields "tiles" }

/-- Reads what a text says about a kit. -/
def ofText? (text : String) : Option (KitDocument String String String) := do
  let document ← Yaml.Document.ofText? text
  (ofNode document.root).run? document

end KitDocument

/-- The kit that a text describes. -/
def Kit.ofText (text : String) :
    Except (Failure (KitError String)) (Kit String String String) :=
  match KitDocument.ofText? text with
  | some document => document.kit
  | none => .error (.error .unreadable)

/-- Why no kit was loaded from a file. -/
inductive LoadError where
  /-- The file holds no text. -/
  | notText
  | invalid (reason : KitError String)
deriving DecidableEq

/-- The kit in a file of which the bytes are given; there must be such a file. -/
def Kit.ofFile (file : Option ByteArray) :
    Except (Failure LoadError) (Kit String String String) :=
  match file with
  | none => .error (.fault .notAFile)
  | some bytes =>
    match String.fromUTF8? bytes with
    | none => .error (.error .notText)
    | some text =>
      (Kit.ofText text).mapError fun
        | .error reason => .error (.invalid reason)
        | .fault reason => .fault reason

namespace Tile

/-- Reads a tile from a node that gives its plugs and perhaps its weight. The weight may be any
number. -/
def ofNode (node : Yaml.Node) : Yaml.Decoding (Tile String String String) := do
  let fields ← Yaml.Decoding.fields ["id", "sockets", "plugs", "weight"] node
  return {
    id := ← Yaml.Decoding.required Yaml.Decoding.text fields "id"
    sockets := ← Yaml.Decoding.required (Yaml.Decoding.map Yaml.Decoding.text) fields "sockets"
    plugs := ← Yaml.Decoding.required plugsOfNode fields "plugs"
    weight := (← Yaml.Decoding.given Yaml.Decoding.float fields "weight").getD 1 }

/-- Reads a tile from a text. -/
def ofYaml? (text : String) : Option (Tile String String String) := do
  let document ← Yaml.Document.ofText? text
  (ofNode document.root).run? document

/-- Reads a tile from a JSON value: an object with the fields of a tile, or a list of their values
in order. The weight may be left out. -/
def ofJson? (json : Json) : Option (Tile String String String) := do
  let (id, sockets, plugs, weight) ←
    match json with
    | .list [id, sockets, plugs] => some (id, sockets, plugs, none)
    | .list [id, sockets, plugs, weight] => some (id, sockets, plugs, some weight)
    | .object _ => do
      some (← json.field? "id", ← json.field? "sockets", ← json.field? "plugs",
        json.field? "weight")
    | _ => none
  let sockets ← sockets.map? Json.text?
  let plugs ← plugs.map? fun sockets => (sockets.list? Json.text?).map SortedSet.ofList
  let weight ←
    match weight with
    | some weight => weight.float?
    | none => some 1
  return { id := ← id.text?, sockets, plugs, weight }

end Tile

end Tiling
