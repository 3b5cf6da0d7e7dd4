import Tiling.Problem

/-!
Kits: the parts of a problem that do not depend on the board. A kit holds a catalog, the slot
that meets each slot across an edge, and the socket of the boundary. It is made from what a
document says, and it is complete: every slot of every tile has an opposite.
-/

namespace Tiling

/-- A tile as a document describes it. -/
structure TileEntry (τ σ π : Type) [Key σ] [Key π] where
  id : τ
  sockets : SortedMap σ π
  /-- If left out, the tile accepts on every slot just the socket it shows there. -/
  plugs : Option (SortedMap σ (SortedSet π)) := none
  weight : Option Float := none

/-- What a document says about a kit. -/
structure KitDocument (τ σ π : Type) [Key σ] [Key π] where
  boundarySocket : π
  opposites : SortedMap σ σ
  tiles : List (TileEntry τ σ π)

/-- A catalog with the opposites of its slots and the socket of the boundary. -/
structure Kit (τ σ π : Type) [Key σ] [Key π] where
  catalog : Catalog τ σ π
  opposites : SortedMap σ σ
  boundarySocket : π

/-- Why a document is no kit. -/
inductive KitError (τ : Type) where
  /-- The text does not say what a kit needs. -/
  | unreadable
  | catalog (reason : CatalogError τ)
  /-- A tile has a slot without an opposite. -/
  | unpairedSlot
deriving DecidableEq

variable {κ τ σ π : Type} [Key κ] [Key σ] [Key π]

namespace TileEntry

/-- The tile of an entry; its weight must not be negative. -/
def tile (entry : TileEntry τ σ π) : Except Fault (Tile τ σ π) :=
  let tile : Tile τ σ π :=
    match entry.plugs with
    | some plugs => { id := entry.id, sockets := entry.sockets, plugs }
    | none => .ofSockets entry.id entry.sockets
  match entry.weight with
  | some weight => tile.withWeight weight
  | none => .ok tile

end TileEntry

/-- The slots on which a tile shows or accepts a socket. -/
def Tile.slots (tile : Tile τ σ π) : List σ := tile.sockets.keys ++ tile.plugs.keys

namespace KitDocument

variable [DecidableEq τ]

/-- Whether some slot of some tile has no opposite. -/
def leavesUnpaired (opposites : SortedMap σ σ) (tiles : List (Tile τ σ π)) : Bool :=
  tiles.any fun tile => tile.slots.any fun slot => !opposites.contains slot

/-- The kit of a document. Tiles are made first, repeated names are reported next, and slots
without an opposite last. -/
def kit (document : KitDocument τ σ π) : Except (Failure (KitError τ)) (Kit τ σ π) := do
  let tiles ← (document.tiles.mapM TileEntry.tile).mapError Failure.fault
  let catalog ← (Catalog.ofTiles tiles).mapError fun reason => .error (.catalog reason)
  if leavesUnpaired document.opposites catalog.tiles then .error (.error .unpairedSlot)
  else return {
    catalog, opposites := document.opposites, boundarySocket := document.boundarySocket }

end KitDocument

namespace Kit

/-- The slot that faces back across a slot. -/
def opposite? (kit : Kit τ σ π) (slot : σ) : Option σ := kit.opposites.get? slot

/-- Pairs each slot with its opposite, and with itself if it has none. -/
def pairing (kit : Kit τ σ π) (slot : σ) : σ := (kit.opposite? slot).getD slot

/-- The problem of a kit, which lacks a board. -/
def problem (kit : Kit τ σ π) : Problem κ τ σ π :=
  { catalog := kit.catalog, pairing := some kit.pairing
    boundarySocket := some kit.boundarySocket }

end Kit

end Tiling
