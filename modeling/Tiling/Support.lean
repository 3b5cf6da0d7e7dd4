import Tiling.Catalog

/-!
Support: which tiles may lie across a slot from a given tile. Tile `other` is supported by tile
`tile` across `slot` when `tile` accepts on `slot` the socket that `other` shows on the slot paired
with it. The two directions of a pairing are separate facts, and `isSymmetric` decides whether
they agree.
-/

namespace Tiling

/-- For each tile, the tiles it supports across each slot on which it has a plug set. -/
structure Support (σ : Type) [Key σ] where
  rows : Array (SortedMap σ Candidates)

/-- Why a tile supports no set of tiles across a slot. -/
inductive SupportError (σ : Type) where
  | unknownTile (index : Nat)
  | missingPlug (index : Nat) (slot : σ)
deriving DecidableEq

namespace Support

variable {τ σ π : Type} [Key σ] [Key π]

/-- The tiles whose socket on `paired` is one of the accepted ones. -/
def accepted (tiles : List (Tile τ σ π)) (paired : σ) (sockets : SortedSet π) : Candidates :=
  tiles.zipIdx.foldl (fun set (tile, index) =>
    match tile.socket? paired with
    | some socket => if sockets.contains socket then set.insert index else set
    | none => set) (.empty tiles.length)

/-- The support among the tiles of a catalog, with slots matched by `pairing`. -/
def ofCatalog (catalog : Catalog τ σ π) (pairing : σ → σ) : Support σ :=
  ⟨catalog.tiles.toArray.map fun tile =>
    tile.plugs.mapValues fun slot sockets => accepted catalog.tiles (pairing slot) sockets⟩

def size (support : Support σ) : Nat := support.rows.size

/-- The tiles supported by one tile across a slot. -/
def across (support : Support σ) (tile : Nat) (slot : σ) : Except (SupportError σ) Candidates :=
  match support.rows[tile]? with
  | none => .error (.unknownTile tile)
  | some row =>
    match row.get? slot with
    | none => .error (.missingPlug tile slot)
    | some set => .ok set

/-- The tiles supported by any of the given tiles across a slot. The least tile that supports no
set there is reported. -/
def acrossAny (support : Support σ) (tiles : Candidates) (slot : σ) :
    Except (SupportError σ) Candidates :=
  tiles.toList.foldlM (fun set tile => (support.across tile slot).map set.union)
    (.empty support.size)

/-- Whether a tile is supported across a slot, where a missing plug set supports nothing. -/
def allows (support : Support σ) (tile : Nat) (slot : σ) (other : Nat) : Bool :=
  match support.across tile slot with
  | .ok set => other ∈ set
  | .error _ => false

/-- Whether each tile supports another across a slot exactly when the other supports it back
across the paired slot, for all slots on which the tile has a plug set. -/
def isSymmetric (support : Support σ) (pairing : σ → σ) : Bool :=
  support.rows.toList.zipIdx.all fun (row, tile) =>
    row.entries.all fun (slot, set) =>
      (List.range support.size).all fun other =>
        decide (other ∈ set) == support.allows other (pairing slot) tile

end Support

end Tiling
