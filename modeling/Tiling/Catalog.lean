import Tiling.Candidates
import Tiling.Tile

/-!
Catalogs: lists of tiles no two of which share a name. The index of a tile is its place in the
list, and sets of tiles are sets of indices.
-/

namespace Tiling

/-- Tiles with distinct names, indexed by their places. -/
structure Catalog (τ σ π : Type) [Key σ] [Key π] where
  tiles : List (Tile τ σ π)
  distinct : (tiles.map (·.id)).Nodup

/-- Why a list of tiles is no catalog, or a list of names no set of tiles. -/
inductive CatalogError (τ : Type) where
  | duplicateTile (id : τ)
  | unknownTile (id : τ)
deriving DecidableEq

namespace Catalog

variable {τ σ π : Type} [Key σ] [Key π] [DecidableEq τ]

/-- The first name, in list order, that stands earlier in the list already. -/
def firstRepeat? (seen : List τ) : List τ → Option τ
  | [] => none
  | id :: rest => if id ∈ seen then some id else firstRepeat? (id :: seen) rest

theorem nodup_of_firstRepeat?_eq_none {seen ids : List τ}
    (none : firstRepeat? seen ids = none) : ids.Nodup ∧ ∀ id ∈ ids, id ∉ seen := by
  induction ids generalizing seen with
  | nil => simp
  | cons id rest ih =>
    unfold firstRepeat? at none
    split at none
    · cases none
    · rename_i fresh
      obtain ⟨nodup, apart⟩ := ih none
      refine ⟨List.nodup_cons.mpr ⟨fun member => ?_, nodup⟩, fun other member => ?_⟩
      · exact apart id member (by simp)
      · rcases List.mem_cons.mp member with same | member
        · rw [same]; exact fresh
        · exact fun old => apart other member (List.mem_cons_of_mem _ old)

/-- The catalog of a list of tiles, if no name occurs twice. -/
def ofTiles (tiles : List (Tile τ σ π)) : Except (CatalogError τ) (Catalog τ σ π) :=
  match repeated : firstRepeat? [] (tiles.map (·.id)) with
  | some id => .error (.duplicateTile id)
  | none => .ok ⟨tiles, (nodup_of_firstRepeat?_eq_none repeated).1⟩

omit [DecidableEq τ] in
/-- How many tiles there are. -/
def size (catalog : Catalog τ σ π) : Nat := catalog.tiles.length

omit [DecidableEq τ] in
def tile? (catalog : Catalog τ σ π) (index : Nat) : Option (Tile τ σ π) := catalog.tiles[index]?

/-- The tile at an index, which must lie in the catalog. -/
def tile (catalog : Catalog τ σ π) (index : Nat) : Except Fault (Tile τ σ π) :=
  match catalog.tile? index with
  | some tile => .ok tile
  | none => .error (.position index catalog.size)

/-- The name of the tile at an index, which must lie in the catalog. -/
def idOf (catalog : Catalog τ σ π) (index : Nat) : Except Fault τ :=
  (catalog.tile index).map (·.id)

/-- The weight of the tile at an index, which must lie in the catalog. -/
def weightOf (catalog : Catalog τ σ π) (index : Nat) : Except Fault Float :=
  match catalog.tile? index with
  | some tile => .ok tile.weight
  | none => .error (.weightPosition index catalog.size)

/-- The index of the tile of a name. -/
def indexOf? (catalog : Catalog τ σ π) (id : τ) : Option Nat :=
  catalog.tiles.findIdx? fun tile => tile.id = id

/-- All tiles of the catalog. -/
def all (catalog : Catalog τ σ π) : Candidates := .full catalog.size

/-- The tiles of a list of names. -/
def tileSet (catalog : Catalog τ σ π) (ids : List τ) : Except (CatalogError τ) Candidates :=
  ids.foldlM (fun set id =>
    match catalog.indexOf? id with
    | some index => .ok (set.insert index)
    | none => .error (.unknownTile id)) (.empty catalog.size)

/-- The names of a set of tiles, in index order. -/
def idsOf (catalog : Catalog τ σ π) (set : Candidates) : Except Fault (List τ) :=
  set.toList.mapM catalog.idOf

end Catalog

end Tiling
