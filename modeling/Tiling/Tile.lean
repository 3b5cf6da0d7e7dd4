import Tiling.Fault
import Tiling.Order.SortedMap

/-!
Tiles. On each of its slots a tile shows at most one socket and accepts the sockets of its plug
set; a slot without a plug set accepts nothing. The weight says how readily the tile is chosen.
-/

namespace Tiling

/-- A tile named by `τ`, with slots of `σ` and sockets of `π`. -/
structure Tile (τ σ π : Type) [Key σ] [Key π] where
  id : τ
  sockets : SortedMap σ π
  plugs : SortedMap σ (SortedSet π)
  weight : Float := 1

namespace Tile

variable {τ σ π : Type} [Key σ] [Key π]

/-- Equality of tiles compares weights as numbers, so that a tile whose weight is not a number
differs from itself. -/
instance [BEq τ] : BEq (Tile τ σ π) := ⟨fun first second =>
  first.id == second.id && first.sockets == second.sockets && first.plugs == second.plugs &&
    first.weight == second.weight⟩

def socket? (tile : Tile τ σ π) (slot : σ) : Option π := tile.sockets.get? slot

/-- Whether the tile has a plug set on the slot that holds the socket. -/
def accepts (tile : Tile τ σ π) (slot : σ) (socket : π) : Bool :=
  match tile.plugs.get? slot with
  | some accepted => accepted.contains socket
  | none => false

/-- The tile under another weight, which must not be negative. -/
def withWeight (tile : Tile τ σ π) (weight : Float) : Except Fault (Tile τ σ π) :=
  if 0 ≤ weight then .ok { tile with weight } else .error .negativeWeight

/-- A tile that accepts on every slot just the socket it shows there. -/
def ofSockets (id : τ) (sockets : SortedMap σ π) : Tile τ σ π :=
  { id, sockets, plugs := sockets.mapValues fun _ socket => SortedSet.singleton socket }

/-- Lays the sockets out along the slots. Sockets past the last slot go to the first one, where
the last of them stays. -/
def layout (slots : List σ) (sockets : List π) : Except Fault (SortedMap σ π) :=
  match slots with
  | [] => .error .noSlots
  | first :: _ =>
    .ok (SortedMap.ofList (sockets.zipIdx.map fun (socket, place) =>
      (slots.getD place first, socket)))

/-- A tile with the sockets laid out along the slots, accepting its own socket on each. -/
def along (id : τ) (slots : List σ) (sockets : List π) : Except Fault (Tile τ σ π) :=
  (layout slots sockets).map (ofSockets id)

end Tile

end Tiling
