import Tiling.Tile

/-!
Turning. A turn by `steps` along an order of slots moves what stands on the slot at place `i` to
the slot at place `i + steps`, counted round the order; a negative turn goes the other way.
-/

namespace Tiling

/-- Moves every element `steps` places to the right, round the end of the list. -/
def turn {α : Type} (steps : Int) (items : List α) : List α :=
  let kept := items.length - (steps % items.length).toNat
  items.drop kept ++ items.take kept

/-- Why a tile or a list cannot be turned. -/
inductive TurnError (τ σ : Type) where
  | emptySlots
  | missingPlug (tile : τ) (slot : σ)
deriving DecidableEq

/-- Turns a list; an empty one has nothing to turn. -/
def turn? {α τ σ : Type} (steps : Int) (items : List α) : Except (TurnError τ σ) (List α) :=
  if items.isEmpty then .error .emptySlots else .ok (turn steps items)

namespace Tile

variable {τ σ π : Type} [Key σ] [Key π]

/-- What a map holds on each slot of an order, or the first slot on which it holds nothing. -/
def alongOrder {α : Type} (id : τ) (held : SortedMap σ α) :
    List σ → Except (TurnError τ σ) (List α)
  | [] => .ok []
  | slot :: order =>
    match held.get? slot with
    | none => .error (.missingPlug id slot)
    | some value => (alongOrder id held order).map (value :: ·)

/-- The tile turned along an order of slots, under a new name. Only the slots of the order are
kept. -/
def turned (tile : Tile τ σ π) (id : τ) (order : List σ) (steps : Int) :
    Except (TurnError τ σ) (Tile τ σ π) := do
  let sockets ← alongOrder tile.id tile.sockets order
  let plugs ← alongOrder tile.id tile.plugs order
  let sockets ← turn? steps sockets
  let plugs ← turn? steps plugs
  return { id, sockets := .ofList (order.zip sockets), plugs := .ofList (order.zip plugs),
           weight := tile.weight }

end Tile

end Tiling
