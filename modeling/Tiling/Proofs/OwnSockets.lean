import Tiling.Kit
import Tiling.Proofs.Symmetry
import Tiling.Proofs.Turning

/-!
Tiles that accept just their own sockets. Such tiles come of sockets laid along slots and of entries
that leave the plugs out, and they stay so when they are weighed or turned. Among them, support is
mutual under every pairing that leads back from each slot.
-/

namespace Tiling

/-- A turn moves places and does not look at what stands there. -/
theorem turn_map {α β : Type} (steps : Int) (items : List α) (change : α → β) :
    turn steps (items.map change) = (turn steps items).map change := by
  unfold turn
  rw [List.length_map, List.map_append, List.map_drop, List.map_take]

variable {τ σ π : Type} [Key σ] [Key π]

namespace Tile

/-- The tile accepts on each slot the socket that it shows there, and nothing else. -/
def AcceptsOwn (tile : Tile τ σ π) : Prop :=
  tile.plugs = tile.sockets.mapValues fun _ socket => SortedSet.singleton socket

/-- The tiles for which no plug set was ever given. -/
inductive Plain : Tile τ σ π → Prop where
  | along {id : τ} {slots : List σ} {sockets : List π} {tile : Tile τ σ π}
      (laid : Tile.along id slots sockets = .ok tile) : Plain tile
  | entry {entry : TileEntry τ σ π} {tile : Tile τ σ π} (unplugged : entry.plugs = none)
      (made : entry.tile = .ok tile) : Plain tile
  | weighed {tile result : Tile τ σ π} {weight : Float} (plain : Plain tile)
      (weighed : tile.withWeight weight = .ok result) : Plain result
  | turned {tile result : Tile τ σ π} {id : τ} {order : List σ} {steps : Int} (plain : Plain tile)
      (turned : tile.turned id order steps = .ok result) : Plain result

section Making

variable {tile result : Tile τ σ π} {id : τ} {order : List σ} {steps : Int}

theorem acceptsOwn_along {slots : List σ} {sockets : List π}
    (laid : along id slots sockets = .ok tile) : tile.AcceptsOwn := by
  unfold along at laid
  cases laidOut : layout slots sockets with
  | error reason =>
    rw [laidOut] at laid
    cases laid
  | ok shown =>
    rw [laidOut] at laid
    cases laid
    rfl

theorem AcceptsOwn.withWeight {weight : Float} (own : tile.AcceptsOwn)
    (weighed : tile.withWeight weight = .ok result) : result.AcceptsOwn := by
  unfold Tile.withWeight at weighed
  split at weighed
  · cases weighed
    exact own
  · cases weighed

theorem acceptsOwn_entry {entry : TileEntry τ σ π} (unplugged : entry.plugs = none)
    (made : entry.tile = .ok tile) : tile.AcceptsOwn := by
  have own : (ofSockets entry.id entry.sockets).AcceptsOwn := rfl
  unfold TileEntry.tile at made
  rw [unplugged] at made
  cases given : entry.weight with
  | none =>
    rw [given] at made
    cases made
    exact own
  | some weight =>
    rw [given] at made
    exact own.withWeight made

theorem AcceptsOwn.turned (own : tile.AcceptsOwn)
    (turned : tile.turned id order steps = .ok result) : result.AcceptsOwn := by
  obtain ⟨-, sockets, plugs, shown, accepted, rfl⟩ := turned_ok_iff.mp turned
  have alike : plugs = sockets.map SortedSet.singleton := by
    apply List.map_injective_iff.mpr (Option.some_injective _)
    calc plugs.map some
      _ = order.map tile.plugs.get? := accepted.symm
      _ = order.map fun slot => (tile.sockets.get? slot).map SortedSet.singleton := by
        rw [own]
        simp
      _ = (sockets.map SortedSet.singleton).map some := by
        rw [List.map_map, ← Function.comp_def, ← List.map_map, shown, List.map_map]
        rfl
  unfold AcceptsOwn laidAlong
  rw [alike, turn_map, List.zip_map_right, SortedMap.mapValues_ofList]
  rfl

/-- However it was made, a tile without given plug sets accepts just its own sockets. -/
theorem Plain.acceptsOwn (plain : Plain tile) : tile.AcceptsOwn := by
  induction plain with
  | along laid => exact acceptsOwn_along laid
  | entry unplugged made => exact acceptsOwn_entry unplugged made
  | weighed _ weighed own => exact own.withWeight weighed
  | turned _ turned own => exact own.turned turned

theorem AcceptsOwn.accepts_iff (own : tile.AcceptsOwn) {slot : σ} {socket : π} :
    tile.accepts slot socket = true ↔ tile.socket? slot = some socket := by
  unfold accepts socket?
  rw [own, SortedMap.get?_mapValues]
  cases tile.sockets.get? slot with
  | none => simp
  | some shown => simp [SortedSet.contains_singleton]

end Making

end Tile

namespace Catalog

variable {catalog : Catalog τ σ π} {pairing : σ → σ}

/-- Tiles that accept just their own sockets meet where they show the same one. -/
theorem meets_iff_of_acceptsOwn (own : ∀ tile ∈ catalog.tiles, tile.AcceptsOwn) {index other : Nat}
    {slot : σ} :
    catalog.meets pairing index slot other = true ↔
      ∃ tile facing socket, catalog.tile? index = some tile ∧ catalog.tile? other = some facing ∧
        tile.socket? slot = some socket ∧ facing.socket? (pairing slot) = some socket := by
  simp only [meets, Option.any_eq_true]
  constructor
  · rintro ⟨tile, found, facing, found', socket, facingShown, accepted⟩
    have shown := (own tile (List.mem_of_getElem? found)).accepts_iff.mp accepted
    exact ⟨tile, facing, socket, found, found', shown, facingShown⟩
  · rintro ⟨tile, facing, socket, found, found', shown, facingShown⟩
    have accepted := (own tile (List.mem_of_getElem? found)).accepts_iff.mpr shown
    exact ⟨tile, found, facing, found', socket, facingShown, accepted⟩

theorem meets_comm_of_acceptsOwn (own : ∀ tile ∈ catalog.tiles, tile.AcceptsOwn)
    (involutive : ∀ slot, pairing (pairing slot) = slot) {index other : Nat} {slot : σ} :
    catalog.meets pairing index slot other = true ↔
      catalog.meets pairing other (pairing slot) index = true := by
  rw [meets_iff_of_acceptsOwn own, meets_iff_of_acceptsOwn own, involutive]
  constructor
  · rintro ⟨tile, facing, socket, found, found', shown, facingShown⟩
    exact ⟨facing, tile, socket, found', found, facingShown, shown⟩
  · rintro ⟨facing, tile, socket, found', found, facingShown, shown⟩
    exact ⟨tile, facing, socket, found, found', shown, facingShown⟩

end Catalog

namespace Support

/-- Tiles for which no plug set was given support each other exactly where they show the same
socket, and so the check finds their support symmetric. -/
theorem isSymmetric_of_plain {catalog : Catalog τ σ π} (plain : ∀ tile ∈ catalog.tiles, tile.Plain)
    {pairing : σ → σ} (involutive : ∀ slot, pairing (pairing slot) = slot) :
    (ofCatalog catalog pairing).isSymmetric pairing = true ∧
      ∀ index slot other,
        (∃ set, (ofCatalog catalog pairing).across index slot = .ok set ∧ other ∈ set) ↔
          ∃ tile facing socket, catalog.tile? index = some tile ∧
            catalog.tile? other = some facing ∧ tile.socket? slot = some socket ∧
            facing.socket? (pairing slot) = some socket := by
  have own : ∀ tile ∈ catalog.tiles, tile.AcceptsOwn := fun tile listed =>
    (plain tile listed).acceptsOwn
  constructor
  · rw [isSymmetric_iff involutive]
    intro index _ other _ slot
    rw [allows_iff, allows_iff, across_iff_meets, across_iff_meets]
    exact Catalog.meets_comm_of_acceptsOwn own involutive
  · intro index slot other
    rw [across_iff_meets]
    exact Catalog.meets_iff_of_acceptsOwn own

/-- Tiles made in each way: laid along a list with a slot twice and sockets to spare, of an entry
without plugs, and turned along one of two slots, which drops the other. -/
def unplugged : Catalog Nat Bool Nat where
  tiles := [.ofSockets 0 (.ofList [(false, 8), (true, 6)]),
    .ofSockets 1 (.ofList [(false, 6), (true, 8)]),
    .ofSockets 2 (.ofList [(true, 6)])]
  distinct := by decide

/-- The turned tile supports the tile of the entry, across the one slot that it has left. -/
theorem isSymmetric_of_plain_unplugged :
    (∀ tile ∈ unplugged.tiles, tile.Plain) ∧
      (ofCatalog unplugged not).isSymmetric not = true ∧
      ∃ set, (ofCatalog unplugged not).across 2 true = .ok set ∧ 1 ∈ set := by
  have laid : Tile.along 0 [false, true, false] [5, 6, 7, 8] =
      .ok (Tile.ofSockets 0 (.ofList [(false, 8), (true, 6)])) := rfl
  have made : TileEntry.tile { id := 1, sockets := .ofList [(false, 6), (true, 8)] } =
      .ok (Tile.ofSockets 1 (.ofList [(false, 6), (true, 8)])) := rfl
  have turned : (Tile.ofSockets 0 (.ofList [(false, 8), (true, 6)])).turned 2 [true] (-3) =
      .ok (Tile.ofSockets 2 (.ofList [(true, 6)])) := rfl
  have plain : ∀ tile ∈ unplugged.tiles, tile.Plain := by
    simp only [unplugged, List.forall_mem_cons]
    exact ⟨.along laid, .entry rfl made, .turned (.along laid) turned, nofun⟩
  obtain ⟨symmetric, supports⟩ := isSymmetric_of_plain plain Bool.not_not
  refine ⟨plain, symmetric, (supports 2 true 1).mpr ?_⟩
  exact ⟨_, _, 6, rfl, rfl, by decide, by decide⟩

end Support

end Tiling
