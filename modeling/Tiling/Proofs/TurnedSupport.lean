import Tiling.Proofs.Catalog
import Tiling.Proofs.Support
import Tiling.Proofs.Turning

/-!
Turning a whole catalog. When all tiles turn together along an order that the pairing of slots
keeps to, what they support turns with them.
-/

namespace Tiling

section Later

variable {σ : Type} {order : List σ} {steps more total : Int} {slot next target : σ}

/-- Slot `target` comes so many steps after `slot` round an order. -/
def Later (order : List σ) (steps : Int) (slot target : σ) : Prop :=
  ∃ place : Nat, order[place]? = some slot ∧
    order[((place + steps) % order.length).toNat]? = some target

theorem exists_later (steps : Int) (listed : slot ∈ order) :
    ∃ target, Later order steps slot target := by
  obtain ⟨place, found⟩ := List.getElem?_of_mem listed
  exact ⟨_, place, found, List.getElem?_eq_getElem (target_lt steps found)⟩

namespace Later

theorem mem (later : Later order steps slot target) : slot ∈ order ∧ target ∈ order := by
  obtain ⟨place, found, reached⟩ := later
  exact ⟨List.mem_of_getElem? found, List.mem_of_getElem? reached⟩

theorem congr (later : Later order steps slot target) (same : total ≡ steps [ZMOD order.length]) :
    Later order total slot target := by
  obtain ⟨place, found, reached⟩ := later
  refine ⟨place, found, ?_⟩
  rwa [(same.add_left place : _ % _ = _ % _)]

theorem refl (listed : slot ∈ order) : Later order 0 slot slot := by
  obtain ⟨place, found⟩ := List.getElem?_of_mem listed
  obtain ⟨below, -⟩ := List.getElem?_eq_some_iff.mp found
  refine ⟨place, found, ?_⟩
  rwa [Int.add_zero, ← Int.natCast_mod, Int.toNat_natCast, Nat.mod_eq_of_lt below]

private theorem place_unique (distinct : order.Nodup) {place other : Nat}
    (found : order[place]? = some slot) (found' : order[other]? = some slot) : place = other := by
  obtain ⟨below, -⟩ := List.getElem?_eq_some_iff.mp found
  exact (List.getElem?_inj below distinct).mp (found.trans found'.symm)

theorem unique (distinct : order.Nodup) (later : Later order steps slot next)
    (later' : Later order steps slot target) : next = target := by
  obtain ⟨place, found, reached⟩ := later
  obtain ⟨other, found', reached'⟩ := later'
  cases place_unique distinct found found'
  exact Option.some.inj (reached.symm.trans reached')

theorem trans (distinct : order.Nodup) (first : Later order steps slot next)
    (second : Later order more next target) : Later order (steps + more) slot target := by
  obtain ⟨place, found, reached⟩ := first
  obtain ⟨other, found', reached'⟩ := second
  cases place_unique distinct found' reached
  obtain ⟨below, -⟩ := List.getElem?_eq_some_iff.mp found
  have least := Int.emod_nonneg (place + steps) (by omega : (order.length : Int) ≠ 0)
  rw [Int.toNat_of_nonneg least, Int.emod_add_emod, Int.add_assoc] at reached'
  exact ⟨place, found, reached'⟩

/-- A pairing that commutes with one step round an order commutes with any number of steps. -/
theorem paired (distinct : order.Nodup) {pairing : σ → σ}
    (closed : ∀ slot ∈ order, pairing slot ∈ order)
    (commutes : ∀ slot next, Later order 1 slot next → Later order 1 (pairing slot) (pairing next))
    (later : Later order steps slot target) :
    Later order steps (pairing slot) (pairing target) := by
  have forward : ∀ (count : Nat) target, Later order count slot target →
      Later order count (pairing slot) (pairing target) := by
    intro count
    induction count with
    | zero =>
      intro target later
      cases later.unique distinct (refl later.mem.1)
      exact refl (closed slot later.mem.1)
    | succ count ih =>
      intro target later
      obtain ⟨middle, before⟩ := exists_later count later.mem.1
      obtain ⟨last, after⟩ := exists_later 1 before.mem.2
      cases later.unique distinct (before.trans distinct after)
      exact (ih middle before).trans distinct (commutes middle target after)
  have nonempty := List.length_pos_of_mem later.mem.1
  have least := Int.emod_nonneg steps (by omega : (order.length : Int) ≠ 0)
  have round : ((steps % order.length).toNat : Int) ≡ steps [ZMOD order.length] := by
    rw [Int.toNat_of_nonneg least]
    exact Int.mod_modEq _ _
  exact (forward _ target (later.congr round)).congr round.symm

end Later

end Later

private theorem exists_mapM {α β ε : Type} {step : α → Except ε β} {items : List α}
    (each : ∀ item ∈ items, ∃ result, step item = .ok result) :
    ∃ results, items.mapM step = .ok results ∧
      List.Forall₂ (fun item result => step item = .ok result) items results := by
  induction items with
  | nil => exact ⟨[], rfl, .nil⟩
  | cons item rest ih =>
    obtain ⟨result, ran⟩ := each item List.mem_cons_self
    obtain ⟨results, ran', done⟩ := ih fun other listed =>
      each other (List.mem_cons_of_mem _ listed)
    refine ⟨result :: results, ?_, .cons ran done⟩
    rw [List.mapM_cons, ran, ran']
    rfl

variable {τ σ π : Type} [Key σ] [Key π]

namespace Catalog

/-- Catalog `turned` has the tiles of a catalog in their places, all turned alike. -/
def TurnsTo (catalog turned : Catalog τ σ π) (order : List σ) (steps : Int) : Prop :=
  List.Forall₂ (fun tile result => ∃ id, tile.turned id order steps = .ok result)
    catalog.tiles turned.tiles

variable {catalog turned : Catalog τ σ π} {order : List σ} {steps : Int}

namespace TurnsTo

theorem tile? (turns : catalog.TurnsTo turned order steps) (index : Nat) :
    (catalog.tile? index = none ∧ turned.tile? index = none) ∨
      ∃ tile result id, catalog.tile? index = some tile ∧ turned.tile? index = some result ∧
        tile.turned id order steps = .ok result := by
  unfold Catalog.tile?
  rcases Nat.lt_or_ge index catalog.tiles.length with below | beyond
  · obtain ⟨id, ran⟩ := List.Forall₂.get turns below (turns.length_eq ▸ below)
    exact .inr ⟨_, _, id, List.getElem?_eq_getElem below, List.getElem?_eq_getElem _, ran⟩
  · exact .inl ⟨List.getElem?_eq_none beyond, List.getElem?_eq_none (turns.length_eq ▸ beyond)⟩

/-- Turned tiles meet across a turned slot as the tiles met across the slot. -/
theorem meets (turns : catalog.TurnsTo turned order steps) (distinct : order.Nodup)
    {pairing : σ → σ} {slot target : σ} (later : Later order steps slot target)
    (paired : Later order steps (pairing slot) (pairing target)) (index other : Nat) :
    turned.meets pairing index target other = catalog.meets pairing index slot other := by
  obtain ⟨_, found, reached⟩ := later
  obtain ⟨_, found', reached'⟩ := paired
  unfold Catalog.meets
  rcases turns.tile? index with ⟨before, after⟩ | ⟨tile, result, _, before, after, ran⟩
  · rw [before, after]
    rfl
  rcases turns.tile? other with ⟨before', after'⟩ | ⟨facing, result', _, before', after', ran'⟩
  · simp [before', after']
  · obtain ⟨-, plugs⟩ := Tile.carried_of_turned distinct ran found reached
    obtain ⟨socket, -⟩ := Tile.carried_of_turned distinct ran' found' reached'
    simp only [before, after, before', after', Option.any_some, Tile.accepts, plugs, socket]

end TurnsTo

theorem exists_turnsTo [DecidableEq τ] (catalog : Catalog τ σ π) {order : List σ}
    (nonempty : order ≠ [])
    (complete : ∀ tile ∈ catalog.tiles, ∀ slot ∈ order,
      (tile.socket? slot).isSome = true ∧ (tile.plugs.get? slot).isSome = true)
    (steps : Int) {ids : List τ} (fresh : ids.Nodup) (named : ids.length = catalog.size) :
    ∃ tiles turned,
      (catalog.tiles.zip ids).mapM (fun entry => entry.1.turned entry.2 order steps) = .ok tiles ∧
      ofTiles tiles = .ok turned ∧ catalog.TurnsTo turned order steps := by
  have each : ∀ entry ∈ catalog.tiles.zip ids,
      ∃ result, entry.1.turned entry.2 order steps = .ok result := fun entry listed =>
    (Tile.exists_turned_iff entry.1 entry.2 order steps).mpr
      ⟨nonempty, complete entry.1 (List.of_mem_zip listed).1⟩
  obtain ⟨tiles, ran, done⟩ := exists_mapM each
  have names : List.Forall₂ (· = ·) ((catalog.tiles.zip ids).map (·.2)) (tiles.map (·.id)) := by
    rw [List.forall₂_map_left_iff, List.forall₂_map_right_iff]
    refine done.imp fun entry result ran => ?_
    obtain ⟨-, sockets, plugs, -, -, rfl⟩ := Tile.turned_ok_iff.mp ran
    rfl
  rw [List.forall₂_eq_eq_eq, List.map_snd_zip (Nat.le_of_eq named)] at names
  refine ⟨tiles, _, ran, ofTiles_of_nodup (names ▸ fresh), ?_⟩
  unfold TurnsTo
  rw [← List.map_fst_zip (Nat.le_of_eq named.symm), List.forall₂_map_left_iff]
  exact done.imp fun entry result ran => ⟨entry.2, ran⟩

end Catalog

namespace Support

theorem exists_across {catalog : Catalog τ σ π} (pairing : σ → σ) {index : Nat}
    {tile : Tile τ σ π} {slot : σ} (found : catalog.tile? index = some tile)
    (plugged : (tile.plugs.get? slot).isSome = true) :
    ∃ set, (ofCatalog catalog pairing).across index slot = .ok set := by
  obtain ⟨sockets, accepted⟩ := Option.isSome_iff_exists.mp plugged
  simp [across_ofCatalog, found, accepted]

theorem mem_iff_meets {catalog : Catalog τ σ π} {pairing : σ → σ} {index : Nat} {slot : σ}
    {set : Candidates} (supported : (ofCatalog catalog pairing).across index slot = .ok set)
    (other : Nat) : other ∈ set ↔ catalog.meets pairing index slot other = true := by
  rw [← across_iff_meets, supported]
  simp

/-- Turning all tiles of a catalog together along an order, with which the pairing of slots
commutes, turns what they support. -/
theorem across_turned [DecidableEq τ] (catalog : Catalog τ σ π) {order : List σ}
    (distinct : order.Nodup) (nonempty : order ≠ [])
    (complete : ∀ tile ∈ catalog.tiles, ∀ slot ∈ order,
      (tile.socket? slot).isSome = true ∧ (tile.plugs.get? slot).isSome = true)
    {pairing : σ → σ} (closed : ∀ slot ∈ order, pairing slot ∈ order)
    (commutes : ∀ slot next, Later order 1 slot next → Later order 1 (pairing slot) (pairing next))
    (steps : Int) {ids : List τ} (fresh : ids.Nodup) (named : ids.length = catalog.size) :
    ∃ tiles turned,
      (catalog.tiles.zip ids).mapM (fun entry => entry.1.turned entry.2 order steps) = .ok tiles ∧
      Catalog.ofTiles tiles = .ok turned ∧
      ∀ index < catalog.size, ∀ slot ∈ order, ∃ target, Later order steps slot target ∧
        ∃ before after, (ofCatalog catalog pairing).across index slot = .ok before ∧
          (ofCatalog turned pairing).across index target = .ok after ∧
          ∀ other, other ∈ after ↔ other ∈ before := by
  obtain ⟨tiles, turned, ran, made, turns⟩ :=
    catalog.exists_turnsTo nonempty complete steps fresh named
  refine ⟨tiles, turned, ran, made, fun index below slot listed => ?_⟩
  obtain ⟨target, later⟩ := exists_later steps listed
  obtain ⟨tile, found⟩ : ∃ tile, catalog.tile? index = some tile :=
    ⟨_, List.getElem?_eq_getElem below⟩
  have plugged := (complete tile (List.mem_of_getElem? found) slot listed).2
  obtain ⟨before, supported⟩ := exists_across pairing found plugged
  obtain ⟨after, supported'⟩ :
      ∃ after, (ofCatalog turned pairing).across index target = .ok after := by
    obtain ⟨absent, -⟩ | ⟨_, result, id, found', after, ran⟩ := turns.tile? index
    · cases found.symm.trans absent
    cases found.symm.trans found'
    obtain ⟨_, standing, reached⟩ := later
    have carried := (Tile.carried_of_turned distinct ran standing reached).2
    exact exists_across pairing after (carried ▸ plugged)
  refine ⟨target, later, before, after, supported, supported', fun other => ?_⟩
  rw [mem_iff_meets supported', mem_iff_meets supported,
    turns.meets distinct later (later.paired distinct closed commutes)]

/-- Four sides in a ring: a tile that accepts just its own sockets, another on each side, and one
that shows the same socket on all sides and accepts more on the first. -/
def fourSided : Catalog Nat Nat Nat where
  tiles := [.ofSockets 0 (.ofList [(0, 5), (1, 6), (2, 7), (3, 8)]),
    { id := 1, sockets := .ofList [(0, 8), (1, 8), (2, 8), (3, 8)],
      plugs := .ofList [(0, .ofList [7, 8]), (1, .singleton 8), (2, .singleton 8),
        (3, .singleton 8)] }]
  distinct := by decide

/-- Five steps back, the first tile still lies across what was the first side of the second. -/
theorem across_turned_fourSided :
    ∃ tiles turned,
      (fourSided.tiles.zip [2, 3]).mapM (fun entry => entry.1.turned entry.2 [0, 1, 2, 3] (-5)) =
        .ok tiles ∧
      Catalog.ofTiles tiles = .ok turned ∧
      (ofCatalog turned fun side => (side + 2) % 4).allows 1 3 0 = true := by
  have commutes : ∀ slot next, Later [0, 1, 2, 3] 1 slot next →
      Later [0, 1, 2, 3] 1 ((slot + 2) % 4) ((next + 2) % 4) := by
    rintro slot next ⟨place, found, reached⟩
    match place, found with
    | 0, rfl => cases reached; exact ⟨2, rfl, rfl⟩
    | 1, rfl => cases reached; exact ⟨3, rfl, rfl⟩
    | 2, rfl => cases reached; exact ⟨0, rfl, rfl⟩
    | 3, rfl => cases reached; exact ⟨1, rfl, rfl⟩
  obtain ⟨tiles, turned, ran, made, alike⟩ := across_turned fourSided
    (by decide : [0, 1, 2, 3].Nodup) (by decide) (by decide) (by decide) commutes (-5)
    (by decide : [2, 3].Nodup) rfl
  obtain ⟨target, later, before, after, supported, supported', same⟩ :=
    alike 1 (by decide) 0 (by decide)
  cases later.unique (by decide) (⟨0, rfl, rfl⟩ : Later [0, 1, 2, 3] (-5) 0 3)
  obtain ⟨set, found, listed⟩ : ∃ set,
      (ofCatalog fourSided fun side => (side + 2) % 4).across 1 0 = .ok set ∧ 0 ∈ set :=
    allows_iff.mp (by decide +kernel)
  cases supported.symm.trans found
  exact ⟨tiles, turned, ran, made, allows_iff.mpr ⟨after, supported', (same 0).mpr listed⟩⟩

end Support

end Tiling
