import Tiling.Kit.Load
import Tiling.Proofs.Boundary
import Tiling.Proofs.Catalog
import Tiling.Proofs.SortedMap
import Tiling.Proofs.Symmetry

/-!
Which documents are kits. A document is one just when no name is given to two tiles and each slot of
each tile has an opposite. Every slot at which the support of its catalog is paired then has one, so
that it never matters with what the other slots are paired. With a board and its adjacency the
problem of a kit lacks nothing, and starts a search if the boundary leaves each cell a tile.
-/

namespace Tiling

variable {κ τ σ π : Type} [Key κ] [Key σ] [Key π]

namespace Support

section Congr

variable {catalog : Catalog τ σ π} {pairing matching : σ → σ}

/-- Support depends on the pairing of those slots only on which some tile has a plug set. -/
theorem ofCatalog_congr
    (same : ∀ tile ∈ catalog.tiles, ∀ slot ∈ tile.plugs.keys, pairing slot = matching slot) :
    ofCatalog catalog pairing = ofCatalog catalog matching := by
  unfold ofCatalog
  congr 1
  rw [List.map_toArray, List.map_toArray]
  congr 1
  apply List.map_congr_left
  intro tile listed
  apply SortedMap.mapValues_congr
  intro slot plugged
  rw [same tile listed slot plugged]

theorem mem_keys_of_across {index : Nat} {slot : σ} {set : Candidates}
    (supported : (ofCatalog catalog pairing).across index slot = .ok set) :
    ∃ tile ∈ catalog.tiles, slot ∈ tile.plugs.keys := by
  rw [across_ofCatalog] at supported
  split at supported
  · cases supported
  · rename_i tile found
    split at supported
    · cases supported
    · rename_i sockets accepted
      exact ⟨tile, List.mem_of_getElem? found, SortedMap.mem_keys_iff.mpr ⟨sockets, accepted⟩⟩

theorem isSymmetric_congr
    (same : ∀ tile ∈ catalog.tiles, ∀ slot ∈ tile.plugs.keys, pairing slot = matching slot) :
    (ofCatalog catalog pairing).isSymmetric pairing =
      (ofCatalog catalog matching).isSymmetric matching := by
  rw [ofCatalog_congr same, Bool.eq_iff_iff, isSymmetric_eq_true_iff, isSymmetric_eq_true_iff]
  refine forall₃_congr fun index slot set => forall_congr' fun supported => ?_
  obtain ⟨tile, listed, plugged⟩ := mem_keys_of_across supported
  rw [same tile listed slot plugged]

end Congr

end Support

theorem Tile.accepts_iff {tile : Tile τ σ π} {slot : σ} {socket : π} :
    tile.accepts slot socket = true ↔
      ∃ accepted, tile.plugs.get? slot = some accepted ∧ accepted.contains socket = true := by
  unfold Tile.accepts
  cases tile.plugs.get? slot <;> simp

namespace TileEntry

variable {entry : TileEntry τ σ π}

/-- What the tile of an entry accepts on each slot: what is given or, if nothing is, the socket that
it shows there. -/
def accepted (entry : TileEntry τ σ π) : SortedMap σ (SortedSet π) :=
  entry.plugs.getD (entry.sockets.mapValues fun _ socket => SortedSet.singleton socket)

/-- The tile that an entry describes. -/
def described (entry : TileEntry τ σ π) : Tile τ σ π :=
  { id := entry.id, sockets := entry.sockets, plugs := entry.accepted
    weight := entry.weight.getD 1 }

/-- The weight of an entry, if there is one, is neither negative nor no number. -/
def Weighs (entry : TileEntry τ σ π) : Prop := ∀ weight, entry.weight = some weight → 0 ≤ weight

theorem Weighs.tile (weighs : entry.Weighs) : entry.tile = .ok entry.described := by
  obtain ⟨id, sockets, plugs, weight⟩ := entry
  cases weight with
  | none => cases plugs <;> rfl
  | some weight =>
    have accepted : 0 ≤ weight := weighs weight rfl
    unfold TileEntry.tile Tile.withWeight
    simp only [accepted, if_true]
    cases plugs <;> rfl

theorem mapM_tile {entries : List (TileEntry τ σ π)} (weigh : ∀ entry ∈ entries, entry.Weighs) :
    entries.mapM tile = .ok (entries.map described) := by
  induction entries with
  | nil => rfl
  | cons entry rest ih =>
    obtain ⟨weighs, weigh⟩ := List.forall_mem_cons.mp weigh
    rw [List.mapM_cons, weighs.tile, ih weigh]
    rfl

end TileEntry

namespace KitDocument

variable {document : KitDocument τ σ π}

/-- The names of the tiles, in the order of the document. -/
def ids (document : KitDocument τ σ π) : List τ := document.tiles.map (·.id)

/-- Each slot on which some tile shows or accepts a socket has an opposite. -/
def Paired (document : KitDocument τ σ π) : Prop :=
  ∀ entry ∈ document.tiles, ∀ slot, slot ∈ entry.sockets.keys ∨ slot ∈ entry.accepted.keys →
    ∃ opposite, document.opposites.get? slot = some opposite

theorem leavesUnpaired_eq_false_iff :
    leavesUnpaired document.opposites (document.tiles.map TileEntry.described) = false ↔
      document.Paired := by
  unfold leavesUnpaired Paired
  simp only [List.any_map, List.any_eq_false, Function.comp, Bool.not_eq_true,
    Bool.not_eq_false', SortedMap.contains_iff, Tile.slots, List.mem_append, TileEntry.described]

theorem ids_described : (document.tiles.map TileEntry.described).map (·.id) = document.ids := by
  rw [List.map_map]
  rfl

variable [DecidableEq τ]

/-- With weights that can be used, only names and opposites decide what becomes of a document. -/
theorem kit_eq (weigh : ∀ entry ∈ document.tiles, entry.Weighs) :
    document.kit =
      match Catalog.ofTiles (document.tiles.map TileEntry.described) with
      | .error reason => .error (.error (.catalog reason))
      | .ok catalog =>
        if leavesUnpaired document.opposites catalog.tiles then .error (.error .unpairedSlot)
        else .ok ⟨catalog, document.opposites, document.boundarySocket⟩ := by
  unfold kit
  rw [TileEntry.mapM_tile weigh]
  simp only [Except.mapError, bind, Except.bind]
  cases Catalog.ofTiles (document.tiles.map TileEntry.described) <;> rfl

/-- What becomes of a document: the first repeated name is reported, then a slot without an
opposite, and else there is a kit of the described tiles. -/
theorem kit_cases (weigh : ∀ entry ∈ document.tiles, entry.Weighs) :
    (∃ id, FirstRepeat document.ids id ∧
      document.kit = .error (.error (.catalog (.duplicateTile id)))) ∨
    (document.ids.Nodup ∧ ¬ document.Paired ∧ document.kit = .error (.error .unpairedSlot)) ∨
    (document.ids.Nodup ∧ document.Paired ∧
      ∃ catalog, catalog.tiles = document.tiles.map TileEntry.described ∧
        document.kit = .ok ⟨catalog, document.opposites, document.boundarySocket⟩) := by
  rw [kit_eq weigh]
  cases made : Catalog.ofTiles (document.tiles.map TileEntry.described) with
  | error reason =>
    obtain ⟨id, repeats, rfl⟩ := Catalog.ofTiles_error_iff.mp made
    rw [ids_described] at repeats
    exact .inl ⟨id, repeats, rfl⟩
  | ok catalog =>
    have tiles := Catalog.ofTiles_ok_iff.mp made
    have nodup := catalog.distinct
    rw [tiles, ids_described] at nodup
    simp only [tiles, ← leavesUnpaired_eq_false_iff]
    cases unpaired : leavesUnpaired document.opposites (document.tiles.map TileEntry.described) with
    | true => exact .inr (.inl ⟨nodup, nofun, rfl⟩)
    | false => exact .inr (.inr ⟨nodup, rfl, catalog, tiles, rfl⟩)

theorem exists_kit_iff (weigh : ∀ entry ∈ document.tiles, entry.Weighs) :
    (∃ kit, document.kit = .ok kit) ↔ document.ids.Nodup ∧ document.Paired := by
  rcases kit_cases weigh with ⟨id, repeats, failed⟩ | ⟨-, unpaired, failed⟩ |
    ⟨nodup, paired, catalog, -, made⟩
  · simp [failed, repeats.not_nodup]
  · simp [failed, unpaired]
  · simp [made, nodup, paired]

theorem kit_duplicate_iff (weigh : ∀ entry ∈ document.tiles, entry.Weighs) {id : τ} :
    document.kit = .error (.error (.catalog (.duplicateTile id))) ↔
      FirstRepeat document.ids id := by
  have distinct : document.ids.Nodup → ¬ FirstRepeat document.ids id := fun nodup repeats =>
    repeats.not_nodup nodup
  rcases kit_cases weigh with ⟨other, repeats, failed⟩ | ⟨nodup, -, failed⟩ |
    ⟨nodup, -, catalog, -, made⟩
  · rw [failed]
    constructor
    · rintro ⟨⟩
      exact repeats
    · intro repeats'
      rw [Catalog.firstRepeat_unique repeats repeats']
  · simp [failed, distinct nodup]
  · simp [made, distinct nodup]

theorem kit_unpaired_iff (weigh : ∀ entry ∈ document.tiles, entry.Weighs) :
    document.kit = .error (.error .unpairedSlot) ↔ document.ids.Nodup ∧ ¬ document.Paired := by
  rcases kit_cases weigh with ⟨id, repeats, failed⟩ | ⟨nodup, unpaired, failed⟩ |
    ⟨-, paired, catalog, -, made⟩
  · simp [failed, repeats.not_nodup]
  · simp [failed, nodup, unpaired]
  · simp [made, paired]

variable {kit : Kit τ σ π}

theorem of_kit (weigh : ∀ entry ∈ document.tiles, entry.Weighs) (made : document.kit = .ok kit) :
    kit.catalog.tiles = document.tiles.map TileEntry.described ∧
      kit.opposites = document.opposites ∧ kit.boundarySocket = document.boundarySocket := by
  rcases kit_cases weigh with ⟨id, -, failed⟩ | ⟨-, -, failed⟩ | ⟨-, -, catalog, tiles, made'⟩
  · cases made.symm.trans failed
  · cases made.symm.trans failed
  · cases made.symm.trans made'
    exact ⟨tiles, rfl, rfl⟩

theorem pairing_of_kit (weigh : ∀ entry ∈ document.tiles, entry.Weighs)
    (made : document.kit = .ok kit) {slot opposite : σ}
    (given : document.opposites.get? slot = some opposite) : kit.pairing slot = opposite := by
  obtain ⟨-, opposites, -⟩ := of_kit weigh made
  rw [Kit.pairing, Kit.opposite?, opposites, given]
  rfl

theorem exists_opposite_of_kit (weigh : ∀ entry ∈ document.tiles, entry.Weighs)
    (made : document.kit = .ok kit) {tile : Tile τ σ π} (listed : tile ∈ kit.catalog.tiles)
    {slot : σ} (plugged : slot ∈ tile.plugs.keys) :
    ∃ opposite, document.opposites.get? slot = some opposite := by
  obtain ⟨-, paired⟩ := (exists_kit_iff weigh).mp ⟨kit, made⟩
  obtain ⟨tiles, -⟩ := of_kit weigh made
  rw [tiles] at listed
  obtain ⟨entry, member, rfl⟩ := List.mem_map.mp listed
  exact paired entry member slot (.inr plugged)

/-- Tiles of a kit meet as their entries and the opposites of the document say. -/
theorem meets_of_kit (weigh : ∀ entry ∈ document.tiles, entry.Weighs)
    (made : document.kit = .ok kit) {index other : Nat} {slot : σ} :
    kit.catalog.meets kit.pairing index slot other = true ↔
      ∃ entry facing opposite socket accepted, document.tiles[index]? = some entry ∧
        document.tiles[other]? = some facing ∧ document.opposites.get? slot = some opposite ∧
        facing.sockets.get? opposite = some socket ∧ entry.accepted.get? slot = some accepted ∧
        accepted.contains socket = true := by
  obtain ⟨tiles, -⟩ := of_kit weigh made
  simp only [Catalog.meets, Catalog.tile?, tiles, List.getElem?_map, Option.any_eq_true,
    Option.map_eq_some_iff, Tile.accepts_iff]
  constructor
  · rintro ⟨_, ⟨entry, found, rfl⟩, _, ⟨facing, found', rfl⟩, socket, shown, accepted, plugged,
      held⟩
    have listed : entry.described ∈ kit.catalog.tiles := by
      rw [tiles]
      exact List.mem_map_of_mem (List.mem_of_getElem? found)
    obtain ⟨opposite, given⟩ := exists_opposite_of_kit weigh made listed
      (SortedMap.mem_keys_iff.mpr ⟨accepted, plugged⟩)
    rw [pairing_of_kit weigh made given] at shown
    exact ⟨entry, facing, opposite, socket, accepted, found, found', given, shown, plugged, held⟩
  · rintro ⟨entry, facing, opposite, socket, accepted, found, found', given, shown, plugged, held⟩
    refine ⟨_, ⟨entry, found, rfl⟩, _, ⟨facing, found', rfl⟩, socket, ?_, accepted, plugged, held⟩
    rw [pairing_of_kit weigh made given]
    exact shown

/-- The problem of a kit supplies its catalog, the opposites of the document and the socket of the
boundary. -/
theorem problem_of_kit (weigh : ∀ entry ∈ document.tiles, entry.Weighs)
    (made : document.kit = .ok kit) :
    (kit.problem : Problem κ τ σ π) =
      { catalog := kit.catalog
        pairing := some fun slot => (document.opposites.get? slot).getD slot
        boundarySocket := some document.boundarySocket } := by
  obtain ⟨-, opposites, boundary⟩ := of_kit weigh made
  rw [← opposites, ← boundary]
  rfl

theorem shows_of_kit (weigh : ∀ entry ∈ document.tiles, entry.Weighs)
    (made : document.kit = .ok kit) {index : Nat} {slot : σ} {socket : π} :
    kit.catalog.shows index slot socket = true ↔
      ∃ entry, document.tiles[index]? = some entry ∧ entry.sockets.get? slot = some socket := by
  obtain ⟨tiles, -⟩ := of_kit weigh made
  simp only [Catalog.shows, Catalog.tile?, tiles, List.getElem?_map, Option.any_map,
    Option.any_eq_true, decide_eq_true_eq]
  rfl

end KitDocument

namespace Kit

/-- The problem of a kit with the settings that a kit leaves open. -/
def completed (kit : Kit τ σ π) (board : Option (Board κ σ))
    (adjacency : Option (κ → List (σ × Neighbour κ))) (weighting : Option (Weighting κ))
    (draws : Draws) (showing : Bool) : Problem κ τ σ π :=
  { (kit.problem : Problem κ τ σ π) with board, adjacency, weighting, draws, showing }

/-- The constraints of a kit on a board. -/
def constraints (kit : Kit τ σ π) (board : Board κ σ) (adjacency : κ → List (σ × Neighbour κ)) :
    Constraints κ τ σ π :=
  { catalog := kit.catalog, board, adjacency, pairing := kit.pairing
    boundarySocket := kit.boundarySocket }

variable {kit : Kit τ σ π} {weighting : Option (Weighting κ)} {draws : Draws} {showing : Bool}

theorem completed_eq (board : Board κ σ) (adjacency : κ → List (σ × Neighbour κ)) :
    kit.completed (some board) (some adjacency) weighting draws showing =
      (kit.constraints board adjacency).problem weighting draws showing := rfl

theorem support_of_started {board : Option (Board κ σ)}
    {adjacency : Option (κ → List (σ × Neighbour κ))} {search : Search κ σ}
    (started : (kit.completed board adjacency weighting draws showing).start.outcome = .ok search) :
    search.rules.support = .ofCatalog kit.catalog kit.pairing := by
  obtain ⟨constraints, same, catalog⟩ := Problem.exists_constraints _ started
  rw [same] at started
  have opens := Constraints.Starts.opens ⟨_, _, _, started⟩
  have pairing : kit.pairing = constraints.pairing :=
    Option.some.inj (congrArg Problem.pairing same)
  rw [opens.support, catalog, ← pairing]
  rfl

/-- With a board and its adjacency, a kit starts a search just if all candidates are tiles of the
document and each cell has one that shows the boundary's socket on all slots to the outside. -/
theorem exists_start_iff [DecidableEq τ] {document : KitDocument τ σ π}
    (weigh : ∀ entry ∈ document.tiles, entry.Weighs) (made : document.kit = .ok kit)
    {board : Board κ σ} {adjacency : κ → List (σ × Neighbour κ)} :
    (∃ search, (kit.completed (some board) (some adjacency) weighting draws
        showing).start.outcome = .ok search) ↔
      ∀ id cell, board.get? id = some cell →
        (∀ tile ∈ cell.candidates, tile < document.tiles.length) ∧
        ∃ tile ∈ cell.candidates, ∀ slot, (slot, .boundary) ∈ adjacency id →
          cell.slots.contains slot = true → ∃ entry, document.tiles[tile]? = some entry ∧
            entry.sockets.get? slot = some document.boundarySocket := by
  obtain ⟨tiles, -, boundary⟩ := KitDocument.of_kit weigh made
  have size : kit.catalog.size = document.tiles.length := by
    rw [Catalog.size, tiles, List.length_map]
  rw [completed_eq, Constraints.exists_start_iff]
  simp only [Constraints.Known, Constraints.MeetsBoundary, constraints, size, boundary,
    KitDocument.shows_of_kit weigh made, forall_and]

end Kit

/-- Of documents with weights that can be used, just those with distinct names and an opposite for
each slot are kits. A kit has the described tiles in their order. Its problem lacks only a board and
an adjacency, with which a search starts if the boundary leaves each cell a tile; and its searches
go by the opposites of the document, whatever other slots are paired with. -/
theorem kit_exact [DecidableEq τ] (document : KitDocument τ σ π)
    (weigh : ∀ entry ∈ document.tiles, entry.Weighs) :
    ((∃ kit, document.kit = .ok kit) ↔ document.ids.Nodup ∧ document.Paired) ∧
    (∀ id, document.kit = .error (.error (.catalog (.duplicateTile id))) ↔
      FirstRepeat document.ids id) ∧
    (document.kit = .error (.error .unpairedSlot) ↔ document.ids.Nodup ∧ ¬ document.Paired) ∧
    (∀ kit, document.kit = .ok kit →
      kit.catalog.tiles = document.tiles.map TileEntry.described ∧
      kit.opposites = document.opposites ∧ kit.boundarySocket = document.boundarySocket ∧
      (∀ id index, kit.catalog.indexOf? id = some index ↔ kit.catalog.idOf index = .ok id) ∧
      (kit.problem : Problem κ τ σ π) =
        { catalog := kit.catalog
          pairing := some fun slot => (document.opposites.get? slot).getD slot
          boundarySocket := some document.boundarySocket } ∧
      (∀ (board : Board κ σ) adjacency weighting draws showing,
        (∃ search, (kit.completed (some board) (some adjacency) weighting draws
            showing).start.outcome = .ok search) ↔
          ∀ id cell, board.get? id = some cell →
            (∀ tile ∈ cell.candidates, tile < document.tiles.length) ∧
            ∃ tile ∈ cell.candidates, ∀ slot, (slot, .boundary) ∈ adjacency id →
              cell.slots.contains slot = true → ∃ entry, document.tiles[tile]? = some entry ∧
                entry.sockets.get? slot = some document.boundarySocket) ∧
      (∀ board adjacency weighting draws showing (search : Search κ σ),
        (kit.completed board adjacency weighting draws showing).start.outcome = .ok search →
        ∀ index slot other,
          (∃ set, search.rules.support.across index slot = .ok set ∧ other ∈ set) ↔
            ∃ entry facing opposite socket accepted, document.tiles[index]? = some entry ∧
              document.tiles[other]? = some facing ∧
              document.opposites.get? slot = some opposite ∧
              facing.sockets.get? opposite = some socket ∧
              entry.accepted.get? slot = some accepted ∧ accepted.contains socket = true) ∧
      ∀ pairing : σ → σ,
        (∀ slot opposite, document.opposites.get? slot = some opposite →
          pairing slot = opposite) →
        Support.ofCatalog kit.catalog pairing = Support.ofCatalog kit.catalog kit.pairing ∧
        (Support.ofCatalog kit.catalog pairing).isSymmetric pairing =
          (Support.ofCatalog kit.catalog kit.pairing).isSymmetric kit.pairing) ∧
    ∀ text (read : KitDocument String String String),
      KitDocument.ofText? text = some read → Kit.ofText text = read.kit := by
  refine ⟨KitDocument.exists_kit_iff weigh, fun id => KitDocument.kit_duplicate_iff weigh,
    KitDocument.kit_unpaired_iff weigh, fun kit made => ?_, fun text read found => ?_⟩
  · obtain ⟨tiles, opposites, boundary⟩ := KitDocument.of_kit weigh made
    refine ⟨tiles, opposites, boundary, fun id index => Catalog.indexOf?_eq_some_iff,
      KitDocument.problem_of_kit weigh made, fun board adjacency weighting draws showing =>
        Kit.exists_start_iff weigh made, ?_, ?_⟩
    · intro board adjacency weighting draws showing search started index slot other
      rw [Kit.support_of_started started, Support.across_iff_meets]
      exact KitDocument.meets_of_kit weigh made
    · intro pairing agrees
      have same : ∀ tile ∈ kit.catalog.tiles, ∀ slot ∈ tile.plugs.keys,
          pairing slot = kit.pairing slot := by
        intro tile listed slot plugged
        obtain ⟨opposite, given⟩ := KitDocument.exists_opposite_of_kit weigh made listed plugged
        rw [agrees slot opposite given, KitDocument.pairing_of_kit weigh made given]
      exact ⟨Support.ofCatalog_congr same, Support.isSymmetric_congr same⟩
  · unfold Kit.ofText
    rw [found]

/-- Two tiles of one side each: the first accepts the socket of the second on the side on which it
shows nothing, and the second leaves its plugs out. -/
def sided (second : Nat) (opposites : List (Bool × Bool)) : KitDocument Nat Bool Nat where
  boundarySocket := 5
  opposites := .ofList opposites
  tiles :=
    [{ id := 0, sockets := .ofList [(false, 5)], plugs := some (.ofList [(true, .singleton 6)])
       weight := some 2 },
      { id := second, sockets := .ofList [(false, 6)] }]

/-- Two cells side by side, the first of which faces the outside too. -/
def sidedBoard : Board Nat Bool :=
  .ofCells [.ofCandidates 0 [false, true] (.full 2), .ofCandidates 1 [false] (.full 2)]

/-- What the first of the two cells looks at. -/
def sidedAdjacency (id : Nat) : List (Bool × Neighbour Nat) :=
  if id = 0 then [(false, .boundary), (true, .cell 1)] else []

private theorem weighs_sided (second : Nat) (opposites : List (Bool × Bool)) :
    ∀ entry ∈ (sided second opposites).tiles, entry.Weighs := by
  simp only [sided, List.forall_mem_cons]
  refine ⟨?_, nofun, nofun⟩
  rintro weight ⟨⟩
  decide +kernel

private theorem paired_sided (second : Nat) :
    (sided second [(true, false), (false, true)]).Paired := by
  intro entry listed slot shown
  cases slot
  · exact ⟨true, rfl⟩
  · exact ⟨false, rfl⟩

private theorem meets_sidedBoard (second : Nat) (opposites : List (Bool × Bool)) {id : Nat}
    {cell : Cell Nat Bool} (found : sidedBoard.get? id = some cell) :
    (∀ tile ∈ cell.candidates, tile < 2) ∧ ∃ tile ∈ cell.candidates, ∀ slot,
      (slot, .boundary) ∈ sidedAdjacency id → cell.slots.contains slot = true →
        ∃ entry, (sided second opposites).tiles[tile]? = some entry ∧
          entry.sockets.get? slot = some 5 := by
  have listed : (id, cell) ∈ [(0, Cell.ofCandidates 0 [false, true] (.full 2)),
    (1, Cell.ofCandidates 1 [false] (.full 2))] := Board.get?_eq_some_iff.mp found
  rcases List.mem_pair.mp listed with same | same
  · cases same
    refine ⟨fun tile => Candidates.mem_full.mp, 0, by decide, fun slot arc own => ?_⟩
    cases slot with
    | false => exact ⟨_, rfl, rfl⟩
    | true => simp [sidedAdjacency] at arc
  · cases same
    refine ⟨fun tile => Candidates.mem_full.mp, 0, by decide, fun slot arc own => ?_⟩
    cases arc

/-- With an opposite for both sides it is a kit, of which a search starts that lets the second tile
stand beside the first. A side named by a plug set alone needs an opposite too, and a repeated name
is reported before any missing one. -/
theorem kit_exact_sided :
    (∃ kit, (sided 1 [(true, false), (false, true)]).kit = .ok kit ∧
      kit.catalog.indexOf? 1 = some 1 ∧
      ∃ search, (kit.completed (some sidedBoard) (some sidedAdjacency) none (fun _ => 0)
          false).start.outcome = .ok search ∧
        ∃ set, search.rules.support.across 0 true = .ok set ∧ 1 ∈ set) ∧
    (sided 1 [(false, true)]).kit = .error (.error .unpairedSlot) ∧
    (sided 0 []).kit = .error (.error (.catalog (.duplicateTile 0))) := by
  have laws := fun second opposites =>
    kit_exact (κ := Nat) (sided second opposites) (weighs_sided second opposites)
  obtain ⟨accepts, -, -, parts, -⟩ := laws 1 [(true, false), (false, true)]
  obtain ⟨-, -, lacks, -⟩ := laws 1 [(false, true)]
  obtain ⟨-, repeats, -⟩ := laws 0 []
  have unpaired : ¬ (sided 1 [(false, true)]).Paired := by
    intro paired
    obtain ⟨opposite, given⟩ := paired _ List.mem_cons_self true (.inr (by decide))
    cases given
  obtain ⟨kit, made⟩ := accepts.mpr ⟨by decide, paired_sided 1⟩
  obtain ⟨tiles, -, -, places, -, starts, across, -⟩ := parts kit made
  obtain ⟨search, started⟩ := (starts sidedBoard sidedAdjacency none (fun _ => 0) false).mpr
    fun id cell => meets_sidedBoard 1 _
  refine ⟨⟨kit, made, (places 1 1).mpr ?_, search, started, ?_⟩, lacks.mpr ⟨by decide, unpaired⟩,
    (repeats 0).mpr ?_⟩
  · rw [Catalog.idOf_ok_iff, Catalog.tile?, tiles]
    exact ⟨_, rfl, rfl⟩
  · exact (across _ _ _ _ _ search started 0 true 1).mpr
      ⟨_, _, false, 6, _, rfl, rfl, rfl, rfl, rfl, rfl⟩
  · exact ⟨[0], [], rfl, by decide, by decide⟩

end Tiling
