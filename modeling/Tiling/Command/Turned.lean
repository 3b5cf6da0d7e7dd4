import Tiling.Command.Outcome
import Tiling.Draws.Seeded
import Tiling.Grid
import Tiling.Search.Run
import Tiling.Text.Listing

/-!
Turned tiles: covers a square grid with a few base tiles and their turns, showing every step of
the search. On each slot a tile shows whether a road leaves there.
-/

namespace Tiling.Command.Turned

/-- What the command line asks for. -/
structure Settings where
  size : Nat
  seed : Nat
  /-- Whether every step is printed. -/
  verbose : Bool

def switches : List Switch :=
  [{ name := "size", request := .number },
    { name := "seed", letter := some 's', request := .number },
    { name := "verbose", letter := some 'v', request := .flag }]

def Settings.ofArguments (arguments : List String) : Except UsageError Settings := do
  let options ← Options.ofArguments switches arguments
  return {
    size := (options.number? "size").getD 8
    seed := (options.number? "seed").getD 0
    verbose := options.has "verbose" }

/-- A tile before it is turned: its name, whether roads leave it clockwise from the north, and its
weight. -/
structure Base where
  name : String
  roads : List Bool
  weight : Float

def bases : List Base :=
  [⟨"grass", [false, false, false, false], 4⟩,
    ⟨"straight", [true, false, true, false], 1⟩,
    ⟨"bend", [true, true, false, false], 1⟩,
    ⟨"tee", [true, true, true, false], 0.5⟩,
    ⟨"cross", [true, true, true, true], 0.25⟩]

/-- A base with the number of steps by which it is turned. -/
structure Variant where
  base : Base
  steps : Nat

namespace Variant

def roads (variant : Variant) : List Bool := turn variant.steps variant.base.roads

/-- Every base in every turn that looks like none before it. -/
def all : List Variant :=
  (bases.flatMap fun base => (List.range 4).map fun steps => ⟨base, steps⟩).eraseDupsBy
    fun first second => first.roads == second.roads

def tile (variant : Variant) : Except (Failing Direction) (Tile String Direction Bool) := do
  let base := variant.base
  let tile : Tile String Direction Bool ←
    (Tile.along base.name Direction.all base.roads).mapError Failing.fault
  let tile ← (tile.withWeight base.weight).mapError Failing.fault
  (tile.turned (base.name ++ "_" ++ label variant.steps) Direction.all variant.steps).mapError .turn

end Variant

/-- The catalog of all tiles. -/
def catalog : Except (Failing Direction) (Catalog String Direction Bool) := do
  (Catalog.ofTiles (← Variant.all.mapM Variant.tile)).mapError .catalog

/-- The size of the catalog, and its tiles with their sockets. -/
def heading (catalog : Catalog String Direction Bool) : List String :=
  ("Number of tiles   : " ++ label catalog.size) ::
    catalog.tiles.map fun tile => "  " ++ padded 12 tile.id ++ " " ++ label tile.sockets

/-- The grid, which is square. -/
def Settings.grid (settings : Settings) : Grid := ⟨settings.size, settings.size⟩

/-- The problem of covering the grid; no road leads outside. -/
def Settings.problem (settings : Settings) (catalog : Catalog String Direction Bool) :
    Problem Nat String Direction Bool :=
  let grid := settings.grid
  let problem : Problem Nat String Direction Bool :=
    { catalog
      board := some (grid.board id catalog.all)
      adjacency := some fun id => grid.neighboursOf id
      pairing := some Direction.opposite
      boundarySocket := some false
      draws := .seeded settings.seed.toUInt64
      showing := true }
  problem.withCatalogWeights

/-- What is counted during a run, and the lines of its steps. -/
structure Record where
  lines : Array String := #[]
  inspections : Nat := 0
  conflicts : Nat := 0

/-- Records a step that made progress. -/
def Record.observe (record : Record) (turn : Turn Nat Direction) : Record :=
  match turn.outcome with
  | .ok (.progress snapshot) =>
    let isInspection := match snapshot.event with
      | .inspected .. => true
      | _ => false
    let hasConflict := snapshot.marks.any fun marks => marks.values.any (· = .conflict)
    { lines := record.lines.push (label snapshot.event)
      inspections := record.inspections + isInspection.toNat
      conflicts := record.conflicts + hasConflict.toNat }
  | _ => record

/-- The name of the tile on a cell, which must be collapsed. -/
def nameAt (names : SortedMap Nat String) (id : Nat) : Except Fault String :=
  match names.get? id with
  | some name => .ok name
  | none => .error .missingKey

/-- The rows of the grid, by the names of their tiles. -/
def picture (settings : Settings) (catalog : Catalog String Direction Bool)
    (board : Board Nat Direction) : Except Fault (List String) := do
  let names := SortedMap.ofList (← board.resolve catalog)
  settings.grid.rows.mapM fun row =>
    (row.mapM (nameAt names)).map fun names => " ".intercalate (names.map (padded 11))

def tallyLine (tally : Tally) (record : Record) : String :=
  "Collapses: " ++ label tally.collapses ++ "  Updates: " ++ label tally.updates ++
    "  Rollbacks: " ++ label tally.rollbacks ++ "  Inspections: " ++ label record.inspections ++
    "  Conflicts: " ++ label record.conflicts

/-- Covers the grid and lists the tiles on it. -/
def Settings.cover (settings : Settings) (catalog : Catalog String Direction Bool) :
    Outcome Direction :=
  .onward (settings.grid.check.mapError .fault) fun () =>
    .onward ((settings.problem catalog).start.outcome.mapError .ofProblem) fun search =>
      match search.follow Record.observe search.stepBound {} with
      | none => ⟨[], .error .overrun⟩
      | some (record, turn) =>
        Outcome.after
          (.onward (turn.outcome.mapError .ofSearch) fun step =>
            .onward ((picture settings catalog step.snapshot.position.board).mapError .fault)
              fun rows => .ok (rows ++ [tallyLine turn.after.tally record]))
          (if settings.verbose then record.lines.toList else [])

/-- The program. -/
def run (arguments : List String) : Outcome Direction :=
  .onward ((Settings.ofArguments arguments).mapError .usage) fun settings =>
    .onward catalog fun catalog => (settings.cover catalog).after (heading catalog)

end Tiling.Command.Turned
