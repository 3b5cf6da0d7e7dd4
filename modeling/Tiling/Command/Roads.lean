import Tiling.Command.Outcome
import Tiling.Draws.Seeded
import Tiling.Grid
import Tiling.Meter
import Tiling.Text.Listing

/-!
Roads: covers a grid with the tiles of a catalog file and draws the roads on them. The slots of
the tiles are named `n`, `e`, `s` and `w`, and a road is what shows the socket `r`.
-/

namespace Tiling.Command.Roads

/-- What the command line asks for. -/
structure Settings where
  catalog : String
  grid : Grid
  /-- Without a seed every draw is zero. -/
  seed : Option Nat
  weighted : Bool
  metered : Bool
  /-- Whether every step is printed. -/
  showing : Bool
  verbose : Bool

def switches : List Switch :=
  [{ name := "catalog", letter := some 'c', request := .path },
    { name := "width", request := .number },
    { name := "height", request := .number },
    { name := "seed", letter := some 's', request := .number },
    { name := "weighted", letter := some 'w', request := .flag },
    { name := "progress", letter := some 'p', request := .flag },
    { name := "debug", letter := some 'd', request := .flag },
    { name := "verbose", letter := some 'v', request := .flag }]

def Settings.ofArguments (arguments : List String) : Except UsageError Settings := do
  let options ← Options.ofArguments switches arguments
  return {
    catalog := ← options.path "catalog"
    grid :=
      { height := (options.number? "height").getD 12, width := (options.number? "width").getD 24 }
    seed := options.number? "seed"
    weighted := options.has "weighted"
    metered := options.has "progress"
    showing := options.has "debug"
    verbose := options.has "verbose" }

/-- The problem of covering the grid. -/
def Settings.problem (settings : Settings) (kit : Kit String String String) :
    Problem Nat String String String :=
  let table := settings.grid.table
  let problem : Problem Nat String String String :=
    { kit.problem with
      board := some (settings.grid.board Direction.name kit.catalog.all)
      adjacency := some fun id => Grid.named Direction.name (table.getD id [])
      draws := match settings.seed with
        | some seed => .seeded seed.toUInt64
        | none => fun _ => 0
      showing := settings.showing }
  if settings.weighted then problem.withCatalogWeights else problem

/-- How the roads of a tile look, by whether one leaves to the north, east, south and west. -/
def glyph : Bool → Bool → Bool → Bool → Char
  | false, false, false, false => '.'
  | true, false, true, false => '│'
  | false, true, false, true => '─'
  | true, true, false, false => '└'
  | false, true, true, false => '┌'
  | false, false, true, true => '┐'
  | true, false, false, true => '┘'
  | true, true, true, false => '├'
  | false, true, true, true => '┬'
  | true, false, true, true => '┤'
  | true, true, false, true => '┴'
  | true, true, true, true => '┼'
  | _, _, _, _ => '•'

def glyphOf (tile : Tile String String String) : Char :=
  let isRoad (direction : Direction) : Bool := tile.socket? direction.name = some "r"
  glyph (isRoad .north) (isRoad .east) (isRoad .south) (isRoad .west)

/-- The glyph of the tile on a cell, which must be collapsed. -/
def glyphAt (kit : Kit String String String) (board : Board Nat String) (id : Nat) :
    Except Fault Char := do
  match (← board.get id).tile? with
  | some index => return glyphOf (← kit.catalog.tile index)
  | none => .error .missingKey

/-- The rows of the grid, drawn. -/
def picture (settings : Settings) (kit : Kit String String String) (board : Board Nat String) :
    Except Fault (List String) :=
  settings.grid.rows.mapM fun row => (row.mapM (glyphAt kit board)).map String.ofList

/-- The line of a step: what it did, and the marked cells. -/
def stepLine (snapshot : Snapshot Nat String) : String :=
  let marked : List (Nat × Mark) := match snapshot.marks with
    | some marks => marks.entries.filter fun (_, mark) => mark ≠ .plain
    | none => []
  padded 40 (label snapshot.event) ++ " " ++
    " ".intercalate (marked.map fun (cell, mark) => label cell ++ ":" ++ mark.caption)

/-- Adds the line of a step that made progress. -/
def observeLine (lines : Array String) (turn : Turn Nat String) : Array String :=
  match turn.outcome with
  | .ok (.progress snapshot) => lines.push (stepLine snapshot)
  | _ => lines

/-- Runs a search to its end: the lines printed on the way, and the last turn. -/
def Settings.run? (settings : Settings) (search : Search Nat String) :
    Option (List String × Turn Nat String) :=
  if settings.showing then
    (search.follow observeLine search.stepBound #[]).map fun (lines, turn) => (lines.toList, turn)
  else if settings.metered then
    search.runMetered.map fun ((meter, _), turn) => (meter.closing, turn)
  else search.run.map fun (_, turn) => ([], turn)

def tallyLine (tally : Tally) : String :=
  "Collapses: " ++ label tally.collapses ++ "  Updates: " ++ label tally.updates ++
    "  Rollbacks: " ++ label tally.rollbacks

/-- Covers the grid and draws it. -/
def Settings.cover (settings : Settings) (kit : Kit String String String) : Outcome String :=
  .onward (settings.grid.check.mapError .fault) fun () =>
    .onward ((settings.problem kit).start.outcome.mapError .ofProblem) fun search =>
      match settings.run? search with
      | none => ⟨[], .error .overrun⟩
      | some (lines, turn) =>
        Outcome.after
          (.onward (turn.outcome.mapError .ofSearch) fun step =>
            .onward ((picture settings kit step.snapshot.position.board).mapError .fault)
              fun rows => .ok (rows ++ [tallyLine turn.after.tally]))
          lines

/-- The settings, as they are printed. -/
def Settings.heading (settings : Settings) : List String :=
  ["Catalog           : " ++ settings.catalog,
    "Resolution        : " ++ label settings.grid.width ++ "x" ++ label settings.grid.height,
    "Seed              : " ++ label settings.seed]

/-- The program, with the bytes of files by path. -/
def run (file? : String → Option ByteArray) (arguments : List String) : Outcome String :=
  .onward ((Settings.ofArguments arguments).mapError .usage) fun settings =>
    let inform (lines : List String) : List String := if settings.verbose then lines else []
    let loaded := Kit.ofFile (file? settings.catalog)
    Outcome.after
      (.onward (loaded.mapError (.ofLoad settings.catalog)) fun kit =>
        (settings.cover kit).after
          (inform ["Number of tiles   : " ++ label kit.catalog.size]))
      (inform settings.heading)

end Tiling.Command.Roads
