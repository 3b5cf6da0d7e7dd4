/-!
Faults: calls that break the contract of an operation. A fault is no answer about a problem but
a mistake in the call, and it ends the conversation in which it occurs.
-/

namespace Tiling

/-- A broken contract. -/
inductive Fault where
  /-- A tile weight below zero, or one that is not a number. -/
  | negativeWeight
  /-- A tile laid out along an empty list of slots. -/
  | noSlots
  /-- A document asked for at a path that holds no file. -/
  | notAFile
  /-- A position past the end of a list. -/
  | position (index size : Nat)
  /-- The weight of a tile past the end of the catalog. -/
  | weightPosition (index size : Nat)
  /-- A cell that a board or its entropy does not hold, taken as if it were there. -/
  | missingKey
  /-- A cell settled on a tile that is not among its candidates. -/
  | notACandidate
  /-- A cell narrowed to a set that is not within its candidates. -/
  | notNarrower
  /-- A choice among no tiles. -/
  | noOptions
  /-- A member added to a set at or past its capacity. -/
  | beyondCapacity (index capacity : Nat)
  /-- A grid with lengths whose product is past all numbers of cells. -/
  | gridTooLarge (height width : Nat)
  /-- A grid with more cells than memory has numbers for. -/
  | outOfMemory
deriving DecidableEq, Inhabited

namespace Fault

def message : Fault → String
  | negativeWeight => "Tile weight must not be negative"
  | noSlots => "A tile needs at least one slot"
  | notAFile => "Path must be a file"
  | position index size =>
    s!"index out of bounds: the len is {size} but the index is {index}"
  | weightPosition index size => s!"Index out of bounds: {index} >= {size}"
  | missingKey => "OrdMap::index: invalid key"
  | notACandidate => "Tile must be a candidate"
  | notNarrower => "Candidates may only shrink"
  | noOptions => "Options must not be empty"
  | beyondCapacity index capacity =>
    s!"member {index} is beyond the capacity {capacity}"
  | gridTooLarge height width =>
    "ndarray: Shape too large, product of non-zero axis lengths overflows isize in shape " ++
      s!"[{height}, {width}]"
  | outOfMemory => "capacity overflow"

end Fault

end Tiling
