/-!
Blocks: how keys that are added in ascending order come to lie in a search tree. A block holds up
to 64 keys. When one more is added, the first 32 stay, the next one rises to the block above, and
the others go on in a block of their own. Where one key is changed, its block is written anew, and
so are the blocks above; `span` says which keys have a part in that for a given block.
-/

namespace Tiling.Blocks

/-- How many keys stay in a block that is divided. -/
def kept : Nat := 32

/-- How many of so many keys lie above the lowest blocks. -/
def risen (count : Nat) : Nat := (count - kept) / (kept + 1)

theorem risen_lt {count : Nat} (rises : 0 < risen count) : risen count < count := by
  simp only [risen, kept] at *
  omega

/-- The places of the keys that lie in the block of a given key or below it: the first place, and
the first one after the last. -/
def span (count place : Nat) : Nat × Nat :=
  let block := place / (kept + 1)
  if _above : place % (kept + 1) = kept ∧ block < risen count then
    let (first, last) := span (risen count) block
    (first * (kept + 1), if last = risen count then count else last * (kept + 1) + kept)
  else
    let block := min block (risen count)
    (block * (kept + 1), if block = risen count then count else block * (kept + 1) + kept)
termination_by count
decreasing_by exact risen_lt (Nat.lt_of_le_of_lt (Nat.zero_le _) _above.2)

end Tiling.Blocks
