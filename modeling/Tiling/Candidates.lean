import Tiling.Fault

/-!
Sets of candidate tiles. A set is a capacity and a number read bit by bit: tile `i` is a member
when bit `i` is set, and every member lies below the capacity. Two sets are equal when both
capacity and members agree. The view of a set is `∈`; each operation has one lemma about it.
-/

namespace Tiling

/-- A set of tile indices below a capacity. -/
structure Candidates where
  capacity : Nat
  bits : Nat
  lt_of_testBit : ∀ tile, bits.testBit tile = true → tile < capacity
deriving DecidableEq

namespace Candidates

theorem testBit_or_one_shiftLeft {bits place other : Nat} :
    (bits ||| 1 <<< place).testBit other = true ↔ bits.testBit other = true ∨ other = place := by
  rw [Nat.one_shiftLeft, Nat.testBit_or, Nat.testBit_two_pow, Bool.or_eq_true,
    decide_eq_true_eq, eq_comm (a := place)]

theorem testBit_xor_and {first second place : Nat} :
    (first ^^^ (first &&& second)).testBit place =
      (first.testBit place && !second.testBit place) := by
  rw [Nat.testBit_xor, Nat.testBit_and]
  cases first.testBit place <;> cases second.testBit place <;> rfl

instance : Membership Nat Candidates := ⟨fun set tile => set.bits.testBit tile = true⟩

instance (tile : Nat) (set : Candidates) : Decidable (tile ∈ set) :=
  inferInstanceAs (Decidable (set.bits.testBit tile = true))

theorem mem_def {tile : Nat} {set : Candidates} :
    tile ∈ set ↔ set.bits.testBit tile = true := Iff.rfl

theorem lt_capacity {tile : Nat} {set : Candidates} (member : tile ∈ set) :
    tile < set.capacity := set.lt_of_testBit tile member

def empty (capacity : Nat) : Candidates := ⟨capacity, 0, fun tile set => by simp at set⟩

instance : Inhabited Candidates := ⟨empty 0⟩

/-- Every index below the capacity. -/
def full (capacity : Nat) : Candidates :=
  ⟨capacity, (1 <<< capacity) - 1, fun tile set => by
    simpa [Nat.one_shiftLeft, Nat.testBit_two_pow_sub_one] using set⟩

/-- The same members under a capacity that is at least the given one. -/
def grow (set : Candidates) (capacity : Nat) : Candidates :=
  ⟨max set.capacity capacity, set.bits, fun tile member =>
    Nat.lt_of_lt_of_le (set.lt_of_testBit tile member) (Nat.le_max_left ..)⟩

/-- Adds an index, raising the capacity where that is needed. -/
def insert (set : Candidates) (tile : Nat) : Candidates :=
  ⟨max set.capacity (tile + 1), set.bits ||| 1 <<< tile, fun other member => by
    rcases testBit_or_one_shiftLeft.mp member with member | same
    · exact Nat.lt_of_lt_of_le (set.lt_of_testBit other member) (Nat.le_max_left ..)
    · exact same ▸ Nat.le_max_right ..⟩

/-- Members of either set, under the larger capacity. -/
def union (first second : Candidates) : Candidates :=
  ⟨max first.capacity second.capacity, first.bits ||| second.bits, fun tile member => by
    rw [Nat.testBit_or, Bool.or_eq_true] at member
    rcases member with member | member
    · exact Nat.lt_of_lt_of_le (first.lt_of_testBit tile member) (Nat.le_max_left ..)
    · exact Nat.lt_of_lt_of_le (second.lt_of_testBit tile member) (Nat.le_max_right ..)⟩

/-- Members of the first set that are in the second, under the first one's capacity. -/
def inter (first second : Candidates) : Candidates :=
  ⟨first.capacity, first.bits &&& second.bits, fun tile member => by
    rw [Nat.testBit_and, Bool.and_eq_true] at member
    exact first.lt_of_testBit tile member.1⟩

/-- Members of the first set that are not in the second, under the first one's capacity. -/
def diff (first second : Candidates) : Candidates :=
  ⟨first.capacity, first.bits ^^^ (first.bits &&& second.bits), fun tile member => by
    rw [testBit_xor_and, Bool.and_eq_true] at member
    exact first.lt_of_testBit tile member.1⟩

/-- Adds an index that must lie below the capacity. -/
def insertBelow (set : Candidates) (tile : Nat) : Except Fault Candidates :=
  if tile < set.capacity then .ok (set.insert tile)
  else .error (.beyondCapacity tile set.capacity)

/-- The members in ascending order. -/
def toList (set : Candidates) : List Nat :=
  (List.range set.capacity).filter fun tile => set.bits.testBit tile

def count (set : Candidates) : Nat := set.toList.length

/-- The least member. -/
def first? (set : Candidates) : Option Nat := set.toList.head?

/-- Whether every member is in the other set. -/
def isSubset (first second : Candidates) : Bool := first.bits &&& second.bits == first.bits

def ofList (capacity : Nat) (members : List Nat) : Candidates :=
  members.foldl insert (empty capacity)

@[simp] theorem mem_toList {tile : Nat} {set : Candidates} : tile ∈ set.toList ↔ tile ∈ set := by
  simp only [toList, List.mem_filter, List.mem_range, mem_def]
  exact ⟨fun found => found.2, fun member => ⟨lt_capacity member, member⟩⟩

@[simp] theorem not_mem_empty {tile capacity : Nat} : tile ∉ empty capacity := by
  simp [mem_def, empty]

@[simp] theorem mem_full {tile capacity : Nat} : tile ∈ full capacity ↔ tile < capacity := by
  simp [mem_def, full, Nat.one_shiftLeft, Nat.testBit_two_pow_sub_one]

@[simp] theorem mem_grow {tile capacity : Nat} {set : Candidates} :
    tile ∈ set.grow capacity ↔ tile ∈ set := Iff.rfl

@[simp] theorem mem_insert {tile added : Nat} {set : Candidates} :
    tile ∈ set.insert added ↔ tile ∈ set ∨ tile = added :=
  testBit_or_one_shiftLeft

@[simp] theorem mem_union {tile : Nat} {first second : Candidates} :
    tile ∈ first.union second ↔ tile ∈ first ∨ tile ∈ second := by
  simp [mem_def, union]

@[simp] theorem mem_inter {tile : Nat} {first second : Candidates} :
    tile ∈ first.inter second ↔ tile ∈ first ∧ tile ∈ second := by
  simp [mem_def, inter]

@[simp] theorem mem_diff {tile : Nat} {first second : Candidates} :
    tile ∈ first.diff second ↔ tile ∈ first ∧ tile ∉ second := by
  simp [mem_def, diff]

theorem nodup_toList (set : Candidates) : set.toList.Nodup :=
  List.Pairwise.filter _ List.nodup_range

theorem ascending_toList (set : Candidates) : set.toList.Pairwise (· < ·) :=
  List.Pairwise.filter _ List.pairwise_lt_range

theorem eq_of_mem_iff {first second : Candidates} (capacity : first.capacity = second.capacity)
    (same : ∀ tile, tile ∈ first ↔ tile ∈ second) : first = second := by
  have bits : first.bits = second.bits :=
    Nat.eq_of_testBit_eq fun tile => Bool.eq_iff_iff.mpr (same tile)
  cases first
  cases second
  subst capacity bits
  rfl

theorem count_eq_zero_iff {set : Candidates} : set.count = 0 ↔ ∀ tile, tile ∉ set := by
  rw [count, List.length_eq_zero_iff, List.eq_nil_iff_forall_not_mem]
  simp only [mem_toList]

theorem count_ne_zero_of_mem {set : Candidates} {tile : Nat} (member : tile ∈ set) :
    set.count ≠ 0 := by
  intro empty
  exact count_eq_zero_iff.mp empty tile member

theorem count_eq_one_iff {set : Candidates} :
    set.count = 1 ↔ ∃ only, ∀ tile, tile ∈ set ↔ tile = only := by
  constructor
  · intro single
    obtain ⟨only, listed⟩ := List.length_eq_one_iff.mp single
    exact ⟨only, fun tile => by rw [← mem_toList, listed, List.mem_singleton]⟩
  · rintro ⟨only, members⟩
    have nodup := set.nodup_toList
    have members : ∀ tile, tile ∈ set.toList ↔ tile = only := fun tile =>
      mem_toList.trans (members tile)
    unfold count
    generalize set.toList = tiles at nodup members
    match tiles with
    | [] => simpa using members only
    | [_] => rfl
    | first :: second :: rest =>
      have same : first = second :=
        ((members first).mp (by simp)).trans ((members second).mp (by simp)).symm
      simp [same] at nodup

theorem count_lt_of_subset {first second : Candidates} {tile : Nat}
    (within : ∀ tile ∈ first, tile ∈ second) (absent : tile ∉ first) (member : tile ∈ second) :
    first.count < second.count := by
  have nodup : (tile :: first.toList).Nodup :=
    List.nodup_cons.mpr ⟨fun listed => absent (mem_toList.mp listed), first.nodup_toList⟩
  refine nodup.length_le_of_subset fun other listed => mem_toList.mpr ?_
  rcases List.mem_cons.mp listed with same | listed
  · exact same ▸ member
  · exact within other (mem_toList.mp listed)

theorem count_le_of_subset {first second : Candidates} (within : ∀ tile ∈ first, tile ∈ second) :
    first.count ≤ second.count :=
  first.nodup_toList.length_le_of_subset fun tile listed =>
    mem_toList.mpr (within tile (mem_toList.mp listed))

theorem count_le_of_lt {set : Candidates} {bound : Nat} (below : ∀ tile ∈ set, tile < bound) :
    set.count ≤ bound := by
  have within : set.toList ⊆ List.range bound := fun tile listed =>
    List.mem_range.mpr (below tile (mem_toList.mp listed))
  simpa [count] using set.nodup_toList.length_le_of_subset within

theorem count_insert_grow {set : Candidates} {tile : Nat} (capacity : Nat) (fresh : tile ∉ set) :
    ((set.grow capacity).insert tile).count = set.count + 1 := by
  have more : set.count < ((set.grow capacity).insert tile).count :=
    count_lt_of_subset (fun _ member => by simp [member]) fresh (by simp)
  have within : ((set.grow capacity).insert tile).toList ⊆ tile :: set.toList := by
    intro other listed
    rcases mem_insert.mp (mem_toList.mp listed) with member | same
    · exact List.mem_cons_of_mem _ (mem_toList.mpr member)
    · simp [same]
  exact Nat.le_antisymm (nodup_toList _ |>.length_le_of_subset within) more

@[simp] theorem count_empty (capacity : Nat) : (empty capacity).count = 0 :=
  count_eq_zero_iff.mpr fun _ => not_mem_empty

theorem mem_of_insertBelow_empty {capacity tile : Nat} {set : Candidates}
    (inserted : (empty capacity).insertBelow tile = .ok set) (other : Nat) :
    other ∈ set ↔ other = tile := by
  unfold insertBelow at inserted
  split at inserted
  · cases inserted; simp
  · cases inserted

theorem isSubset_iff {first second : Candidates} :
    first.isSubset second = true ↔ ∀ tile ∈ first, tile ∈ second := by
  simp only [isSubset, beq_iff_eq, mem_def]
  constructor
  · intro same tile member
    have both := congrArg (·.testBit tile) same
    simp only [Nat.testBit_and, member, Bool.true_and] at both
    exact both
  · intro within
    refine Nat.eq_of_testBit_eq fun tile => ?_
    rw [Nat.testBit_and]
    cases hit : first.bits.testBit tile
    · rfl
    · simp [within tile hit]

theorem exists_mem_of_count_ne_zero {set : Candidates} (nonempty : set.count ≠ 0) :
    ∃ tile, tile ∈ set := by
  cases listed : set.toList with
  | nil => exact absurd (by simp [count, listed]) nonempty
  | cons tile rest => exact ⟨tile, mem_toList.mp (by simp [listed])⟩

theorem exists_mem_of_not_isSubset {first second : Candidates}
    (beyond : ¬first.isSubset second = true) : ∃ tile ∈ first, tile ∉ second := by
  simpa [isSubset_iff, Classical.not_forall] using beyond

end Candidates

end Tiling
