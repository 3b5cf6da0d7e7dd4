import Tiling.Proofs.Entropy
import Tiling.Proofs.TotalOrder

/-!
The choice of the cell to settle next. Scores are doubles of any bits. No cell is chosen exactly if
all scores equal one; otherwise it is the cell whose score is the least of the others in the total
order, and of several with the same score the first.
-/

namespace Tiling

variable {κ : Type} [Key κ]

namespace Entropy

omit [Key κ] in
/-- What stands before the chosen entry is larger, and what stands after it is no smaller. -/
theorem exists_split_of_least? {entries : List (κ × UInt64)} {entry : κ × UInt64}
    (least : least? entries = some entry) :
    ∃ before after, entries = before ++ entry :: after ∧
      (∀ other ∈ before, Decimal.place entry.2 < Decimal.place other.2) ∧
      ∀ other ∈ after, Decimal.place entry.2 ≤ Decimal.place other.2 := by
  induction entries generalizing entry with
  | nil => cases least
  | cons head rest ih =>
    unfold least? at least
    cases found : least? rest with
    | none =>
      rw [found] at least
      cases least
      rw [least?_eq_none_iff.mp found]
      exact ⟨[], [], rfl, List.forall_mem_nil _, List.forall_mem_nil _⟩
    | some best =>
      obtain ⟨before, after, split, larger, noSmaller⟩ := ih found
      simp only [found] at least
      split at least
      · rename_i lower
        cases least
        refine ⟨[], rest, rfl, List.forall_mem_nil _, fun other listed => ?_⟩
        rw [split] at listed
        rcases List.mem_append.mp listed with listed | listed
        · exact lower.trans (larger other listed).le
        · rcases List.mem_cons.mp listed with rfl | listed
          · exact lower
          · exact lower.trans (noSmaller other listed)
      · rename_i higher
        cases least
        refine ⟨head :: before, after, by rw [split]; rfl, ?_, noSmaller⟩
        exact List.forall_mem_cons.mpr ⟨Int.not_le.mp higher, larger⟩

/-- The key has the first of the least doubles, in the total order, among those that do not equal
one. -/
def IsLowest (scores : κ → Option UInt64) (id : κ) : Prop :=
  ∃ score, scores id = some score ∧ (Float.ofBits score == 1) = false ∧
    ∀ other value, scores other = some value → (Float.ofBits value == 1) = false →
      other ≠ id →
      Decimal.Precedes score value ∨ score = value ∧ compare id other = .lt

/-- What is chosen of the doubles that keys have, given by their bits: nothing if they all equal
one, and otherwise the key of the first of the least others. -/
structure Chooses (scores : κ → Option UInt64) (chosen : Option κ) : Prop where
  none_iff : chosen = none ↔
    ∀ id score, scores id = some score → (Float.ofBits score == 1) = true
  some_iff : ∀ id, chosen = some id ↔ IsLowest scores id

section Lowest

variable {scores : SortedMap κ UInt64} {id : κ}

theorem isLowest_of_lowestOf? (lowest : lowestOf? scores = some id) : IsLowest scores.get? id := by
  obtain ⟨⟨id, score⟩, least, rfl⟩ := Option.map_eq_some_iff.mp lowest
  obtain ⟨held, differs⟩ := mem_undecided_iff.mp (mem_of_least? least)
  obtain ⟨before, after, split, larger, noSmaller⟩ := exists_split_of_least? least
  have ascending := scores.ascending.filter fun entry => Float.ofBits entry.2 != decided
  rw [split] at ascending
  refine ⟨score, held, differs, fun other value held' differs' apart => ?_⟩
  have listed := mem_undecided_iff.mpr ⟨held', differs'⟩
  rw [split] at listed
  rcases List.mem_append.mp listed with listed | listed
  · exact .inl (Decimal.precedes_iff.mpr (larger _ listed))
  · rcases List.mem_cons.mp listed with same | listed
    · cases same
      exact absurd rfl apart
    · have later := (List.pairwise_cons.mp (List.pairwise_append.mp ascending).2.1).1 _ listed
      rcases (noSmaller _ listed).lt_or_eq with less | same
      · exact .inl (Decimal.precedes_iff.mpr less)
      · exact .inr ⟨Decimal.place_injective same, later⟩

theorem IsLowest.unique {doubles : κ → Option UInt64} {id' : κ} (lowest : IsLowest doubles id)
    (lowest' : IsLowest doubles id') :
    id = id' := by
  obtain ⟨score, held, differs, first⟩ := lowest
  obtain ⟨score', held', differs', first'⟩ := lowest'
  by_contra apart
  have before := first id' score' held' differs' (Ne.symm apart)
  have before' := first' id score held differs apart
  rw [Decimal.precedes_iff] at before before'
  rcases before with less | ⟨rfl, earlier⟩
  · rcases before' with less' | ⟨rfl, -⟩
    · exact lt_asymm less less'
    · exact lt_irrefl _ less
  · rcases before' with less' | ⟨-, earlier'⟩
    · exact lt_irrefl _ less'
    · have later := Std.OrientedCmp.gt_of_lt earlier'
      rw [earlier] at later
      cases later

theorem lowestOf?_eq_some_iff : lowestOf? scores = some id ↔ IsLowest scores.get? id := by
  refine ⟨isLowest_of_lowestOf?, fun lowest => ?_⟩
  cases found : lowestOf? scores with
  | none =>
    obtain ⟨score, held, differs, -⟩ := lowest
    have equal := lowestOf?_eq_none_iff.mp found id score held
    exact absurd equal (Bool.not_eq_true _ ▸ differs)
  | some other => rw [(isLowest_of_lowestOf? found).unique lowest]

end Lowest

/-- Of doubles of any bits, also those of no numbers under either sign, the choice is the first of
the least ones other than one. The cell to settle next is chosen in this way by its score. -/
theorem lowest_exact :
    (∀ scores : SortedMap κ UInt64, Chooses scores.get? (lowestOf? scores)) ∧
      ∀ entropy : Entropy κ,
        Chooses (fun id => (entropy.get? id).map Float.toBits) entropy.lowest? := by
  have chooses : ∀ scores : SortedMap κ UInt64, Chooses scores.get? (lowestOf? scores) :=
    fun scores =>
      { none_iff := lowestOf?_eq_none_iff
        some_iff := fun _ => lowestOf?_eq_some_iff }
  refine ⟨chooses, fun entropy => ?_⟩
  have held : (fun id => (entropy.get? id).map Float.toBits) = entropy.bits.get? :=
    funext fun id => (get?_bits entropy id).symm
  rw [held]
  exact chooses entropy.bits

/-- What is no number under a minus lies below minus infinity, and can be chosen. -/
example :
    lowestOf? (.ofList [(0, (1.0 : Float).toBits), (1, 0x7ff8000000000000), (2, 0xfff0000000000000),
      (3, 0xfff8000000000000), (4, 0xfff8000000000000)]) = some 3 := by
  decide +kernel

end Entropy

end Tiling
