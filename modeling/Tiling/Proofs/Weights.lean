import Tiling.Proofs.Magnitudes
import Tiling.Search.Choice

/-!
Choice by weight. The scaled draw falls into the stretch of an option of positive weight, as long as
it is less than the total. Rounding may carry it to the total, and then the last option is taken
whatever its weight.
-/

namespace Tiling

open Rounding

namespace Choice

/-- The options with their weights as they count. -/
def counted (weight : Nat → Float) (options : List Nat) : List (Nat × Float) :=
  options.map fun option => (option, effective (weight option))

/-- The weights of the options, as they count, added up from the first on. -/
def total (weight : Nat → Float) (options : List Nat) : Float :=
  options.foldl (fun sum option => sum + effective (weight option)) 0

theorem exists_effective (weight : Float) :
    ∃ size, Measures (effective weight) size ∧ (0 < size ↔ 0 < weight) := by
  unfold effective
  split
  · rename_i positive
    obtain ⟨size, measures⟩ := Measures.exists_of_nonneg (nonneg_of_pos positive)
    exact ⟨size, measures, by rw [← measures_zero.lt_iff measures]⟩
  · rename_i none
    exact ⟨0, measures_zero, by simp [none]⟩

section Scan

variable {threshold running : Float} {size : WithTop ℚ} {weights : List (Nat × Float)}

theorem exists_foldl (measures : Measures running size)
    (sized : ∀ entry ∈ weights, ∃ size, Measures entry.2 size) :
    ∃ final, Measures (weights.foldl (fun sum entry => sum + entry.2) running) final ∧
      size ≤ final ∧ ∀ entry ∈ weights, 0 < entry.2 → 0 < final := by
  induction weights generalizing running size with
  | nil => exact ⟨size, measures, le_rfl, by simp⟩
  | cons head rest ih =>
    obtain ⟨step, measured⟩ := sized head List.mem_cons_self
    obtain ⟨sum, added, least, above⟩ := measures.exists_add measured
    obtain ⟨final, totalled, most, positive⟩ :=
      ih added fun entry member => sized entry (List.mem_cons_of_mem _ member)
    refine ⟨final, totalled, least.trans most, ?_⟩
    intro entry member weighs
    rcases List.mem_cons.mp member with rfl | member
    · exact ((measures_zero.lt_iff measured).mp weighs).trans_le (above.trans most)
    · exact positive entry member weighs

/-- An option at which the running total exceeds the threshold has a positive weight. -/
theorem pos_of_firstAbove? (compares : Compares threshold) (measures : Measures running size)
    (sized : ∀ entry ∈ weights, ∃ size, Measures entry.2 size) (under : ¬ threshold < running)
    {option : Nat} (found : firstAbove? threshold running weights = some option) :
    ∃ weight, (option, weight) ∈ weights ∧ 0 < weight := by
  induction weights generalizing running size with
  | nil => cases found
  | cons head rest ih =>
    obtain ⟨step, measured⟩ := sized head List.mem_cons_self
    unfold firstAbove? at found
    split at found
    · rename_i passed
      cases found
      refine ⟨head.2, List.mem_cons_self, ?_⟩
      by_contra none
      rw [measures_zero.lt_iff measured, measured.nonneg.not_lt_iff_eq'] at none
      subst none
      exact under (compares.lt_of_le (measures.add_zero measured) measures le_rfl passed)
    · rename_i still
      obtain ⟨sum, added, -, -⟩ := measures.exists_add measured
      obtain ⟨weight, member, positive⟩ :=
        ih added (fun entry member => sized entry (List.mem_cons_of_mem _ member)) still found
      exact ⟨weight, List.mem_cons_of_mem _ member, positive⟩

theorem firstAbove?_eq_none_iff (compares : Compares threshold) (measures : Measures running size)
    (sized : ∀ entry ∈ weights, ∃ size, Measures entry.2 size) (under : ¬ threshold < running) :
    firstAbove? threshold running weights = none ↔
      ¬ threshold < weights.foldl (fun sum entry => sum + entry.2) running := by
  induction weights generalizing running size with
  | nil => simp [firstAbove?, under]
  | cons head rest ih =>
    obtain ⟨step, measured⟩ := sized head List.mem_cons_self
    obtain ⟨sum, added, -, -⟩ := measures.exists_add measured
    have sized' : ∀ entry ∈ rest, ∃ size, Measures entry.2 size :=
      fun entry member => sized entry (List.mem_cons_of_mem _ member)
    unfold firstAbove?
    rw [List.foldl_cons]
    split
    · rename_i passed
      obtain ⟨final, totalled, most, -⟩ := exists_foldl added sized'
      simp [compares.lt_of_le added totalled most passed]
    · rename_i still
      exact ih added sized' still

end Scan

section Weighted

variable {weight : Nat → Float} {options : List Nat}

theorem foldl_counted :
    (counted weight options).foldl (fun sum entry => sum + entry.2) 0 = total weight options :=
  List.foldl_map

theorem exists_counted (weight : Nat → Float) (options : List Nat) :
    ∀ entry ∈ counted weight options, ∃ size, Measures entry.2 size := by
  intro entry member
  obtain ⟨option, -, rfl⟩ := List.mem_map.mp member
  obtain ⟨size, measures, -⟩ := exists_effective (weight option)
  exact ⟨size, measures⟩

theorem pos_of_mem_counted {option : Nat} {number : Float} (positive : 0 < number)
    (member : (option, number) ∈ counted weight options) : 0 < weight option := by
  obtain ⟨_, -, same⟩ := List.mem_map.mp member
  cases same
  obtain ⟨size, measures, weighs⟩ := exists_effective (weight option)
  exact weighs.mp ((measures_zero.lt_iff measures).mp positive)

/-- The total has a size, and with a positive weight it is positive. -/
theorem exists_total (available : ∃ option ∈ options, 0 < weight option) :
    ∃ size, Measures (total weight options) size ∧ 0 < size := by
  obtain ⟨option, member, positive⟩ := available
  obtain ⟨size, measures, weighs⟩ := exists_effective (weight option)
  obtain ⟨final, totalled, -, above⟩ := exists_foldl measures_zero (exists_counted weight options)
  rw [foldl_counted] at totalled
  refine ⟨final, totalled, above _ (List.mem_map_of_mem member) ?_⟩
  rw [measures_zero.lt_iff measures]
  exact weighs.mpr positive

/-- If the scaled draw is less than the total, an option of positive weight is taken, and else the
last one. -/
theorem weighted_spec (available : ∃ option ∈ options, 0 < weight option) {draw : Float}
    (least : 0 ≤ draw) (less : draw < 1) (last : Nat) :
    (draw * total weight options < total weight options →
      0 < weight (weighted draw (total weight options) (counted weight options) last)) ∧
    (¬ draw * total weight options < total weight options →
      weighted draw (total weight options) (counted weight options) last = last) := by
  obtain ⟨size, totalled, -⟩ := exists_total available
  have compares := compares_mul least less totalled
  have start := compares.not_lt_zero measures_zero
  have sized := exists_counted weight options
  have none_iff := firstAbove?_eq_none_iff compares measures_zero sized start
  rw [foldl_counted] at none_iff
  unfold weighted
  cases found : firstAbove? (draw * total weight options) 0 (counted weight options) with
  | none =>
    rw [found] at none_iff
    exact ⟨fun below => absurd below (none_iff.mp rfl), fun _ => rfl⟩
  | some option =>
    rw [found] at none_iff
    obtain ⟨number, member, positive⟩ :=
      pos_of_firstAbove? compares measures_zero sized start found
    refine ⟨fun _ => pos_of_mem_counted positive member, fun reached => ?_⟩
    cases none_iff.mpr reached

end Weighted

variable {κ : Type} {weigh : Weighting κ} {weight : Nat → Float} {cell : κ} {options : List Nat}

theorem weigh_eq (weighed : ∀ option ∈ options, weigh option cell = .ok (weight option)) :
    (options.mapM fun option => (weigh option cell).map fun weight => (option, effective weight)) =
      .ok (counted weight options) := by
  induction options with
  | nil => rfl
  | cons option rest ih =>
    rw [List.mapM_cons, weighed option List.mem_cons_self,
      ih fun option member => weighed option (List.mem_cons_of_mem _ member)]
    rfl

theorem byDraw_eq (weighed : ∀ option ∈ options, weigh option cell = .ok (weight option))
    (available : ∃ option ∈ options, 0 < weight option) (draw : Float) (last : Nat) :
    byDraw (some weigh) draw cell options last =
      .ok (weighted draw (total weight options) (counted weight options) last) := by
  obtain ⟨size, measures, positive⟩ := exists_total available
  rw [byDraw, weigh_eq weighed]
  change Except.ok (if 0 < (counted weight options).foldl _ 0 then _ else _) = _
  rw [foldl_counted, if_pos ((measures_zero.lt_iff measures).mpr positive)]

end Choice

section Weights

variable {κ : Type} {weigh : Weighting κ} {weight : Nat → Float} {cell : κ} {options : List Nat}

open Choice

theorem choose_spec (several : 2 ≤ options.length)
    (weighed : ∀ option ∈ options, weigh option cell = .ok (weight option))
    (available : ∃ option ∈ options, 0 < weight option) (draws : Draws) {drawn : Nat}
    (least : 0 ≤ draws drawn) (less : draws drawn < 1) :
    ∃ tile ∈ options, choose (some weigh) draws drawn cell options = .ok (tile, drawn + 1) ∧
      (draws drawn * total weight options < total weight options → 0 < weight tile) ∧
      (¬ draws drawn * total weight options < total weight options →
        tile ∈ options.getLast?) := by
  match options with
  | [] => simp at several
  | [_] => simp at several
  | option :: second :: rest =>
    obtain ⟨positive, last⟩ := weighted_spec available least less
      ((second :: rest).getLast (List.cons_ne_nil _ _))
    have chosen : choose (some weigh) draws drawn cell (option :: second :: rest) = .ok
        (weighted (draws drawn) (total weight (option :: second :: rest))
          (counted weight (option :: second :: rest))
          ((second :: rest).getLast (List.cons_ne_nil _ _)), drawn + 1) := by
      rw [choose, byDraw_eq weighed available]
      rfl
    refine ⟨_, mem_of_choose chosen, chosen, positive, fun reached => ?_⟩
    rw [last reached]
    simp [List.getLast?_eq_some_getLast]

/-- An option of no weight is chosen only if it is the last one and the scaled draw is not less than
the total. No draw chooses one exactly if the last option has a weight, or the total is finite and
more than the least double of 53 bits. -/
theorem choose_weighted_exact (several : 2 ≤ options.length)
    (weighed : ∀ option ∈ options, weigh option cell = .ok (weight option))
    (available : ∃ option ∈ options, 0 < weight option) (drawn : Nat) :
    (∀ draws : Draws, 0 ≤ draws drawn → draws drawn < 1 →
      ∃ tile ∈ options, choose (some weigh) draws drawn cell options = .ok (tile, drawn + 1) ∧
        (draws drawn * total weight options < total weight options → 0 < weight tile) ∧
        (¬ draws drawn * total weight options < total weight options →
          tile ∈ options.getLast?)) ∧
    ((∀ draws : Draws, 0 ≤ draws drawn → draws drawn < 1 →
      ∃ tile, choose (some weigh) draws drawn cell options = .ok (tile, drawn + 1) ∧
        0 < weight tile) ↔
      (∃ last ∈ options.getLast?, 0 < weight last) ∨
        leastNormal < total weight options ∧ (total weight options).isFinite = true) := by
  have spec := choose_spec several weighed available
  refine ⟨fun draws least less => spec draws least less, ?_⟩
  obtain ⟨size, measures, -⟩ := exists_total available
  rw [← forall_mul_lt_iff measures]
  constructor
  · intro spared
    by_contra neither
    obtain ⟨weightless, small⟩ := not_or.mp neither
    apply small
    intro draw least less
    by_contra reached
    obtain ⟨tile, -, chosen, -, last⟩ := spec (fun _ => draw) least less
    obtain ⟨other, chosen', positive⟩ := spared (fun _ => draw) least less
    cases chosen.symm.trans chosen'
    exact weightless ⟨tile, last reached, positive⟩
  · intro safe draws least less
    obtain ⟨tile, -, chosen, below, reached⟩ := spec draws least less
    refine ⟨tile, chosen, ?_⟩
    by_cases under : draws drawn * total weight options < total weight options
    · exact below under
    · rcases safe with ⟨last, found, positive⟩ | spares
      · cases Option.mem_unique found (reached under)
        exact positive
      · exact absurd (spares _ least less) under

/-- A total of one is large enough that no draw comes to the last option, which has no weight. -/
theorem choose_weighted_exact_one :
    2 ≤ [0, 1].length ∧ (0 : Float) ≤ 0.75 ∧ (0.75 : Float) < 1 ∧
    ∃ tile, choose (some fun option (_ : Nat) => .ok (if option = 0 then 1 else 0))
      (fun _ => 0.75) 0 0 [0, 1] = .ok (tile, 1) ∧ (0 : Float) < if tile = 0 then 1 else 0 := by
  have several : 2 ≤ [0, 1].length := by decide
  have least : (0 : Float) ≤ 0.75 := by decide +kernel
  have less : (0.75 : Float) < 1 := by decide +kernel
  let weight : Nat → Float := fun option => if option = 0 then 1 else 0
  have available : ∃ option ∈ [0, 1], 0 < weight option :=
    ⟨0, List.mem_cons_self, by decide +kernel⟩
  have normal : leastNormal < total weight [0, 1] := by decide +kernel
  have finite : (total weight [0, 1]).isFinite = true := by decide +kernel
  have weighed : ∀ option ∈ [0, 1],
      (fun option (_ : Nat) => Except.ok (weight option) : Weighting Nat) option 0 =
        .ok (weight option) :=
    fun _ _ => rfl
  exact ⟨several, least, less, (choose_weighted_exact several weighed available 0).2.mpr
    (.inr ⟨normal, finite⟩) (fun _ => 0.75) least less⟩

/-- An option of the least weight there is loses to one of no weight. -/
theorem choose_weightless :
    (0 : Float) < 5e-324 ∧ (0 : Float) ≤ 0.75 ∧ (0.75 : Float) < 1 ∧
      choose (some fun option (_ : Nat) => .ok (if option = 0 then 5e-324 else 0))
        (fun _ => 0.75) 0 0 [0, 1] = .ok (1, 1) ∧ ¬ (0 : Float) < 0 := by
  decide +kernel

end Weights

end Tiling
