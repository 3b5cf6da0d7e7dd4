import Tiling.Entropy
import Tiling.Proofs.Magnitudes
import Tiling.Proofs.SortedMap

/-!
What scores say. A score comes from the number of candidates and, if there are several, from a draw;
one candidate scores exactly one. The cell to settle next is among those that score otherwise.
-/

namespace Tiling

variable {κ σ : Type} [Key κ] [Key σ]

namespace Entropy

/-- The scores of a cell with so many candidates, out of so many draws. -/
inductive Scores (draws : Draws) (drawn : Nat) : Nat → Float → Prop where
  | single : Scores draws drawn 1 decided
  | several {place count : Nat} (differs : count ≠ 1) (taken : place < drawn) :
      Scores draws drawn count (Float.ofNat count + draws place * jitter)

/-- The draws keep the scores of several candidates, up to so many, apart from that of one. -/
def Parts (draws : Draws) (drawn tiles : Nat) : Prop :=
  ∀ place < drawn, ∀ count ≤ tiles, 2 ≤ count →
    Float.ofNat count + draws place * jitter ≠ decided

/-- The draws keep the scores of several candidates, up to so many, below the next whole number, as
all draws from zero up to one do. -/
def Rounds (draws : Draws) (drawn tiles : Nat) : Prop :=
  ∀ place < drawn, ∀ count ≤ tiles, 2 ≤ count →
    (Float.ofNat count + draws place * jitter).toUInt64.toNat = count

section Scores

variable {draws : Draws} {drawn tiles count : Nat} {score : Float}

theorem scores_score (draws : Draws) (drawn count : Nat) :
    Scores draws (drawn + drawsFor count) count (Entropy.score draws drawn count) := by
  unfold Entropy.score drawsFor
  by_cases single : count = 1
  · subst single
    exact .single
  · simp only [if_neg single]
    exact .several single (Nat.lt_succ_self drawn)

theorem Scores.mono (scores : Scores draws drawn count score) {later : Nat}
    (most : drawn ≤ later) : Scores draws later count score := by
  cases scores with
  | single => exact .single
  | several differs taken => exact .several differs (Nat.lt_of_lt_of_le taken most)

theorem Scores.eq_decided (scores : Scores draws drawn 1 score) : score = decided := by
  cases scores with
  | single => rfl
  | several differs => exact absurd rfl differs

theorem toNat_decided : decided.toUInt64.toNat = 1 := by decide +kernel

theorem Rounds.parts (rounds : Rounds draws drawn tiles) : Parts draws drawn tiles := by
  intro place taken count few several same
  have whole := rounds place taken count few several
  rw [same, toNat_decided] at whole
  omega

theorem Scores.eq_decided_iff (scores : Scores draws drawn count score)
    (parts : Parts draws drawn tiles) (nonempty : count ≠ 0) (few : count ≤ tiles) :
    score = decided ↔ count = 1 := by
  constructor
  · intro same
    cases scores with
    | single => rfl
    | several differs taken => exact absurd same (parts _ taken count few (by omega))
  · rintro rfl
    exact scores.eq_decided

theorem Scores.toNat_eq (scores : Scores draws drawn count score)
    (rounds : Rounds draws drawn tiles) (nonempty : count ≠ 0) (few : count ≤ tiles) :
    score.toUInt64.toNat = count := by
  cases scores with
  | single => exact toNat_decided
  | several differs taken => exact rounds _ taken count few (by omega)

theorem amountsTo_jitter : Rounding.AmountsTo jitter (1 / 16) := by
  have unpacked : jitter.toModel.unpack = .finite .positive (2 ^ 52) (-56) (by norm_num) := rfl
  have same : (1 / 16 : ℚ) = (2 ^ 52 : Nat) * 2 ^ (-56 : Int) := by norm_num
  rw [Rounding.AmountsTo, unpacked, same]
  exact .finite _ (by norm_num) (by norm_num) (.inr le_rfl)

/-- Draws from zero up to one keep all scores below the next whole number. -/
theorem rounds_of_unit (unit : ∀ place < drawn, 0 ≤ draws place ∧ draws place < 1)
    (few : tiles < 2 ^ 52) : Rounds draws drawn tiles := by
  intro place taken count most several
  obtain ⟨least, less⟩ := unit place taken
  obtain ⟨number, amounts, small⟩ := Rounding.exists_of_unit least less
  obtain ⟨part, product, rounds⟩ := amounts.exists_mul amountsTo_jitter (by linarith)
  have sixteenth := (rounds 1 (by norm_num) (-4) (by norm_num)).2 (by norm_num; linarith)
  have half : part ≤ 1 / 2 := by
    norm_num at sixteenth
    linarith
  exact Rounding.toNat_ofNat_add (by omega) (most.trans_lt few) product half

theorem beq_decided {score : Float} : (score == decided) = true ↔ score = decided := by
  have number : decided ≠ .nan := by decide +kernel
  have nonzero : decided ≠ 0 ∧ decided ≠ -0 := by decide +kernel
  rw [Float.beq_iff_ne_nan_and_eq]
  constructor
  · rintro ⟨-, -, same | ⟨-, zero⟩ | ⟨-, zero⟩⟩
    · exact same
    · exact absurd zero nonzero.2
    · exact absurd zero nonzero.1
  · rintro rfl
    exact ⟨number, number, .inl rfl⟩

end Scores

section Lowest

variable {entropy : Entropy κ} {scores : SortedMap κ UInt64} {id : κ}

omit [Key κ] in
theorem mem_of_least? {entries : List (κ × UInt64)} {entry : κ × UInt64}
    (least : least? entries = some entry) : entry ∈ entries := by
  induction entries generalizing entry with
  | nil => cases least
  | cons head rest ih =>
    unfold least? at least
    cases found : least? rest with
    | none =>
      rw [found] at least
      cases least
      exact List.mem_cons_self
    | some best =>
      simp only [found] at least
      split at least
      · cases least
        exact List.mem_cons_self
      · cases least
        exact List.mem_cons_of_mem head (ih found)

omit [Key κ] in
theorem least?_eq_none_iff {entries : List (κ × UInt64)} :
    least? entries = none ↔ entries = [] := by
  constructor
  · intro none
    cases entries with
    | nil => rfl
    | cons head rest =>
      unfold least? at none
      split at none
      · cases none
      · split at none <;> cases none
  · rintro rfl
    rfl

theorem mem_undecided_iff {score : UInt64} :
    (id, score) ∈ scores.entries.filter (fun entry => Float.ofBits entry.2 != decided) ↔
      scores.get? id = some score ∧ (Float.ofBits score == decided) = false := by
  simp [List.mem_filter, SortedMap.get?_eq_some_iff, bne]

theorem score_of_lowestOf? (lowest : lowestOf? scores = some id) :
    ∃ score, scores.get? id = some score ∧ (Float.ofBits score == decided) = false := by
  obtain ⟨entry, least, rfl⟩ := Option.map_eq_some_iff.mp lowest
  exact ⟨entry.2, mem_undecided_iff.mp (mem_of_least? least)⟩

/-- No key is chosen exactly if all doubles equal the score of a decided cell. -/
theorem lowestOf?_eq_none_iff :
    lowestOf? scores = none ↔
      ∀ id score, scores.get? id = some score → (Float.ofBits score == decided) = true := by
  rw [lowestOf?, Option.map_eq_none_iff, least?_eq_none_iff, List.eq_nil_iff_forall_not_mem]
  simp only [Prod.forall, mem_undecided_iff, not_and, Bool.not_eq_false]

theorem get?_bits (entropy : Entropy κ) (id : κ) :
    entropy.bits.get? id = (entropy.get? id).map Float.toBits :=
  SortedMap.get?_mapValues entropy.scores id fun _ score => score.toBits

/-- The cell to settle next has a score other than that of a decided cell. -/
theorem score_of_lowest? (lowest : entropy.lowest? = some id) :
    ∃ score, entropy.get? id = some score ∧ score ≠ decided := by
  obtain ⟨bits, held, differs⟩ := score_of_lowestOf? lowest
  rw [get?_bits] at held
  obtain ⟨score, found, rfl⟩ := Option.map_eq_some_iff.mp held
  rw [Float.ofBits_toBits, ← Bool.not_eq_true, beq_decided] at differs
  exact ⟨score, found, differs⟩

theorem eq_decided_of_lowest?_eq_none (none : entropy.lowest? = none) {score : Float}
    (scored : entropy.get? id = some score) : score = decided := by
  have held : entropy.bits.get? id = some score.toBits := by
    rw [get?_bits, scored, Option.map_some]
  have equal := lowestOf?_eq_none_iff.mp none id score.toBits held
  rwa [Float.ofBits_toBits, beq_decided] at equal

end Lowest

theorem keys_put {entropy : Entropy κ} {id : κ} (scored : id ∈ entropy.scores.keys) (score : Float)
    (change : Nat) : (entropy.put id score change).scores.keys = entropy.scores.keys :=
  SortedMap.keys_insert_of_mem scored score

@[simp] theorem get?_put (entropy : Entropy κ) (id wanted : κ) (score : Float) (change : Nat) :
    (entropy.put id score change).get? wanted =
      if id = wanted then some score else entropy.get? wanted :=
  SortedMap.get?_insert entropy.scores id wanted score

omit [Key κ] in
theorem drawsFor_add_countP (head : κ × Cell κ σ) (rest : List (κ × Cell κ σ)) :
    drawsFor head.2.count + (rest.map (·.2)).countP (fun cell => cell.count != 1) =
      ((head :: rest).map (·.2)).countP fun cell => cell.count != 1 := by
  by_cases single : head.2.count = 1 <;> simp [drawsFor, single, Nat.add_comm]

omit [Key κ] in
theorem scoreAll_append (draws : Draws) (drawn : Nat) (before rest : List (κ × Cell κ σ)) :
    scoreAll draws drawn (before ++ rest) = scoreAll draws drawn before ++
      scoreAll draws (drawn + (before.map (·.2)).countP fun cell => cell.count != 1) rest := by
  induction before generalizing drawn with
  | nil => rfl
  | cons head before ih =>
    rw [List.cons_append, scoreAll, ih, ← drawsFor_add_countP, Nat.add_assoc]
    rfl

omit [Key κ] in
theorem scores_scoreAll (draws : Draws) (drawn : Nat) {cells : List (κ × Cell κ σ)} {id : κ}
    {cell : Cell κ σ} (listed : (id, cell) ∈ cells) :
    ∃ score, (id, score) ∈ scoreAll draws drawn cells ∧
      Scores draws (drawn + (cells.map (·.2)).countP fun cell => cell.count != 1) cell.count
        score := by
  induction cells generalizing drawn with
  | nil => cases listed
  | cons head rest ih =>
    rw [← drawsFor_add_countP, ← Nat.add_assoc]
    rcases List.mem_cons.mp listed with rfl | listed
    · refine ⟨_, List.mem_cons_self, (scores_score draws drawn cell.count).mono ?_⟩
      exact Nat.le_add_right ..
    · obtain ⟨score, member, scores⟩ := ih _ listed
      exact ⟨score, List.mem_cons_of_mem _ member, scores⟩

theorem keys_ofBoard (draws : Draws) (board : Board κ σ) :
    (ofBoard draws board).scores.keys = board.cells.keys :=
  keys_scoreAll draws 0 board.cells.entries

/-- The score of a cell comes from the first draw that scoring those before it left. -/
theorem get?_ofBoard (draws : Draws) {board : Board κ σ} {before after : List (κ × Cell κ σ)}
    {id : κ} {cell : Cell κ σ} (listed : board.cells.entries = before ++ (id, cell) :: after) :
    (ofBoard draws board).get? id = some
      (score draws ((before.map (·.2)).countP fun cell => cell.count != 1) cell.count) := by
  apply SortedMap.get?_eq_some_iff.mpr
  change _ ∈ scoreAll draws 0 board.cells.entries
  rw [listed, scoreAll_append, Nat.zero_add]
  exact List.mem_append_right _ List.mem_cons_self

theorem scores_ofBoard (draws : Draws) {board : Board κ σ} {id : κ} {cell : Cell κ σ}
    (found : board.get? id = some cell) :
    ∃ score, (ofBoard draws board).get? id = some score ∧
      Scores draws (drawsForBoard board) cell.count score := by
  obtain ⟨score, listed, scores⟩ :=
    scores_scoreAll draws 0 (Board.get?_eq_some_iff.mp found)
  refine ⟨score, SortedMap.get?_eq_some_iff.mpr listed, ?_⟩
  rw [Nat.zero_add] at scores
  exact scores

end Entropy

end Tiling
