import Mathlib
import Tiling.Proofs.Search.Trail

/-!
The tree of decisions that a search walks through. Each decision uses up one of the decisions that
may still be made, and a list of decisions that was left is never come back to.
-/

namespace Tiling

variable {κ σ : Type} [Key κ] [Key σ]

/-- The most decisions below a node with so many levels under it, when every cell has so many
tiles. -/
def treeSize (tiles : Nat) : Nat → Nat
  | 0 => 0
  | levels + 1 => tiles * (treeSize tiles levels + 1)

theorem treeSize_lt_pow (tiles levels : Nat) : treeSize tiles levels < (tiles + 1) ^ levels := by
  induction levels with
  | zero => exact Nat.one_pos
  | succ levels ih =>
    have grown : tiles * (treeSize tiles levels + 1) ≤ tiles * (tiles + 1) ^ levels :=
      Nat.mul_le_mul_left tiles ih
    have positive : 0 < (tiles + 1) ^ levels := Nat.pow_pos (Nat.succ_pos tiles)
    rw [treeSize, Nat.pow_succ, Nat.mul_comm _ (tiles + 1), Nat.succ_mul]
    omega

namespace Trail

/-- How many decisions stand. -/
def level (trail : Trail κ σ) : Nat := trail.decisions.length

/-- The decisions that stand, by cell and tile. -/
def choices (trail : Trail κ σ) : List (κ × Nat) :=
  trail.decisions.map fun made => (made.cell, made.tile)

@[simp] theorem level_decision (made : Decision κ σ) (older : List (TrailEntry κ σ)) :
    level ⟨.decision made :: older⟩ = level ⟨older⟩ + 1 := by
  simp [level]

@[simp] theorem level_narrowing (made : Narrowing κ σ) (older : List (TrailEntry κ σ)) :
    level ⟨.narrowing made :: older⟩ = level ⟨older⟩ := by
  simp [level]

theorem level_push_narrowing (trail : Trail κ σ) (made : Narrowing κ σ) :
    (trail.push (.narrowing made)).level = trail.level :=
  level_narrowing made trail.newestFirst

@[simp] theorem choices_decision (made : Decision κ σ) (older : List (TrailEntry κ σ)) :
    choices ⟨.decision made :: older⟩ = choices ⟨older⟩ ++ [(made.cell, made.tile)] := by
  simp [choices]

theorem choices_push_decision (trail : Trail κ σ) (made : Decision κ σ) :
    (trail.push (.decision made)).choices = trail.choices ++ [(made.cell, made.tile)] :=
  choices_decision made trail.newestFirst

theorem choices_append (newer older : List (TrailEntry κ σ)) :
    choices ⟨newer ++ older⟩ = choices ⟨older⟩ ++ choices ⟨newer⟩ := by
  simp [choices, decisions_append]

@[simp] theorem choices_narrowing (made : Narrowing κ σ) (older : List (TrailEntry κ σ)) :
    choices ⟨.narrowing made :: older⟩ = choices ⟨older⟩ := by
  simp [choices]

theorem choices_push_narrowing (trail : Trail κ σ) (made : Narrowing κ σ) :
    (trail.push (.narrowing made)).choices = trail.choices :=
  choices_narrowing made trail.newestFirst

/-- A decision that stands was once made otherwise, and the list of decisions starts with those
before it and the one it was then. -/
inductive Replaced (trail : Trail κ σ) (list : List (κ × Nat)) : Prop where
  | instead {older : List (TrailEntry κ σ)} {made : Decision κ σ} {tile : Nat}
      {rest : List (κ × Nat)} (stands : .decision made :: older <:+ trail.newestFirst)
      (tried : tile ∈ made.tried) (differ : tile ≠ made.tile)
      (reached : list = choices ⟨older⟩ ++ (made.cell, tile) :: rest)

theorem Replaced.push {trail : Trail κ σ} {list : List (κ × Nat)} (replaced : trail.Replaced list)
    (entry : TrailEntry κ σ) : (trail.push entry).Replaced list := by
  obtain ⟨stands, tried, differ, reached⟩ := replaced
  exact .instead (stands.trans (List.suffix_cons entry _)) tried differ reached

end Trail

namespace Rules

variable {rules : Rules κ σ}

/-- How many cells there are. -/
def cells (rules : Rules κ σ) : Nat := rules.start.board.size

/-- The most decisions still to be made on a cell with so many decisions above it, when so many of
its tiles were tried: the other tiles, and whatever is below each of them. -/
def branches (rules : Rules κ σ) (level tried : Nat) : Nat :=
  (rules.tileCount - tried) * (treeSize rules.tileCount (rules.cells - (level + 1)) + 1)

/-- The most decisions still to be made in place of those that stand. -/
def standing (rules : Rules κ σ) : List (TrailEntry κ σ) → Nat
  | [] => 0
  | .decision made :: older =>
    rules.branches (Trail.level ⟨older⟩) made.tried.count + rules.standing older
  | .narrowing _ :: older => rules.standing older

/-- The decided cells of a trail differ from each other, and all are collapsed. -/
theorem Chain.decided {entries : List (TrailEntry κ σ)}
    (chain : rules.Chain Position.Leads entries) :
    ((Trail.decisions ⟨entries⟩).map (·.cell)).Nodup ∧
      ∀ made ∈ Trail.decisions ⟨entries⟩, ∃ cell,
        (rules.reached entries).board.get? made.cell = some cell ∧ cell.collapsed = true := by
  induction chain with
  | nil => exact ⟨.nil, nofun⟩
  | @cons entry older _ leads ih =>
    obtain ⟨nodup, collapsed⟩ := ih
    have board : (rules.reached (entry :: older)).board = entry.after.board := rfl
    rw [board]
    cases leads with
    | @narrowing made target cell found undecided restricted placed =>
      rw [Trail.decisions_narrowing]
      refine ⟨nodup, fun earlier member => ?_⟩
      obtain ⟨own, held, settled⟩ := collapsed earlier member
      have differ : made.cell ≠ earlier.cell := by
        intro same
        rw [same] at found
        cases found.symm.trans held
        simp [undecided] at settled
      simp only [TrailEntry.after, placed]
      exact ⟨own, (Board.get?_put_of_ne differ _ _).trans held, settled⟩
    | @decision made target cell lowest found undecided observed placed =>
      have differ : ∀ earlier ∈ Trail.decisions ⟨older⟩, made.cell ≠ earlier.cell := by
        intro earlier member same
        obtain ⟨own, held, settled⟩ := collapsed earlier member
        rw [same] at found
        cases found.symm.trans held
        simp [undecided] at settled
      rw [Trail.decisions_decision, List.map_append]
      simp only [TrailEntry.after, placed]
      refine ⟨List.nodup_append.mpr ⟨nodup, by simp, ?_⟩, fun other member => ?_⟩
      · intro cell listed last single same
        obtain ⟨earlier, member, rfl⟩ := List.mem_map.mp listed
        simp only [List.map_cons, List.map_nil, List.mem_singleton] at single
        exact differ earlier member (single.symm.trans same.symm)
      · rcases List.mem_append.mp member with member | single
        · obtain ⟨own, held, settled⟩ := collapsed other member
          exact ⟨own, (Board.get?_put_of_ne (differ other member) _ _).trans held, settled⟩
        · cases List.mem_singleton.mp single
          obtain ⟨-, -, -, settled⟩ := Cell.observe_ok observed
          exact ⟨cell, Board.get?_put_self found cell, settled⟩

end Rules

namespace Trail

theorem Forced.choices {newer : List (TrailEntry κ σ)} (forced : Forced newer) :
    Trail.choices ⟨newer⟩ = [] := by
  rw [Trail.choices, forced.decisions]
  rfl

theorem Forced.level {newer : List (TrailEntry κ σ)} (forced : Forced newer)
    (made : Decision κ σ) (older : List (TrailEntry κ σ)) :
    Trail.level ⟨newer ++ .decision made :: older⟩ = Trail.level ⟨older⟩ + 1 := by
  rw [Trail.level, decisions_append, forced.decisions, List.append_nil]
  exact level_decision made older

theorem Forced.split {newer newer' older older' : List (TrailEntry κ σ)} {made made' : Decision κ σ}
    (forced : Forced newer)
    (same : newer ++ .decision made :: older = newer' ++ .decision made' :: older') :
    made' = made ∧ older' = older ∨ ∃ middle, older = middle ++ .decision made' :: older' := by
  induction forced generalizing newer' with
  | nil =>
    cases newer' with
    | nil =>
      cases same
      exact .inl ⟨rfl, rfl⟩
    | cons entry middle =>
      cases same
      exact .inr ⟨middle, rfl⟩
  | cons narrowed _ ih =>
    cases newer' with
    | nil => cases same
    | cons entry middle => exact ih (List.cons.inj same).2

theorem Forced.standing {newer : List (TrailEntry κ σ)} (forced : Forced newer)
    (rules : Rules κ σ) (older : List (TrailEntry κ σ)) :
    rules.standing (newer ++ older) = rules.standing older := by
  induction forced with
  | nil => rfl
  | cons made _ ih => exact ih

end Trail

namespace Search

variable {search after : Search κ σ} {event : Option (Event κ)}

/-- The most decisions still to be made without giving up any that stands. -/
def unopened (search : Search κ σ) : Nat :=
  match search.retry with
  | none => treeSize search.rules.tileCount (search.rules.cells - search.trail.level)
  | some retry => search.rules.branches search.trail.level retry.tried.count

/-- The most decisions still to be made. -/
def ahead (search : Search κ σ) : Nat :=
  search.rules.standing search.trail.newestFirst + search.unopened

theorem Coherent.level_lt (coherent : search.Coherent) {id : κ} {cell : Cell κ σ}
    (selected : search.Selects id cell) : search.trail.level < search.rules.cells := by
  obtain ⟨nodup, collapsed⟩ := coherent.chain.decided
  rw [← coherent.position] at collapsed
  have fresh : id ∉ search.trail.decisions.map (·.cell) := by
    intro listed
    obtain ⟨made, member, rfl⟩ := List.mem_map.mp listed
    obtain ⟨own, held, settled⟩ := collapsed made member
    cases selected.found.symm.trans held
    simp [selected.undecided] at settled
  have listed : id :: search.trail.decisions.map (·.cell) ⊆ search.position.board.cells.keys := by
    intro other member
    apply SortedMap.mem_keys_iff.mpr
    rcases List.mem_cons.mp member with rfl | member
    · exact ⟨cell, selected.found⟩
    · obtain ⟨made, decided, rfl⟩ := List.mem_map.mp member
      obtain ⟨own, held, -⟩ := collapsed made decided
      exact ⟨own, held⟩
  have fewer := (List.nodup_cons.mpr ⟨fresh, nodup⟩).length_le_of_subset listed
  rw [coherent.within.keys] at fewer
  rw [List.length_cons, List.length_map, SortedMap.length_keys] at fewer
  exact fewer

/-- All decisions still to be made on the cell selected and below it are ahead. -/
theorem Coherent.unopened_eq (coherent : search.Coherent) {id : κ} {cell : Cell κ σ}
    (selected : search.Selects id cell) :
    search.unopened = search.rules.branches search.trail.level (search.triedOn id).count := by
  have below := coherent.level_lt selected
  unfold unopened Search.triedOn
  cases waiting : search.retry with
  | none =>
    have levels : search.rules.cells - search.trail.level =
        search.rules.cells - (search.trail.level + 1) + 1 := by omega
    simp [Rules.branches, levels, treeSize]
  | some retry =>
    obtain ⟨target, selected', -⟩ := coherent.retried retry waiting
    obtain ⟨same, -⟩ := selected.unique selected'
    simp [same]

/-- Each decision takes one away from those ahead. -/
theorem Coherent.ahead_settled (coherent : search.Coherent) {id : κ} {cell settled : Cell κ σ}
    {tile : Nat} (selected : search.Selects id cell)
    (known : ∀ tile ∈ cell.candidates, tile < search.rules.tileCount)
    (fresh : tile ∉ search.triedOn id) (observed : cell.observe tile = .ok settled)
    (drawn : Nat) :
    ({ search.clearMarks with retry := none }.settledOn id settled tile
      (((search.triedOn id).grow search.rules.tileCount).insert tile) drawn).ahead + 1 =
        search.ahead := by
  have within : ∀ other ∈ ((search.triedOn id).grow search.rules.tileCount).insert tile,
      other < search.rules.tileCount := by
    intro other tried
    rcases Candidates.mem_insert.mp tried with tried | rfl
    · exact known other (coherent.triedOn selected other tried)
    · exact known other (Cell.observe_ok observed).1
  have room := Candidates.count_le_of_lt within
  rw [Candidates.count_insert_grow _ fresh] at room
  rw [ahead, ahead, coherent.unopened_eq selected]
  change search.rules.branches search.trail.level
      (((search.triedOn id).grow search.rules.tileCount).insert tile).count +
        search.rules.standing search.trail.newestFirst +
      treeSize search.rules.tileCount (search.rules.cells - Trail.level ⟨.decision _ :: _⟩) + 1 = _
  rw [Trail.level_decision, Candidates.count_insert_grow _ fresh]
  generalize (search.triedOn id).count = tried at room
  have left : search.rules.tileCount - tried = search.rules.tileCount - (tried + 1) + 1 := by
    omega
  have split : search.rules.branches search.trail.level tried =
      search.rules.branches search.trail.level (tried + 1) +
        (treeSize search.rules.tileCount (search.rules.cells - (search.trail.level + 1)) + 1) := by
    rw [Rules.branches, Rules.branches, left, Nat.succ_mul]
  change _ + treeSize _ (_ - (search.trail.level + 1)) + 1 = _
  omega

theorem ahead_undone {marks : Option (Marks κ)} {newer older : List (TrailEntry κ σ)}
    {made : Decision κ σ} (forced : Trail.Forced newer)
    (stands : search.trail.newestFirst = newer ++ .decision made :: older) :
    (search.undone marks made older).ahead ≤ search.ahead := by
  have standing : search.rules.standing search.trail.newestFirst =
      search.rules.branches (Trail.level ⟨older⟩) made.tried.count +
        search.rules.standing older := by
    rw [stands, forced.standing]
    rfl
  have undone : (search.undone marks made older).ahead =
      search.rules.standing older +
        search.rules.branches (Trail.level ⟨older⟩) made.tried.count := rfl
  rw [undone, ahead, standing]
  omega

theorem not_mem_triedOn_of_choose {id : κ} {cell : Cell κ σ} {tile drawn : Nat}
    (chosen : choose search.rules.weighting search.rules.draws search.drawn id
      (cell.candidates.diff (search.triedOn id)).toList = .ok (tile, drawn)) :
    tile ∉ search.triedOn id :=
  (Candidates.mem_diff.mp (Candidates.mem_toList.mp (mem_of_choose chosen))).2

/-- A list of decisions was reached: it stands, or one of its decisions has given way to another
or is about to. -/
inductive Passed (search : Search κ σ) (list : List (κ × Nat)) : Prop where
  | standing (stands : list <+: search.trail.choices)
  | replaced (replaced : search.trail.Replaced list)
  | retried {retry : Retry κ} {tile : Nat} {rest : List (κ × Nat)}
      (waiting : search.retry = some retry) (tried : tile ∈ retry.tried)
      (reached : list = search.trail.choices ++ (retry.cell, tile) :: rest)

variable {list : List (κ × Nat)}

/-- The next decision leads to no list that was reached before. -/
theorem Passed.ne_settled (passed : search.Passed list) {id : κ} {tile : Nat}
    (retried : ∀ retry, search.retry = some retry → retry.cell = id)
    (fresh : tile ∉ search.triedOn id) : list ≠ search.trail.choices ++ [(id, tile)] := by
  intro same
  cases passed with
  | standing stands =>
    have shorter := stands.length_le
    rw [same, List.length_append, List.length_singleton] at shorter
    omega
  | replaced replaced =>
    obtain @⟨older, made, other, rest, ⟨newer, stands⟩, tried, differ, reached⟩ := replaced
    have split : search.trail.choices =
        Trail.choices ⟨older⟩ ++ (made.cell, made.tile) :: Trail.choices ⟨newer⟩ := by
      have whole : search.trail = ⟨newer ++ .decision made :: older⟩ :=
        congrArg Trail.mk stands.symm
      simp [whole, Trail.choices_append]
    rw [reached, split, List.append_assoc] at same
    have next := (List.cons.inj (List.append_cancel_left same)).1
    exact differ (Prod.mk.inj next).2
  | @retried retry other rest waiting tried reached =>
    rw [reached] at same
    have next := (List.cons.inj (List.append_cancel_left same)).1
    cases next
    exact fresh (mem_triedOn.mpr ⟨retry, waiting, rfl, tried⟩)

private theorem Passed.undone (passed : search.Passed list) (coherent : search.Coherent)
    {marks : Option (Marks κ)} {newer older : List (TrailEntry κ σ)} {made : Decision κ σ}
    (forced : Trail.Forced newer)
    (stands : search.trail.newestFirst = newer ++ .decision made :: older) :
    (search.undone marks made older).Passed list := by
  have chain : search.rules.Chain Position.Leads (newer ++ .decision made :: older) :=
    stands ▸ coherent.chain
  have whole : search.trail.choices = Trail.choices ⟨older⟩ ++ [(made.cell, made.tile)] := by
    have whole : search.trail = ⟨newer ++ .decision made :: older⟩ := congrArg Trail.mk stands
    rw [whole, Trail.choices_append, forced.choices, List.append_nil, Trail.choices_decision]
  have undone : made.tile ∈ made.tried := by
    cases chain.follows with
    | decision lowest found undecided observed board tried => exact tried
  cases passed with
  | standing prior =>
    rw [whole] at prior
    rcases List.prefix_concat_iff.mp prior with reached | prior
    · exact .retried rfl undone reached
    · exact .standing prior
  | replaced replaced =>
    obtain ⟨⟨newer', stands'⟩, tried, differ, reached⟩ := replaced
    rcases forced.split (stands.symm.trans stands'.symm) with ⟨rfl, rfl⟩ | ⟨middle, below⟩
    · exact .retried rfl tried reached
    · exact .replaced (.instead ⟨middle, below.symm⟩ tried differ reached)
  | retried waiting tried reached =>
    rw [whole, List.append_assoc] at reached
    exact .retried rfl undone reached

theorem Passed.moves (passed : search.Passed list) (coherent : search.Coherent)
    (moved : search.Moves event after) : after.Passed list := by
  cases moved with
  | tended tends =>
    have kept := tends.keeps
    cases passed with
    | standing stands => exact .standing (kept.trail ▸ stands)
    | replaced replaced => exact .replaced (kept.trail ▸ replaced)
    | retried waiting tried reached =>
      rw [← kept.trail] at reached
      exact .retried (tends.retry.trans waiting) tried reached
  | narrowed taken =>
    cases passed with
    | standing stands =>
      apply Passed.standing
      exact (Trail.choices_push_narrowing search.trail _).symm ▸ stands
    | replaced replaced => exact .replaced (replaced.push _)
    | retried waiting tried reached =>
      obtain ⟨target, selected, -⟩ := coherent.retried _ waiting
      exact absurd selected.toIdle taken.not_idle
  | settled selected chosen observed =>
    have fresh := not_mem_triedOn_of_choose chosen
    cases passed with
    | standing stands =>
      apply Passed.standing
      rw [Search.settledOn, Trail.choices_push_decision]
      exact stands.trans (List.prefix_append _ _)
    | replaced replaced => exact .replaced (replaced.push _)
    | @retried retry other rest waiting tried reached =>
      obtain ⟨target, selected', -⟩ := coherent.retried retry waiting
      obtain ⟨rfl, -⟩ := selected.unique selected'
      have tried := mem_triedOn.mpr ⟨retry, waiting, rfl, tried⟩
      refine .replaced (.instead (List.suffix_refl _) ?_ ?_ reached)
      · exact Candidates.mem_insert.mpr (.inl tried)
      · rintro rfl
        exact fresh tried
  | undone stuck forced stands => exact passed.undone coherent forced stands

theorem Passed.ne_of_collapsed (passed : search.Passed list) (coherent : search.Coherent)
    {cell : κ} {tile : Nat} (moved : search.Moves (some (.collapsed cell tile)) after) :
    list ≠ after.trail.choices := by
  cases moved with
  | tended tends => cases tends
  | settled selected chosen observed =>
    rw [settledOn, Trail.choices_push_decision]
    refine passed.ne_settled (fun retry waiting => ?_) (not_mem_triedOn_of_choose chosen)
    obtain ⟨target, selected', -⟩ := coherent.retried retry waiting
    exact (selected'.unique selected).1

theorem Passed.reaches {last : Search κ σ} (passed : search.Passed list)
    (coherent : search.Coherent) (reaches : search.Reaches last) : last.Passed list := by
  induction reaches with
  | start => exact passed
  | move earlier moved ih => exact ih.moves (coherent.reaches earlier) moved

end Search

end Tiling
