import Tiling.Entropy

/-!
The choice of a tile for a cell. A single option is taken without a draw. With weights, one draw
scaled by the total weight falls into the stretch of one option; without them, or when no
weight is positive, one draw picks a place in the list.
-/

namespace Tiling

/-- How readily a tile is chosen for a cell. -/
abbrev Weighting (κ : Type) : Type := Nat → κ → Except Fault Float

namespace Choice

variable {κ : Type}

/-- A weight as it counts in a choice: negative ones, and those that are not numbers, count as
zero. -/
def effective (weight : Float) : Float := if 0 < weight then weight else 0

/-- The first option at which the running total exceeds the threshold. -/
def firstAbove? (threshold : Float) : Float → List (Nat × Float) → Option Nat
  | _, [] => none
  | total, (option, weight) :: rest =>
    if threshold < total + weight then some option
    else firstAbove? threshold (total + weight) rest

/-- The option into whose stretch the draw falls, or the last one if it falls past them all. -/
def weighted (draw total : Float) (weights : List (Nat × Float)) (last : Nat) : Nat :=
  (firstAbove? (draw * total) 0 weights).getD last

/-- The option at the place that the draw marks on the list. -/
def uniform (draw : Float) (options : List Nat) (last : Nat) : Nat :=
  let place := (draw * Float.ofNat options.length).toUInt64.toNat
  options.getD (min place (options.length - 1)) last

/-- One of several options, by a draw. -/
def byDraw (weighting : Option (Weighting κ)) (draw : Float) (cell : κ) (options : List Nat)
    (last : Nat) : Except Fault Nat :=
  match weighting with
  | none => .ok (uniform draw options last)
  | some weigh => do
    let weights ← options.mapM fun option =>
      (weigh option cell).map fun weight => (option, effective weight)
    let total := weights.foldl (fun sum entry => sum + entry.2) 0
    return if 0 < total then weighted draw total weights last else uniform draw options last

theorem mem_of_firstAbove? {threshold total : Float} {weights : List (Nat × Float)} {option : Nat}
    (found : firstAbove? threshold total weights = some option) : option ∈ weights.map (·.1) := by
  induction weights generalizing total with
  | nil => cases found
  | cons head rest ih =>
    unfold firstAbove? at found
    split at found
    · cases found
      exact List.mem_cons_self
    · exact List.mem_cons_of_mem _ (ih found)

theorem options_of_weigh {weigh : Weighting κ} {cell : κ} {options : List Nat}
    {weights : List (Nat × Float)}
    (weighed : (options.mapM fun option =>
      (weigh option cell).map fun weight => (option, effective weight)) = .ok weights) :
    weights.map (·.1) = options := by
  induction options generalizing weights with
  | nil =>
    cases weighed
    rfl
  | cons option rest ih =>
    rw [List.mapM_cons] at weighed
    cases first : weigh option cell with
    | error reason =>
      rw [first] at weighed
      cases weighed
    | ok weight =>
      cases others : rest.mapM fun option =>
          (weigh option cell).map fun weight => (option, effective weight) with
      | error reason =>
        rw [first, others] at weighed
        cases weighed
      | ok entries =>
        rw [first, others] at weighed
        cases weighed
        exact congrArg (option :: ·) (ih others)

theorem mem_of_uniform (draw : Float) {options : List Nat} {last : Nat} (member : last ∈ options) :
    uniform draw options last ∈ options := by
  have below : min (draw * Float.ofNat options.length).toUInt64.toNat (options.length - 1) <
      options.length := by
    have := List.length_pos_of_mem member
    omega
  simp [uniform, List.getD_eq_getElem?_getD, List.getElem?_eq_getElem below]

/-- Whatever the draw and the weights, one of the options is chosen. -/
theorem mem_of_byDraw {weighting : Option (Weighting κ)} {draw : Float} {cell : κ}
    {options : List Nat} {last tile : Nat} (member : last ∈ options)
    (chosen : byDraw weighting draw cell options last = .ok tile) : tile ∈ options := by
  cases weighting with
  | none =>
    cases chosen
    exact mem_of_uniform draw member
  | some weigh =>
    cases weighed : options.mapM fun option =>
        (weigh option cell).map fun weight => (option, effective weight) with
    | error reason =>
      simp only [byDraw, weighed] at chosen
      cases chosen
    | ok weights =>
      simp only [byDraw, weighed] at chosen
      cases chosen
      split
      · unfold weighted
        generalize found : firstAbove? _ _ _ = above
        cases above with
        | none => exact member
        | some option => exact options_of_weigh weighed ▸ mem_of_firstAbove? found
      · exact mem_of_uniform draw member

theorem exists_of_weigh_error {weigh : Weighting κ} {cell : κ} {options : List Nat}
    {reason : Fault}
    (failed : (options.mapM fun option =>
      (weigh option cell).map fun weight => (option, effective weight)) = .error reason) :
    ∃ option ∈ options, weigh option cell = .error reason := by
  induction options with
  | nil => cases failed
  | cons option rest ih =>
    rw [List.mapM_cons] at failed
    cases first : weigh option cell with
    | error cause =>
      rw [first] at failed
      cases failed
      exact ⟨option, List.mem_cons_self, first⟩
    | ok weight =>
      cases others : rest.mapM fun option =>
          (weigh option cell).map fun weight => (option, effective weight) with
      | error cause =>
        rw [first, others] at failed
        cases failed
        obtain ⟨option, member, failed⟩ := ih others
        exact ⟨option, List.mem_cons_of_mem _ member, failed⟩
      | ok entries =>
        rw [first, others] at failed
        cases failed

theorem exists_of_byDraw_error {weighting : Option (Weighting κ)} {draw : Float} {cell : κ}
    {options : List Nat} {last : Nat} {reason : Fault}
    (failed : byDraw weighting draw cell options last = .error reason) :
    ∃ weigh, weighting = some weigh ∧ ∃ option ∈ options, weigh option cell = .error reason := by
  cases weighting with
  | none => cases failed
  | some weigh =>
    refine ⟨weigh, rfl, ?_⟩
    cases weighed : options.mapM fun option =>
        (weigh option cell).map fun weight => (option, effective weight) with
    | error cause =>
      simp only [byDraw, weighed] at failed
      cases failed
      exact exists_of_weigh_error weighed
    | ok weights =>
      simp only [byDraw, weighed] at failed
      cases failed

end Choice

/-- One of the options, and how many draws were taken in all once it is chosen. -/
def choose {κ : Type} (weighting : Option (Weighting κ)) (draws : Draws) (drawn : Nat) (cell : κ) :
    List Nat → Except Fault (Nat × Nat)
  | [] => .error .noOptions
  | [option] => .ok (option, drawn)
  | option :: second :: rest =>
    (Choice.byDraw weighting (draws drawn) cell (option :: second :: rest)
      ((second :: rest).getLast (by simp))).map fun tile => (tile, drawn + 1)

theorem mem_of_choose {κ : Type} {weighting : Option (Weighting κ)} {draws : Draws}
    {drawn after tile : Nat} {cell : κ} {options : List Nat}
    (chosen : choose weighting draws drawn cell options = .ok (tile, after)) : tile ∈ options := by
  match options with
  | [] => cases chosen
  | [_] =>
    cases chosen
    exact List.mem_cons_self
  | option :: second :: rest =>
    rw [choose] at chosen
    cases drew : Choice.byDraw weighting (draws drawn) cell (option :: second :: rest)
        ((second :: rest).getLast (by simp)) with
    | error reason =>
      rw [drew] at chosen
      cases chosen
    | ok picked =>
      rw [drew] at chosen
      cases chosen
      exact Choice.mem_of_byDraw (List.mem_cons_of_mem _ (List.getLast_mem _)) drew

/-- A choice among several options takes one draw, whatever the weights, and any other none. -/
theorem drawn_of_choose {κ : Type} {weighting : Option (Weighting κ)} {draws : Draws}
    {drawn after tile : Nat} {cell : κ} {options : List Nat}
    (chosen : choose weighting draws drawn cell options = .ok (tile, after)) :
    after = drawn + if 2 ≤ options.length then 1 else 0 := by
  match options with
  | [] => cases chosen
  | [_] =>
    cases chosen
    rfl
  | option :: second :: rest =>
    rw [choose] at chosen
    cases drew : Choice.byDraw weighting (draws drawn) cell (option :: second :: rest)
        ((second :: rest).getLast (by simp)) with
    | error reason =>
      rw [drew] at chosen
      cases chosen
    | ok picked =>
      rw [drew] at chosen
      cases chosen
      simp

/-- There is a choice among any options, unless weighing one of them fails. -/
theorem exists_of_choose_error {κ : Type} {weighting : Option (Weighting κ)} {draws : Draws}
    {drawn : Nat} {cell : κ} {options : List Nat} {reason : Fault} (nonempty : options ≠ [])
    (failed : choose weighting draws drawn cell options = .error reason) :
    ∃ weigh, weighting = some weigh ∧ ∃ option ∈ options, weigh option cell = .error reason := by
  match options with
  | [] => exact absurd rfl nonempty
  | [_] => cases failed
  | option :: second :: rest =>
    rw [choose] at failed
    cases drew : Choice.byDraw weighting (draws drawn) cell (option :: second :: rest)
        ((second :: rest).getLast (by simp)) with
    | error cause =>
      rw [drew] at failed
      cases failed
      exact Choice.exists_of_byDraw_error drew
    | ok picked =>
      rw [drew] at failed
      cases failed

end Tiling
