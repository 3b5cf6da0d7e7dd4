import Mathlib.Data.Int.ModEq
import Mathlib.Data.List.Rotate
import Tiling.Proofs.SortedMap
import Tiling.Tile.Turn

/-!
Turning a tile. A turn rotates what stands along an order of slots, so that turns add up and only
their sum round the order counts. What stands on a slot keeps to one law for sockets and plug sets:
both are laid out along the order, rotated and laid back.
-/

namespace Tiling

section Lists

variable {α : Type}

private theorem kept_modEq (steps : Int) {length : Nat} (nonempty : 0 < length) :
    ((length - (steps % length).toNat : Nat) : Int) ≡ -steps [ZMOD length] := by
  have least := Int.emod_nonneg steps (by omega : (length : Int) ≠ 0)
  have most := Int.emod_lt_of_pos steps (by omega : (0 : Int) < length)
  have cast : ((length - (steps % length).toNat : Nat) : Int) = length - steps % length := by omega
  rw [cast]
  calc (length : Int) - steps % length ≡ 0 - steps [ZMOD length] :=
        Int.ModEq.sub (by simp [Int.ModEq]) (Int.mod_modEq steps length)
    _ = -steps := by omega

theorem turn_eq_rotate (steps : Int) (items : List α) :
    turn steps items = items.rotate (items.length - (steps % items.length).toNat) :=
  (List.rotate_eq_drop_append_take (Nat.sub_le ..)).symm

@[simp] theorem length_turn (steps : Int) (items : List α) :
    (turn steps items).length = items.length := by
  rw [turn_eq_rotate, List.length_rotate]

private theorem rotate_congr {items : List α} {one other : Nat}
    (same : (one : Int) ≡ other [ZMOD items.length]) : items.rotate one = items.rotate other := by
  rw [← List.rotate_mod items one, ← List.rotate_mod items other,
    (Int.natCast_modEq_iff.mp same : one % items.length = other % items.length)]

/-- A turn by a count goes to the right, and a turn by the opposite of one to the left. -/
theorem turn_eq_ite (steps : Int) (items : List α) :
    turn steps items =
      if 0 ≤ steps then items.rotateRight steps.natAbs else items.rotateLeft steps.natAbs := by
  by_cases few : items.length ≤ 1
  · match items, few with
    | [], _ => simp [turn]
    | [item], _ => simp [turn, List.rotateRight, List.rotateLeft]
  · unfold List.rotateRight List.rotateLeft
    simp only [few, if_false]
    split
    · rename_i right
      obtain ⟨count, rfl⟩ := Int.eq_ofNat_of_zero_le right
      rw [turn, ← Int.natCast_mod, Int.toNat_natCast, Int.natAbs_natCast]
    · have left : (steps.natAbs : Int) = -steps := by omega
      have below : steps.natAbs % items.length < items.length := Nat.mod_lt _ (by omega)
      rw [← List.rotate_eq_drop_append_take (Nat.le_of_lt below), turn_eq_rotate]
      apply rotate_congr
      rw [Int.natCast_mod, left]
      exact (kept_modEq steps (by omega)).trans (Int.mod_modEq _ _).symm

/-- One turn after another is the turn by their sum, of which only the rest round the list
counts. -/
theorem turn_turn {steps more total : Int} {items : List α}
    (sum : total ≡ steps + more [ZMOD items.length]) :
    turn more (turn steps items) = turn total items := by
  rcases Nat.eq_zero_or_pos items.length with empty | nonempty
  · simp [List.eq_nil_of_length_eq_zero empty, turn]
  · rw [turn_eq_rotate more, length_turn, turn_eq_rotate steps, turn_eq_rotate total,
      List.rotate_rotate]
    apply rotate_congr
    push_cast
    calc ((items.length - (steps % items.length).toNat : Nat) : Int) +
          ((items.length - (more % items.length).toNat : Nat) : Int)
        ≡ -steps + -more [ZMOD items.length] :=
          (kept_modEq steps nonempty).add (kept_modEq more nonempty)
      _ = -(steps + more) := by omega
      _ ≡ -total [ZMOD items.length] := sum.symm.neg
      _ ≡ ((items.length - (total % items.length).toNat : Nat) : Int) [ZMOD items.length] :=
          (kept_modEq total nonempty).symm

theorem turn_of_dvd {steps : Int} {items : List α} (whole : (items.length : Int) ∣ steps) :
    turn steps items = items := by
  rw [turn, Int.emod_eq_zero_of_dvd whole]
  simp

/-- A turn moves what stands at a place on by its steps, round the list. -/
theorem getElem?_turn (steps : Int) {items : List α} {place : Nat} (below : place < items.length) :
    (turn steps items)[((place + steps) % items.length).toNat]? = items[place]? := by
  have nonempty : 0 < items.length := Nat.zero_lt_of_lt below
  have least := Int.emod_nonneg (place + steps) (by omega : (items.length : Int) ≠ 0)
  have most := Int.emod_lt_of_pos (place + steps) (by omega : (0 : Int) < items.length)
  rw [turn_eq_rotate, List.getElem?_rotate (by omega)]
  have back : ((((place + steps) % items.length).toNat +
      (items.length - (steps % items.length).toNat) : Nat) : Int) ≡ place [ZMOD items.length] := by
    push_cast
    rw [Int.toNat_of_nonneg least]
    calc (place + steps) % items.length +
          ((items.length - (steps % items.length).toNat : Nat) : Int)
        ≡ (place + steps) + -steps [ZMOD items.length] :=
          (Int.mod_modEq _ _).add (kept_modEq steps nonempty)
      _ = place := by omega
  rw [(Int.natCast_modEq_iff.mp back : _ % _ = _ % _), Nat.mod_eq_of_lt below]

theorem target_lt (steps : Int) {items : List α} {place : Nat} {item : α}
    (found : items[place]? = some item) :
    ((place + steps) % items.length).toNat < items.length := by
  obtain ⟨below, -⟩ := List.getElem?_eq_some_iff.mp found
  have most := Int.emod_lt_of_pos (place + steps) (by omega : (0 : Int) < items.length)
  omega

end Lists

namespace Tile

variable {τ σ π : Type} [Key σ] [Key π]

/-- The first slot of an order on which a tile shows no socket or, if it shows one on each, the
first on which it has no plug set. -/
def missing? (tile : Tile τ σ π) (order : List σ) : Option σ :=
  (order.find? fun slot => (tile.sockets.get? slot).isNone).or
    (order.find? fun slot => (tile.plugs.get? slot).isNone)

section Along

variable {α : Type} {held : SortedMap σ α} {order : List σ} {values : List α}

theorem alongOrder_ok_iff (id : τ) :
    alongOrder id held order = .ok values ↔ order.map held.get? = values.map some := by
  induction order generalizing values with
  | nil => cases values <;> simp [alongOrder]
  | cons slot order ih =>
    unfold alongOrder
    cases found : held.get? slot with
    | none => cases values <;> simp [found]
    | some value =>
      cases values with
      | nil => cases alongOrder id held order <;> simp [Except.map]
      | cons first rest =>
        simp only [List.map_cons, found, List.cons.injEq, Option.some.injEq, ← ih]
        cases alongOrder id held order <;> simp [Except.map]

theorem alongOrder_error_iff (id : τ) {reason : TurnError τ σ} :
    alongOrder id held order = .error reason ↔
      ∃ slot, order.find? (fun slot => (held.get? slot).isNone) = some slot ∧
        reason = .missingPlug id slot := by
  induction order with
  | nil => simp [alongOrder]
  | cons slot order ih =>
    unfold alongOrder
    cases found : held.get? slot with
    | none => simp [found, eq_comm]
    | some value =>
      simp only [List.find?_cons, found, Option.isNone_some, ← ih]
      cases alongOrder id held order <;> simp [Except.map]

theorem exists_alongOrder (id : τ)
    (each : order.find? (fun slot => (held.get? slot).isNone) = none) :
    ∃ values, alongOrder id held order = .ok values := by
  cases laid : alongOrder id held order with
  | ok values => exact ⟨values, rfl⟩
  | error reason =>
    obtain ⟨slot, first, -⟩ := (alongOrder_error_iff id).mp laid
    cases each.symm.trans first

theorem exists_values_iff :
    (∃ values : List α, order.map held.get? = values.map some) ↔
      ∀ slot ∈ order, (held.get? slot).isSome = true := by
  induction order with
  | nil => exact ⟨fun _ => nofun, fun _ => ⟨[], rfl⟩⟩
  | cons slot order ih =>
    rw [List.forall_mem_cons, ← ih]
    constructor
    · rintro ⟨_ | ⟨value, values⟩, laid⟩
      · cases laid
      · obtain ⟨head, rest⟩ := List.cons.inj laid
        exact ⟨by rw [head]; rfl, values, rest⟩
    · rintro ⟨present, values, rest⟩
      obtain ⟨value, found⟩ := Option.isSome_iff_exists.mp present
      exact ⟨value :: values, by rw [List.map_cons, found, rest]; rfl⟩

theorem length_of_laid (laid : order.map held.get? = values.map some) :
    values.length = order.length := by
  simpa using (congrArg List.length laid).symm

theorem getElem?_of_laid (laid : order.map held.get? = values.map some) {place : Nat} {slot : σ}
    (found : order[place]? = some slot) : values[place]? = held.get? slot := by
  have same := congrArg (·[place]?) laid
  simp only [List.getElem?_map, found, Option.map_some] at same
  cases value : values[place]? with
  | none => simp [value] at same
  | some value' =>
    simp only [value, Option.map_some, Option.some.injEq] at same
    exact same.symm

theorem laid_ofList_zip (distinct : order.Nodup) (length : values.length = order.length) :
    order.map (SortedMap.ofList (order.zip values)).get? = values.map some := by
  apply List.ext_getElem?
  intro place
  rw [List.getElem?_map, List.getElem?_map]
  cases found : order[place]? with
  | none =>
    have beyond := List.getElem?_eq_none_iff.mp found
    rw [List.getElem?_eq_none (by omega)]
    rfl
  | some slot =>
    obtain ⟨below, -⟩ := List.getElem?_eq_some_iff.mp found
    rw [Option.map_some, SortedMap.get?_ofList_zip distinct length found,
      List.getElem?_eq_getElem (length ▸ below)]
    rfl

/-- What stood on a slot stands after a turn on the slot that comes so many steps later. -/
theorem get?_of_turned (distinct : order.Nodup) (laid : order.map held.get? = values.map some)
    (steps : Int) {place : Nat} {slot target : σ} (found : order[place]? = some slot)
    (later : order[((place + steps) % order.length).toNat]? = some target) :
    (SortedMap.ofList (order.zip (turn steps values))).get? target = held.get? slot := by
  have length := length_of_laid laid
  obtain ⟨below, -⟩ := List.getElem?_eq_some_iff.mp found
  rw [SortedMap.get?_ofList_zip distinct ((length_turn steps values).trans length) later, ← length,
    getElem?_turn steps (length ▸ below), getElem?_of_laid laid found]

theorem ofList_zip_of_laid (distinct : order.Nodup) (laid : order.map held.get? = values.map some)
    (only : ∀ slot, (held.get? slot).isSome = true → slot ∈ order) :
    SortedMap.ofList (order.zip values) = held := by
  refine SortedMap.eq_of_get?_eq fun slot => ?_
  by_cases listed : slot ∈ order
  · obtain ⟨place, found⟩ := List.getElem?_of_mem listed
    rw [SortedMap.get?_ofList_zip distinct (length_of_laid laid) found, getElem?_of_laid laid found]
  · rw [SortedMap.get?_ofList_zip_of_not_mem listed]
    cases held : held.get? slot with
    | none => rfl
    | some value => exact absurd (only slot (by simp [held])) listed

end Along

/-- The tile with sockets and plug sets laid along an order, turned by so many steps. -/
def laidAlong (tile : Tile τ σ π) (id : τ) (order : List σ) (steps : Int) (sockets : List π)
    (plugs : List (SortedSet π)) : Tile τ σ π where
  id
  sockets := .ofList (order.zip (turn steps sockets))
  plugs := .ofList (order.zip (turn steps plugs))
  weight := tile.weight

variable {tile result : Tile τ σ π} {id : τ} {order : List σ} {steps : Int}

theorem turned_of_laid {sockets : List π} {plugs : List (SortedSet π)}
    (shown : alongOrder tile.id tile.sockets order = .ok sockets)
    (accepted : alongOrder tile.id tile.plugs order = .ok plugs) :
    tile.turned id order steps = if order = [] then .error .emptySlots else
      .ok (tile.laidAlong id order steps sockets plugs) := by
  have sizes : sockets.length = order.length ∧ plugs.length = order.length :=
    ⟨length_of_laid ((alongOrder_ok_iff _).mp shown),
      length_of_laid ((alongOrder_ok_iff _).mp accepted)⟩
  have empty : (sockets = [] ↔ order = []) ∧ (plugs = [] ↔ order = []) := by
    simp only [← List.length_eq_zero_iff, sizes, and_self]
  unfold turned turn?
  simp only [shown, accepted, bind, Except.bind, List.isEmpty_iff, empty]
  by_cases none : order = []
  · simp only [none, if_true]
  · simp only [none, if_false]
    rfl

theorem turned_ok_iff :
    tile.turned id order steps = .ok result ↔ order ≠ [] ∧ ∃ sockets plugs,
      order.map tile.sockets.get? = sockets.map some ∧
      order.map tile.plugs.get? = plugs.map some ∧
      result = tile.laidAlong id order steps sockets plugs := by
  simp only [← alongOrder_ok_iff tile.id]
  cases shown : alongOrder tile.id tile.sockets order with
  | error reason => simp [turned, shown, bind, Except.bind]
  | ok sockets =>
    cases accepted : alongOrder tile.id tile.plugs order with
    | error reason => simp [turned, shown, accepted, bind, Except.bind]
    | ok plugs =>
      rw [turned_of_laid shown accepted]
      by_cases empty : order = [] <;> simp [empty, eq_comm]

theorem turned_error_iff {reason : TurnError τ σ} :
    tile.turned id order steps = .error reason ↔ order = [] ∧ reason = .emptySlots ∨
      ∃ slot, tile.missing? order = some slot ∧ reason = .missingPlug tile.id slot := by
  have nonempty : ∀ {slot : σ} {lacks : σ → Bool}, order.find? lacks = some slot → order ≠ [] := by
    rintro slot lacks first rfl
    cases first
  unfold missing?
  cases unshown : order.find? fun slot => (tile.sockets.get? slot).isNone with
  | some slot =>
    have failed := (alongOrder_error_iff tile.id).mpr ⟨slot, unshown, rfl⟩
    simp [turned, failed, bind, Except.bind, nonempty unshown, eq_comm]
  | none =>
    obtain ⟨sockets, shown⟩ := exists_alongOrder tile.id unshown
    rw [Option.none_or]
    cases refused : order.find? fun slot => (tile.plugs.get? slot).isNone with
    | some slot =>
      have failed := (alongOrder_error_iff tile.id).mpr ⟨slot, refused, rfl⟩
      simp [turned, shown, failed, bind, Except.bind, nonempty refused, eq_comm]
    | none =>
      obtain ⟨plugs, accepted⟩ := exists_alongOrder tile.id refused
      rw [turned_of_laid shown accepted]
      by_cases empty : order = [] <;> simp [empty, eq_comm]

theorem carried_of_turned (distinct : order.Nodup)
    (turned : tile.turned id order steps = .ok result) {place : Nat} {slot target : σ}
    (found : order[place]? = some slot)
    (later : order[((place + steps) % order.length).toNat]? = some target) :
    result.socket? target = tile.socket? slot ∧
      result.plugs.get? target = tile.plugs.get? slot := by
  obtain ⟨-, sockets, plugs, shown, accepted, rfl⟩ := turned_ok_iff.mp turned
  exact ⟨get?_of_turned distinct shown steps found later,
    get?_of_turned distinct accepted steps found later⟩

theorem exists_turned_iff (tile : Tile τ σ π) (id : τ) (order : List σ) (steps : Int) :
    (∃ result, tile.turned id order steps = .ok result) ↔
      order ≠ [] ∧ ∀ slot ∈ order,
        (tile.socket? slot).isSome = true ∧ (tile.plugs.get? slot).isSome = true := by
  simp only [turned_ok_iff, forall_and, socket?, ← exists_values_iff]
  constructor
  · rintro ⟨-, nonempty, sockets, plugs, shown, accepted, -⟩
    exact ⟨nonempty, ⟨sockets, shown⟩, plugs, accepted⟩
  · rintro ⟨nonempty, ⟨sockets, shown⟩, plugs, accepted⟩
    exact ⟨_, nonempty, sockets, plugs, shown, accepted, rfl⟩

/-- Turning a turned tile along the same order turns the tile by the sum. -/
theorem turned_laidAlong (distinct : order.Nodup) (nonempty : order ≠ []) {sockets : List π}
    {plugs : List (SortedSet π)} (shown : order.map tile.sockets.get? = sockets.map some)
    (accepted : order.map tile.plugs.get? = plugs.map some) {more total : Int}
    (sum : total ≡ steps + more [ZMOD order.length]) (other : τ) :
    (tile.laidAlong id order steps sockets plugs).turned other order more =
      .ok (tile.laidAlong other order total sockets plugs) := by
  have length := length_of_laid shown
  have length' := length_of_laid accepted
  refine turned_ok_iff.mpr ⟨nonempty, turn steps sockets, turn steps plugs,
    laid_ofList_zip distinct ((length_turn ..).trans length),
    laid_ofList_zip distinct ((length_turn ..).trans length'), ?_⟩
  unfold laidAlong
  rw [turn_turn (length ▸ sum), turn_turn (length' ▸ sum)]

/-- A tile can be turned along distinct slots if there are any and it has a socket and a plug set on
each, and fails at the first where it lacks one. A turn carries both on by its steps round the order
and drops all other slots, turns add up round the order, and a turn all the way round a tile's own
slots gives it back. -/
theorem turned_exact (tile : Tile τ σ π) {order : List σ} (distinct : order.Nodup) (id : τ)
    (steps : Int) :
    ((∃ result, tile.turned id order steps = .ok result) ↔
      order ≠ [] ∧ ∀ slot ∈ order,
        (tile.socket? slot).isSome = true ∧ (tile.plugs.get? slot).isSome = true) ∧
    (∀ reason, tile.turned id order steps = .error reason ↔ order = [] ∧ reason = .emptySlots ∨
      ∃ slot, tile.missing? order = some slot ∧ reason = .missingPlug tile.id slot) ∧
    ∀ result, tile.turned id order steps = .ok result →
      result.id = id ∧ result.weight = tile.weight ∧
      (∀ (place : Nat) slot, order[place]? = some slot →
        ∃ target, order[((place + steps) % order.length).toNat]? = some target ∧
          result.socket? target = tile.socket? slot ∧
          result.plugs.get? target = tile.plugs.get? slot) ∧
      (∀ slot ∉ order, result.socket? slot = none ∧ result.plugs.get? slot = none) ∧
      (∀ more total, total ≡ steps + more [ZMOD order.length] → ∀ other, ∃ final,
        result.turned other order more = .ok final ∧ tile.turned other order total = .ok final) ∧
      ((∀ slot, (tile.socket? slot).isSome = true ↔ slot ∈ order) →
        (∀ slot, (tile.plugs.get? slot).isSome = true ↔ slot ∈ order) →
        (order.length : Int) ∣ steps →
        result.sockets = tile.sockets ∧ result.plugs = tile.plugs) := by
  refine ⟨tile.exists_turned_iff id order steps, fun reason => turned_error_iff,
    fun result turned => ?_⟩
  have ⟨nonempty, sockets, plugs, shown, accepted, same⟩ := turned_ok_iff.mp turned
  subst same
  refine ⟨rfl, rfl, fun place slot found => ?_, fun slot absent => ?_, ?_, ?_⟩
  · have later := List.getElem?_eq_getElem (target_lt steps found)
    exact ⟨_, later, carried_of_turned distinct turned found later⟩
  · exact ⟨SortedMap.get?_ofList_zip_of_not_mem absent,
      SortedMap.get?_ofList_zip_of_not_mem absent⟩
  · intro more total sum other
    refine ⟨_, turned_laidAlong distinct nonempty shown accepted sum other, ?_⟩
    exact turned_ok_iff.mpr ⟨nonempty, sockets, plugs, shown, accepted, rfl⟩
  · intro ownSockets ownPlugs whole
    have round : (sockets.length : Int) ∣ steps := length_of_laid shown ▸ whole
    have round' : (plugs.length : Int) ∣ steps := length_of_laid accepted ▸ whole
    unfold laidAlong
    rw [turn_of_dvd round, turn_of_dvd round']
    exact ⟨ofList_zip_of_laid distinct shown fun slot => (ownSockets slot).mp,
      ofList_zip_of_laid distinct accepted fun slot => (ownPlugs slot).mp⟩

/-- A tile that shows and accepts another socket on each of three slots. -/
def banded : Tile Nat Nat Nat := .ofSockets 0 (.ofList [(0, 5), (1, 6), (2, 7)])

/-- Two steps back round three slots are one step on, also by the least count of 32 bits, which is
two less than a multiple of three. -/
theorem turned_exact_banded :
    ∃ result, banded.turned 1 [0, 1, 2] (-2147483648) = .ok result ∧
      result.socket? 0 = banded.socket? 2 ∧
      (∃ final, result.turned 2 [0, 1, 2] 2 = .ok final ∧
        banded.turned 2 [0, 1, 2] 3 = .ok final) ∧
      ∃ whole, banded.turned 2 [0, 1, 2] 3 = .ok whole ∧ whole.sockets = banded.sockets := by
  have distinct : [0, 1, 2].Nodup := by decide
  obtain ⟨works, -, laws⟩ := turned_exact banded distinct 1 (-2147483648)
  obtain ⟨works', -, laws'⟩ := turned_exact banded distinct 2 3
  obtain ⟨result, turned⟩ := works.mpr (by decide)
  obtain ⟨whole, turned'⟩ := works'.mpr (by decide)
  obtain ⟨-, -, carried, -, adds, -⟩ := laws result turned
  obtain ⟨-, -, -, -, -, gives⟩ := laws' whole turned'
  obtain ⟨target, later, shown, -⟩ := carried 2 2 rfl
  cases later
  have shows : ∀ slot, (banded.socket? slot).isSome = true ↔ slot ∈ banded.sockets.keys :=
    fun slot => Option.isSome_iff_exists.trans SortedMap.mem_keys_iff.symm
  have accepts : ∀ slot, (banded.plugs.get? slot).isSome = true ↔ slot ∈ banded.plugs.keys :=
    fun slot => Option.isSome_iff_exists.trans SortedMap.mem_keys_iff.symm
  exact ⟨result, turned, shown, adds 2 3 (by decide) 2, whole, turned',
    (gives shows accepts (by decide)).1⟩

end Tile

end Tiling
