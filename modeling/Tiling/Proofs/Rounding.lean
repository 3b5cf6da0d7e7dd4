import Mathlib

/-!
Rounding of numbers that are not negative to doubles. A number is rounded to a nearest whole number
of the steps that doubles have there. So no double lies strictly between a number and what it is
rounded to, and a bound that is a double holds of a rounded sum or product if it holds of the exact
one.
-/

namespace Tiling.Rounding

open Float.Model Float.Model.UnpackedFloat

/-- The doubles of a number that is not negative. -/
inductive Denotes : UnpackedFloat → ℚ → Prop where
  | zero (sign : Sign) : Denotes (.zero sign) 0
  | finite {mantissa : Nat} {exponent : Int} (positive : 0 < mantissa) (few : mantissa < 2 ^ 53)
      (lowest : -1074 ≤ exponent) (full : exponent = -1074 ∨ 2 ^ 52 ≤ mantissa) :
      Denotes (.finite .positive mantissa exponent positive) (mantissa * 2 ^ exponent)

/-- No double lies strictly between a number and what it is rounded to. -/
def RoundsTo (exact rounded : ℚ) : Prop :=
  ∀ mantissa : Nat, mantissa ≤ 2 ^ 53 → ∀ exponent : Int, -1074 ≤ exponent →
    ((mantissa : ℚ) * 2 ^ exponent ≤ exact → (mantissa : ℚ) * 2 ^ exponent ≤ rounded) ∧
    (exact ≤ (mantissa : ℚ) * 2 ^ exponent → rounded ≤ (mantissa : ℚ) * 2 ^ exponent)

/-- The rounded number is a nearest whole number of steps, of 53 bits or in the least place. -/
inductive Nearest (exact : ℚ) : ℚ → Prop where
  | count {place : Int} {steps : Nat} (lowest : -1074 ≤ place)
      (near : |exact - steps * 2 ^ place| ≤ 2 ^ place / 2)
      (full : place = -1074 ∨ 2 ^ 52 * 2 ^ place ≤ exact) : Nearest exact (steps * 2 ^ place)

theorem Nearest.zero : Nearest 0 0 := by
  have near : |0 - ((0 : Nat) : ℚ) * 2 ^ (-1074 : Int)| ≤ 2 ^ (-1074 : Int) / 2 := by
    rw [Nat.cast_zero, zero_mul, sub_zero, abs_zero]
    positivity
  have counted := Nearest.count le_rfl near (.inl rfl)
  rwa [Nat.cast_zero, zero_mul] at counted

theorem RoundsTo.refl (number : ℚ) : RoundsTo number number :=
  fun _ _ _ _ => ⟨id, id⟩

theorem RoundsTo.eq_of_double {exact rounded : ℚ} (rounds : RoundsTo exact rounded)
    {mantissa : Nat} {exponent : Int} (few : mantissa ≤ 2 ^ 53) (lowest : -1074 ≤ exponent)
    (double : exact = mantissa * 2 ^ exponent) : rounded = exact := by
  obtain ⟨below, above⟩ := rounds mantissa few exponent lowest
  rw [double]
  exact le_antisymm (above double.le) (below double.ge)

theorem Denotes.nonneg {float : UnpackedFloat} {number : ℚ} (denotes : Denotes float number) :
    0 ≤ number := by
  cases denotes with
  | zero => exact le_rfl
  | finite => positivity

section Places

theorem mul_zpow_of_le (mantissa : Nat) {exponent place : Int} (below : place ≤ exponent) :
    (mantissa : ℚ) * 2 ^ exponent =
      (mantissa * 2 ^ (exponent - place).toNat : Nat) * 2 ^ place := by
  have split : exponent = ((exponent - place).toNat : Int) + place := by omega
  conv_lhs => rw [split, zpow_add₀ (by norm_num), zpow_natCast]
  push_cast
  ring

theorem steps_le_of_near {steps count : Nat} {place : Int} {exact : ℚ}
    (near : |exact - steps * 2 ^ place| ≤ 2 ^ place / 2) (most : exact ≤ count * 2 ^ place) :
    steps ≤ count := by
  have step : (0 : ℚ) < 2 ^ place := by positivity
  have less : (steps : ℚ) < count + 1 := by
    apply lt_of_mul_lt_mul_right _ step.le
    linarith [(abs_le.mp near).1]
  exact Nat.le_of_lt_succ (by exact_mod_cast less)

theorem le_steps_of_near {steps count : Nat} {place : Int} {exact : ℚ}
    (near : |exact - steps * 2 ^ place| ≤ 2 ^ place / 2) (least : count * 2 ^ place ≤ exact) :
    count ≤ steps := by
  have step : (0 : ℚ) < 2 ^ place := by positivity
  have less : (count : ℚ) < steps + 1 := by
    apply lt_of_mul_lt_mul_right _ step.le
    linarith [(abs_le.mp near).2]
  exact Nat.le_of_lt_succ (by exact_mod_cast less)

/-- Above the place of a rounded number, doubles are whole numbers of its steps, and those below it
all lie below its first 53 bits. -/
theorem Nearest.roundsTo {exact rounded : ℚ} (nearest : Nearest exact rounded) :
    RoundsTo exact rounded := by
  cases nearest with
  | @count place steps lowest near full =>
    intro mantissa few exponent least
    rcases le_or_gt place exponent with above | below
    · rw [mul_zpow_of_le mantissa above]
      constructor
      · intro under
        gcongr
        exact le_steps_of_near near under
      · intro capped
        gcongr
        exact steps_le_of_near near capped
    · have normal : 2 ^ 52 * 2 ^ place ≤ exact := full.resolve_left (by omega)
      have bounded : (mantissa : ℚ) * 2 ^ exponent ≤ (2 ^ 52 : Nat) * 2 ^ place := by
        calc (mantissa : ℚ) * 2 ^ exponent
          _ ≤ (2 ^ 53 : Nat) * 2 ^ (place - 1) := by
            gcongr
            · norm_num
            · omega
          _ = (2 ^ 52 : Nat) * 2 ^ place := by
            rw [zpow_sub₀ (by norm_num)]
            push_cast
            ring
      have reached : ((2 ^ 52 : Nat) : ℚ) * 2 ^ place ≤ exact := by exact_mod_cast normal
      constructor
      · intro
        apply bounded.trans
        gcongr
        exact le_steps_of_near near reached
      · intro capped
        refine le_trans ?_ (reached.trans capped)
        gcongr
        exact steps_le_of_near near (capped.trans bounded)

/-- Rounding a number of less than 53 bits in a place errs by half a step there at most. -/
theorem Nearest.abs_sub_le {exact rounded : ℚ} (nearest : Nearest exact rounded) {exponent : Int}
    (least : -1074 ≤ exponent) (less : exact < 2 ^ 53 * 2 ^ exponent) :
    |exact - rounded| ≤ 2 ^ exponent / 2 := by
  cases nearest with
  | @count place steps lowest near full =>
    have below : place ≤ exponent := by
      rcases full with rfl | normal
      · exact least
      · have powers : (2 : ℚ) ^ (52 + place) < 2 ^ (53 + exponent) := by
          rw [zpow_add₀ (by norm_num), zpow_add₀ (by norm_num)]
          exact normal.trans_lt less
        have bits := (zpow_lt_zpow_iff_right₀ (by norm_num)).mp powers
        omega
    refine near.trans ?_
    gcongr
    norm_num

end Places

section Round

/-- The exponent at which a double holds a number. -/
def placeOf (mantissa : Nat) (exponent : Int) : Int :=
  max (mantissa.log2 + 1 + exponent - 53) (-1074)

theorem targetExponent_eq (mantissa : Nat) (exponent : Int) :
    Format.binary64.targetExponent (totalExponent mantissa exponent) = placeOf mantissa exponent :=
  rfl

theorem mantissa_shiftRight (extended : ExtendedMantissa) (places : Nat) :
    (extended >>> places).mantissa = extended.mantissa / 2 ^ places := by
  induction places with
  | zero => simp [HShiftRight.hShiftRight, Nat.repeat]
  | succ places ih =>
    change (ExtendedMantissa.shiftRightOne (extended >>> places)).mantissa = _
    rw [ExtendedMantissa.shiftRightOne, ih, Nat.div_div_eq_div_mul, pow_succ]

theorem shiftRight_of_dvd {mantissa places : Nat} (whole : 2 ^ places ∣ mantissa) :
    (⟨mantissa, false, false⟩ : ExtendedMantissa) >>> places =
      ⟨mantissa / 2 ^ places, false, false⟩ := by
  induction places with
  | zero => simp [HShiftRight.hShiftRight, Nat.repeat]
  | succ places ih =>
    change ExtendedMantissa.shiftRightOne
      ((⟨mantissa, false, false⟩ : ExtendedMantissa) >>> places) = _
    rw [ih (dvd_trans (pow_dvd_pow 2 (Nat.le_succ places)) whole)]
    obtain ⟨factor, rfl⟩ := whole
    have even : 2 ^ (places + 1) * factor / 2 ^ places = 2 * factor := by
      rw [pow_succ, mul_assoc]
      exact Nat.mul_div_cancel_left _ (by positivity)
    simp [ExtendedMantissa.shiftRightOne, even]

/-- A number from its whole part to the next one, by what the bits left of it say. -/
inductive Locates : ExtendedMantissa → ℚ → Prop where
  | whole (mantissa : Nat) : Locates ⟨mantissa, false, false⟩ mantissa
  | low {mantissa : Nat} {number : ℚ} (above : mantissa < number)
      (below : number < mantissa + 1 / 2) : Locates ⟨mantissa, false, true⟩ number
  | half (mantissa : Nat) : Locates ⟨mantissa, true, false⟩ (mantissa + 1 / 2)
  | high {mantissa : Nat} {number : ℚ} (above : mantissa + 1 / 2 < number)
      (below : number < mantissa + 1) : Locates ⟨mantissa, true, true⟩ number

theorem shiftRightOne_even (half : Nat) (round sticky : Bool) :
    ExtendedMantissa.shiftRightOne ⟨2 * half, round, sticky⟩ = ⟨half, false, round || sticky⟩ := by
  simp [ExtendedMantissa.shiftRightOne]

theorem shiftRightOne_odd (half : Nat) (round sticky : Bool) :
    ExtendedMantissa.shiftRightOne ⟨2 * half + 1, round, sticky⟩ =
      ⟨half, true, round || sticky⟩ := by
  simp [ExtendedMantissa.shiftRightOne]
  omega

/-- Halving a number makes its last bit the round bit, and what was less sticks. -/
theorem Locates.shiftRightOne {extended : ExtendedMantissa} {number : ℚ}
    (locates : Locates extended number) : Locates extended.shiftRightOne (number / 2) := by
  obtain ⟨mantissa, round, sticky⟩ := extended
  obtain ⟨half, rfl | rfl⟩ := Nat.even_or_odd' mantissa
  · have even : ((2 * half : Nat) : ℚ) = 2 * half := by push_cast; rfl
    rw [shiftRightOne_even]
    cases locates with
    | whole =>
      rw [even, mul_div_cancel_left₀ _ two_ne_zero]
      exact .whole half
    | low above below => exact .low (by linarith) (by linarith)
    | half => exact .low (by linarith) (by linarith)
    | high above below => exact .low (by linarith) (by linarith)
  · have odd : ((2 * half + 1 : Nat) : ℚ) = 2 * half + 1 := by push_cast; rfl
    rw [shiftRightOne_odd]
    cases locates with
    | whole =>
      rw [odd, add_div, mul_div_cancel_left₀ _ two_ne_zero]
      exact .half half
    | low above below => exact .high (by linarith) (by linarith)
    | half => exact .high (by linarith) (by linarith)
    | high above below => exact .high (by linarith) (by linarith)

/-- By induction on the places, shifting a mantissa locates it in the last of them. -/
theorem Locates.shiftRight (mantissa places : Nat) :
    Locates ((⟨mantissa, false, false⟩ : ExtendedMantissa) >>> places) (mantissa / 2 ^ places) := by
  induction places with
  | zero => simpa [HShiftRight.hShiftRight, Nat.repeat] using Locates.whole mantissa
  | succ places ih =>
    rw [pow_succ, ← div_div]
    exact ih.shiftRightOne

theorem Locates.near {extended : ExtendedMantissa} {number : ℚ}
    (locates : Locates extended number) : |number - extended.roundedMantissa| ≤ 1 / 2 := by
  rw [abs_le]
  cases locates with
  | whole mantissa =>
    change _ ≤ (mantissa : ℚ) - mantissa ∧ (mantissa : ℚ) - mantissa ≤ _
    norm_num
  | @low mantissa _ above below =>
    change _ ≤ number - mantissa ∧ number - mantissa ≤ _
    constructor <;> linarith
  | half mantissa =>
    change _ ≤ (mantissa : ℚ) + 1 / 2 - (mantissa + mantissa % 2 : Nat) ∧
      (mantissa : ℚ) + 1 / 2 - (mantissa + mantissa % 2 : Nat) ≤ _
    rcases Nat.mod_two_eq_zero_or_one mantissa with even | odd
    · rw [even]
      norm_num
    · rw [odd]
      push_cast
      constructor <;> linarith
  | @high mantissa _ above below =>
    change _ ≤ number - (mantissa + 1 : Nat) ∧ number - (mantissa + 1 : Nat) ≤ _
    push_cast
    constructor <;> linarith

theorem roundedMantissa_bounds (extended : ExtendedMantissa) :
    extended.mantissa ≤ extended.roundedMantissa ∧
      extended.roundedMantissa ≤ extended.mantissa + 1 := by
  obtain ⟨mantissa, _ | _, _ | _⟩ := extended <;>
    simp [ExtendedMantissa.roundedMantissa, ExtendedMantissa.accuracy,
      Accuracy.roundToNearestEven]
  omega

theorem shiftToExponent_of_le {mantissa : Nat} {exponent place : Int} (below : place ≤ exponent) :
    shiftToExponent mantissa exponent .exact place = (⟨mantissa, false, false⟩, exponent) := by
  have none : (place - exponent).toNat = 0 := by omega
  simp [shiftToExponent, none, ExtendedMantissa.ofMantissaAndAccuracy, HShiftRight.hShiftRight,
    Nat.repeat]

theorem shiftToTargetExponent_of_lt {mantissa : Nat} {place : Int} (lowest : -1074 ≤ place)
    (few : mantissa < 2 ^ 53) :
    shiftToTargetExponent Format.binary64 mantissa place .exact =
      (⟨mantissa, false, false⟩, place) := by
  apply shiftToExponent_of_le
  rw [targetExponent_eq, placeOf]
  by_cases none : mantissa = 0
  · subst none
    simp [lowest]
    omega
  · have bits := (Nat.log2_lt none).mpr few
    omega

theorem shiftToTargetExponent_pow {place : Int} (lowest : -1074 ≤ place) :
    shiftToTargetExponent Format.binary64 (2 ^ 53) place .exact =
      (⟨2 ^ 52, false, false⟩, place + 1) := by
  have next : Format.binary64.targetExponent (totalExponent (2 ^ 53) place) = place + 1 := by
    rw [targetExponent_eq, placeOf, Nat.log2_two_pow]
    omega
  have single : (place + 1 - place).toNat = 1 := by omega
  simp only [shiftToTargetExponent, next, shiftToExponent, single,
    ExtendedMantissa.ofMantissaAndAccuracy]
  rw [shiftRight_of_dvd (by norm_num)]
  norm_num

/-- A mantissa that rounding carried past 53 bits is a power of two, and goes one place up. -/
theorem denotes_shifted {rounded : Nat} {place : Int} (lowest : -1074 ≤ place)
    (most : rounded ≤ 2 ^ 53) (full : place = -1074 ∨ 2 ^ 52 ≤ rounded) :
    Denotes
      (if none : (shiftToTargetExponent Format.binary64 rounded place .exact).1.mantissa = 0 then
        .zero .positive
      else
        .finite .positive (shiftToTargetExponent Format.binary64 rounded place .exact).1.mantissa
          (shiftToTargetExponent Format.binary64 rounded place .exact).2
          (Nat.pos_of_ne_zero none))
      (rounded * 2 ^ place) := by
  by_cases carried : rounded = 2 ^ 53
  · subst carried
    have same : ((2 ^ 53 : Nat) : ℚ) * 2 ^ place = (2 ^ 52 : Nat) * 2 ^ (place + 1) := by
      rw [zpow_add₀ (by norm_num)]
      push_cast
      ring
    rw [same]
    simp only [shiftToTargetExponent_pow lowest]
    rw [dif_neg (by positivity)]
    exact .finite _ (by norm_num) (by omega) (.inr le_rfl)
  · simp only [shiftToTargetExponent_of_lt lowest (lt_of_le_of_ne most carried)]
    by_cases none : rounded = 0
    · subst none
      simpa using Denotes.zero .positive
    · rw [dif_neg none]
      exact .finite _ (lt_of_le_of_ne most carried) lowest full

theorem whole_bounds {mantissa : Nat} {exponent : Int} (positive : 0 < mantissa)
    (below : exponent ≤ placeOf mantissa exponent) :
    mantissa / 2 ^ (placeOf mantissa exponent - exponent).toNat < 2 ^ 53 ∧
      (placeOf mantissa exponent = -1074 ∨
        2 ^ 52 ≤ mantissa / 2 ^ (placeOf mantissa exponent - exponent).toNat) := by
  have high : mantissa.log2 + 1 + exponent - 53 ≤ placeOf mantissa exponent := le_max_left ..
  constructor
  · rw [Nat.div_lt_iff_lt_mul (by positivity), ← pow_add]
    exact lt_of_lt_of_le Nat.lt_log2_self (Nat.pow_le_pow_right (by norm_num) (by omega))
  · rcases max_choice (mantissa.log2 + 1 + exponent - 53) (-1074) with place | place
    · right
      rw [Nat.le_div_iff_mul_le (by positivity), ← pow_add]
      refine le_trans (Nat.pow_le_pow_right (by norm_num) ?_) (Nat.log2_self_le positive.ne')
      rw [placeOf] at below ⊢
      omega
    · left
      exact place

theorem exists_roundWithAccuracy {mantissa : Nat} {exponent : Int} (positive : 0 < mantissa)
    (below : exponent ≤ placeOf mantissa exponent) :
    ∃ rounded, Denotes (roundWithAccuracy Format.binary64 .positive mantissa exponent .exact)
      rounded ∧ Nearest (mantissa * 2 ^ exponent) rounded := by
  obtain ⟨few, full⟩ := whole_bounds positive below
  have lowest : -1074 ≤ placeOf mantissa exponent := le_max_right ..
  generalize placed : placeOf mantissa exponent = place at *
  have shifted : shiftToTargetExponent Format.binary64 mantissa exponent .exact =
      ((⟨mantissa, false, false⟩ : ExtendedMantissa) >>> (place - exponent).toNat, place) := by
    simp only [shiftToTargetExponent, targetExponent_eq, placed, shiftToExponent,
      ExtendedMantissa.ofMantissaAndAccuracy]
    congr 1
    omega
  have spread : (2 : ℚ) ^ place = (2 ^ (place - exponent).toNat : Nat) * 2 ^ exponent := by
    simpa using mul_zpow_of_le 1 below
  generalize (place - exponent).toNat = shift at *
  have counted : (mantissa : ℚ) * 2 ^ exponent = mantissa / 2 ^ shift * 2 ^ place := by
    rw [spread]
    push_cast
    field_simp
  obtain ⟨down, up⟩ :=
    roundedMantissa_bounds ((⟨mantissa, false, false⟩ : ExtendedMantissa) >>> shift)
  have near := (Locates.shiftRight mantissa shift).near
  rw [mantissa_shiftRight] at down up
  have denotes :=
    denotes_shifted lowest (le_trans up few) (full.imp_right fun normal => normal.trans down)
  refine ⟨_, by simpa only [roundWithAccuracy, shifted] using denotes, .count lowest ?_ ?_⟩
  · rw [counted, ← sub_mul, abs_mul, abs_of_pos (show (0 : ℚ) < 2 ^ place by positivity)]
    calc _
      _ ≤ 1 / 2 * (2 : ℚ) ^ place := mul_le_mul_of_nonneg_right near (by positivity)
      _ = 2 ^ place / 2 := by ring
  · refine full.imp_right fun normal => ?_
    rw [counted]
    gcongr
    rw [le_div_iff₀ (by positivity)]
    exact_mod_cast (Nat.le_div_iff_mul_le (by positivity)).mp normal

theorem placeOf_mul_pow {mantissa : Nat} (positive : 0 < mantissa) (exponent : Int) (shift : Nat) :
    placeOf (mantissa * 2 ^ shift) (exponent - shift) = placeOf mantissa exponent := by
  have bits : (mantissa * 2 ^ shift).log2 = mantissa.log2 + shift := by
    rw [Nat.log2_eq_iff (by positivity)]
    constructor
    · rw [pow_add]
      exact Nat.mul_le_mul_right _ (Nat.log2_self_le positive.ne')
    · rw [Nat.add_right_comm, pow_add]
      exact Nat.mul_lt_mul_of_pos_right Nat.lt_log2_self (by positivity)
  rw [placeOf, placeOf, bits]
  push_cast
  congr 1
  ring

theorem exists_round {mantissa : Nat} (positive : 0 < mantissa) (exponent : Int) :
    ∃ rounded,
      Denotes (UnpackedFloat.round Format.binary64 .positive mantissa exponent) rounded ∧
        Nearest (mantissa * 2 ^ exponent) rounded := by
  simp only [UnpackedFloat.round, decreaseExponent, targetExponent_eq, Nat.shiftLeft_eq]
  generalize amount : (exponent - placeOf mantissa exponent).toNat = shift
  have same : (mantissa : ℚ) * 2 ^ exponent =
      (mantissa * 2 ^ shift : Nat) * 2 ^ (exponent - shift) := by
    have written := mul_zpow_of_le mantissa (show exponent - (shift : Int) ≤ exponent by omega)
    have back : (exponent - (exponent - (shift : Int))).toNat = shift := by omega
    rwa [back] at written
  rw [same]
  refine exists_roundWithAccuracy (by positivity) ?_
  rw [placeOf_mul_pow positive]
  omega

theorem exists_normalize {mantissa : Nat} (positive : 0 < mantissa) (exponent : Int) :
    ∃ rounded, Denotes (normalize Format.binary64 mantissa exponent .positive) rounded ∧
      Nearest (mantissa * 2 ^ exponent) rounded := by
  have above : compare (mantissa : Int) 0 = .gt := Int.compare_eq_gt.mpr (by omega)
  rw [UnpackedFloat.normalize, above]
  exact exists_round positive exponent

end Round

section Operations

variable {first second : UnpackedFloat} {left right : ℚ}

theorem exists_mul (denotes : Denotes first left) (other : Denotes second right) :
    ∃ rounded, Denotes (UnpackedFloat.mul Format.binary64 first second) rounded ∧
      Nearest (left * right) rounded := by
  cases denotes with
  | zero sign =>
    rw [zero_mul]
    cases other with
    | zero => exact ⟨0, .zero _, .zero⟩
    | finite => exact ⟨0, .zero _, .zero⟩
  | @finite mantissa exponent positive few lowest full =>
    cases other with
    | zero =>
      rw [mul_zero]
      exact ⟨0, .zero _, .zero⟩
    | @finite factor shift nonzero few' lowest' full' =>
      have product : (mantissa : ℚ) * 2 ^ exponent * (factor * 2 ^ shift) =
          (mantissa * factor : Nat) * 2 ^ (exponent + shift) := by
        rw [zpow_add₀ (by norm_num)]
        push_cast
        ring
      rw [product]
      refine exists_roundWithAccuracy (Nat.mul_pos positive nonzero) ?_
      have bits : exponent = -1074 ∧ shift = -1074 ∨ 52 ≤ (mantissa * factor).log2 := by
        rcases full with small | normal
        · rcases full' with small' | normal'
          · exact .inl ⟨small, small'⟩
          · right
            rw [Nat.le_log2 (by positivity)]
            exact normal'.trans (Nat.le_mul_of_pos_left factor positive)
        · right
          rw [Nat.le_log2 (by positivity)]
          exact normal.trans (Nat.le_mul_of_pos_right mantissa nonzero)
      rw [placeOf]
      omega

theorem exists_add (denotes : Denotes first left) (other : Denotes second right) :
    ∃ rounded, Denotes (UnpackedFloat.add Format.binary64 first second) rounded ∧
      RoundsTo (left + right) rounded := by
  cases denotes with
  | zero sign =>
    rw [zero_add]
    cases other with
    | zero sign' => cases sign <;> cases sign' <;> exact ⟨0, .zero _, .refl 0⟩
    | finite positive few lowest full => exact ⟨_, .finite positive few lowest full, .refl _⟩
  | @finite mantissa exponent positive few lowest full =>
    cases other with
    | zero =>
      rw [add_zero]
      exact ⟨_, .finite positive few lowest full, .refl _⟩
    | @finite addend shift nonzero few' lowest' full' =>
      have sum : (mantissa : ℚ) * 2 ^ exponent + addend * 2 ^ shift =
          (mantissa * 2 ^ (exponent - min exponent shift).toNat +
            addend * 2 ^ (shift - min exponent shift).toNat : Nat) * 2 ^ min exponent shift := by
        rw [mul_zpow_of_le mantissa (min_le_left exponent shift),
          mul_zpow_of_le addend (min_le_right exponent shift), ← add_mul, Nat.cast_add]
      have added : 0 < mantissa * 2 ^ (exponent - min exponent shift).toNat +
          addend * 2 ^ (shift - min exponent shift).toNat := by positivity
      rw [sum]
      obtain ⟨rounded, denotes, nearest⟩ := exists_normalize added (min exponent shift)
      refine ⟨rounded, ?_, nearest.roundsTo⟩
      simpa [UnpackedFloat.add, decreaseExponent, Nat.shiftLeft_eq, Sign.apply] using denotes

theorem roundToInt_eq (mantissa : Nat) (exponent : Int) :
    roundToInt .positive mantissa exponent = ⌊(mantissa : ℚ) * 2 ^ exponent⌋₊ := by
  rcases le_or_gt 0 exponent with whole | fractional
  · have written := mul_zpow_of_le mantissa whole
    rw [zpow_zero, mul_one] at written
    have level : exponent - ((exponent - 0).toNat : Int) = 0 := by omega
    rw [written, Nat.floor_natCast, roundToInt, decreaseExponent, level]
    simp only [shiftToExponent_of_le le_rfl, Nat.shiftLeft_eq]
    rfl
  · have none : (exponent - 0).toNat = 0 := by omega
    have down : (mantissa : ℚ) * 2 ^ exponent = mantissa / (2 ^ (0 - exponent).toNat : Nat) := by
      have flipped : exponent = -((0 - exponent).toNat : Int) := by omega
      conv_lhs => rw [flipped, zpow_neg, zpow_natCast]
      push_cast
      rfl
    rw [down, Nat.floor_div_natCast, Nat.floor_natCast, roundToInt, decreaseExponent, none]
    simp only [shiftToExponent, ExtendedMantissa.ofMantissaAndAccuracy, mantissa_shiftRight]
    simp [Sign.apply]

theorem toNat_toUInt64 (denotes : Denotes first left) (fits : left < 2 ^ 64) :
    first.toUInt64.toNat = ⌊left⌋₊ := by
  have truncated : (first.toInt 0 (UInt64.size - 1)).toNat = ⌊left⌋₊ := by
    cases denotes with
    | zero => simp [UnpackedFloat.toInt]
    | @finite mantissa exponent =>
      rw [UnpackedFloat.toInt, roundToInt_eq, Int.toNat_natCast]
  rw [UnpackedFloat.toUInt64, truncated]
  apply UInt64.toNat_ofNatClamp_of_lt
  rw [Nat.floor_lt denotes.nonneg]
  exact fits.trans_eq (by norm_num [UInt64.size])

end Operations

end Tiling.Rounding
