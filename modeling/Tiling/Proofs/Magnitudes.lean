import Tiling.Proofs.Doubles

/-!
Doubles from zero up to infinity. Each has a size; doubles compare by their sizes, and a sum is no
smaller than its parts. A double scaled by less than one becomes smaller, unless it is infinite or
has so few bits that they are rounded to what they were.
-/

namespace Tiling.Rounding

open Float.Model Float.Model.UnpackedFloat

section Order

theorem mul_zpow_lt_of_lt {first second : Nat} {low high : Int} (few : first < 2 ^ 53)
    (lowest : -1074 ≤ low) (full : high = -1074 ∨ 2 ^ 52 ≤ second) (lower : low < high) :
    (first : ℚ) * 2 ^ low < second * 2 ^ high := by
  have normal : 2 ^ 52 ≤ second := full.resolve_left (by omega)
  calc (first : ℚ) * 2 ^ low
    _ < (2 ^ 53 : Nat) * 2 ^ low := by gcongr
    _ = (2 ^ 52 : Nat) * 2 ^ (low + 1) := by
      rw [zpow_add₀ (by norm_num)]
      push_cast
      ring
    _ ≤ second * 2 ^ high := by
      gcongr
      · norm_num
      · omega

theorem lt_iff_of_denotes {first second : UnpackedFloat} {left right : ℚ}
    (denotes : Denotes first left) (other : Denotes second right) :
    UnpackedFloat.lt first second = true ↔ left < right := by
  cases denotes with
  | zero =>
    cases other with
    | zero => simp [UnpackedFloat.lt, UnpackedFloat.compare]
    | @finite mantissa exponent positive few lowest full =>
      have above : (0 : ℚ) < mantissa * 2 ^ exponent := by positivity
      simp [UnpackedFloat.lt, UnpackedFloat.compare, above]
  | @finite mantissa exponent positive few lowest full =>
    cases other with
    | zero =>
      have above : (0 : ℚ) < mantissa * 2 ^ exponent := by positivity
      simp [UnpackedFloat.lt, UnpackedFloat.compare, above.not_gt]
    | @finite count place nonzero few' lowest' full' =>
      rcases lt_trichotomy exponent place with lower | rfl | higher
      · have less := mul_zpow_lt_of_lt few lowest full' lower
        simp [UnpackedFloat.lt, UnpackedFloat.compare, Int.compare_eq_lt.mpr lower, less]
      · have step : (0 : ℚ) < 2 ^ exponent := by positivity
        simp [UnpackedFloat.lt, UnpackedFloat.compare, step, Nat.compare_eq_lt]
      · have more := mul_zpow_lt_of_lt few' lowest' full higher
        simp [UnpackedFloat.lt, UnpackedFloat.compare, Int.compare_eq_gt.mpr higher, more.not_gt]

theorem eq_of_denotes {first second : UnpackedFloat} {number : ℚ} (denotes : Denotes first number)
    (other : Denotes second number) (positive : 0 < number) : first = second := by
  cases denotes with
  | zero => exact absurd positive (lt_irrefl 0)
  | @finite mantissa exponent _ few lowest full =>
    generalize same : (mantissa : ℚ) * 2 ^ exponent = number at other
    cases other with
    | zero => exact absurd same positive.ne'
    | @finite count place _ few' lowest' full' =>
      rcases lt_trichotomy exponent place with lower | rfl | higher
      · exact absurd same (mul_zpow_lt_of_lt few lowest full' lower).ne
      · have counts : (mantissa : ℚ) = count := mul_right_cancel₀ (by positivity) same
        cases Nat.cast_injective counts
        rfl
      · exact absurd same (mul_zpow_lt_of_lt few' lowest' full higher).ne'

variable {float : UnpackedFloat} {number : ℚ}

theorem lt_infinity_of_denotes (denotes : Denotes float number) :
    UnpackedFloat.lt float (.infinity .positive) = true := by
  cases denotes <;> rfl

theorem infinity_lt_of_denotes (denotes : Denotes float number) :
    UnpackedFloat.lt (.infinity .positive) float = false := by
  cases denotes <;> rfl

theorem add_infinity_of_denotes (denotes : Denotes float number) :
    UnpackedFloat.add Format.binary64 float (.infinity .positive) = .infinity .positive := by
  cases denotes <;> rfl

theorem infinity_add_of_denotes (denotes : Denotes float number) :
    UnpackedFloat.add Format.binary64 (.infinity .positive) float = .infinity .positive := by
  cases denotes <;> rfl

theorem eq_zero_of_denotes (denotes : Denotes float 0) : ∃ sign, float = .zero sign := by
  generalize none : (0 : ℚ) = number at denotes
  cases denotes with
  | zero sign => exact ⟨sign, rfl⟩
  | @finite mantissa exponent positive =>
    have above : (0 : ℚ) < mantissa * 2 ^ exponent := by positivity
    exact absurd none above.ne

theorem denotes_add_zero (denotes : Denotes float number) (sign : Sign) :
    Denotes (UnpackedFloat.add Format.binary64 float (.zero sign)) number := by
  cases denotes with
  | zero sign' => cases sign <;> cases sign' <;> exact .zero _
  | finite positive few lowest full => exact .finite positive few lowest full

theorem exists_double_of_denotes (denotes : Denotes float number) :
    ∃ mantissa : Nat, mantissa ≤ 2 ^ 53 ∧ ∃ exponent : Int, -1074 ≤ exponent ∧
      number = mantissa * 2 ^ exponent := by
  cases denotes with
  | zero => exact ⟨0, Nat.zero_le _, 0, by norm_num, by norm_num⟩
  | finite positive few lowest => exact ⟨_, few.le, _, lowest, rfl⟩

theorem RoundsTo.le_of_denotes {exact rounded : ℚ} (rounds : RoundsTo exact rounded)
    (denotes : Denotes float number) (least : number ≤ exact) : number ≤ rounded := by
  obtain ⟨mantissa, few, exponent, lowest, rfl⟩ := exists_double_of_denotes denotes
  exact (rounds mantissa few exponent lowest).1 least

theorem RoundsTo.ge_of_denotes {exact rounded : ℚ} (rounds : RoundsTo exact rounded)
    (denotes : Denotes float number) (most : exact ≤ number) : rounded ≤ number := by
  obtain ⟨mantissa, few, exponent, lowest, rfl⟩ := exists_double_of_denotes denotes
  exact (rounds mantissa few exponent lowest).2 most

end Order

theorem AmountsTo.lt_two_pow {float : Float} {number : ℚ} (amounts : AmountsTo float number) :
    number < 2 ^ 1024 := by
  rw [AmountsTo] at amounts
  generalize unpacked : float.toModel.unpack = stored at amounts
  cases amounts with
  | zero => positivity
  | @finite mantissa exponent positive few =>
    obtain ⟨-, -, highest, -⟩ := bounds_of_unpack unpacked
    calc (mantissa : ℚ) * 2 ^ exponent
      _ < (2 ^ 53 : Nat) * 2 ^ exponent := by gcongr
      _ = 2 ^ (53 + exponent) := by
        rw [zpow_add₀ (by norm_num)]
        norm_num
      _ ≤ 2 ^ (1024 : Int) := by
        gcongr
        · norm_num
        · omega

/-- The size of a double from zero on, infinity being above all numbers. -/
inductive Measures : Float → WithTop ℚ → Prop where
  | number {float : Float} {number : ℚ} (amounts : AmountsTo float number) : Measures float number
  | infinite {float : Float} (unpacked : float.toModel.unpack = .infinity .positive) :
      Measures float ⊤

theorem lt_iff_unpack {first second : Float} :
    first < second ↔
      UnpackedFloat.lt first.toModel.unpack second.toModel.unpack = true :=
  ⟨of_decide_eq_true, decide_eq_true⟩

theorem nonneg_of_pos {float : Float} (positive : 0 < float) : 0 ≤ float := by
  have ordered : UnpackedFloat.compare (0 : Float).toModel.unpack float.toModel.unpack = some .lt :=
    beq_iff_eq.mp (lt_iff_unpack.mp positive)
  have least : UnpackedFloat.le (0 : Float).toModel.unpack float.toModel.unpack = true := by
    rw [UnpackedFloat.le, ordered]
    rfl
  exact decide_eq_true least

theorem add_eq_pack (first second : Float) :
    first + second = .ofModel (.pack (UnpackedFloat.add Format.binary64 first.toModel.unpack
      second.toModel.unpack)) :=
  rfl

theorem mul_eq_pack (first second : Float) :
    first * second = .ofModel (.pack (UnpackedFloat.mul Format.binary64 first.toModel.unpack
      second.toModel.unpack)) :=
  rfl

theorem not_lt_of_notANumber {first second : Float}
    (unpacked : first.toModel.unpack = .notANumber) : ¬ first < second := by
  rw [lt_iff_unpack, unpacked]
  exact Bool.false_ne_true

theorem measures_zero : Measures 0 0 := .number (.zero .positive)

namespace Measures

variable {first second : Float} {left right : WithTop ℚ}

theorem nonneg (measures : Measures first left) : 0 ≤ left := by
  cases measures with
  | number amounts => exact_mod_cast Denotes.nonneg amounts
  | infinite => exact le_top

theorem amounts {number : ℚ} (measures : Measures first number) : AmountsTo first number := by
  generalize same : (number : WithTop ℚ) = size at measures
  cases measures with
  | number amounts =>
    cases WithTop.coe_injective same
    exact amounts
  | infinite => cases same

/-- Doubles compare by their sizes. -/
theorem lt_iff (measures : Measures first left) (other : Measures second right) :
    first < second ↔ left < right := by
  rw [lt_iff_unpack]
  cases measures with
  | number amounts =>
    cases other with
    | number amounts' => rw [lt_iff_of_denotes amounts amounts', WithTop.coe_lt_coe]
    | infinite unpacked =>
      rw [unpacked]
      simp [lt_infinity_of_denotes amounts]
  | infinite unpacked =>
    rw [unpacked]
    cases other with
    | number amounts' => simp [infinity_lt_of_denotes amounts']
    | infinite unpacked' =>
      rw [unpacked']
      simp [UnpackedFloat.lt, UnpackedFloat.compare]

theorem exists_of_nonneg {float : Float} (least : 0 ≤ float) : ∃ size, Measures float size := by
  have above : UnpackedFloat.le (.zero .positive) float.toModel.unpack = true :=
    of_decide_eq_true least
  cases unpacked : float.toModel.unpack with
  | notANumber =>
    rw [unpacked] at above
    cases above
  | zero sign =>
    refine ⟨(0 : ℚ), .number ?_⟩
    rw [AmountsTo, unpacked]
    exact .zero sign
  | infinity sign =>
    rw [unpacked] at above
    cases sign with
    | negative => cases above
    | positive => exact ⟨⊤, .infinite unpacked⟩
  | finite sign mantissa exponent positive =>
    rw [unpacked] at above
    cases sign with
    | negative => cases above
    | positive =>
      refine ⟨(mantissa * 2 ^ exponent : ℚ), .number ?_⟩
      rw [AmountsTo, unpacked]
      exact denotes_of_finite unpacked

/-- A number that is stored keeps its size, or becomes infinite. -/
theorem exists_pack {float : UnpackedFloat} {number : ℚ} (denotes : Denotes float number) :
    ∃ size, Measures (.ofModel (.pack float)) size ∧ (number : WithTop ℚ) ≤ size := by
  by_cases fits : number < 2 ^ 1024
  · exact ⟨number, .number (amountsTo_pack denotes fits), le_rfl⟩
  · exact ⟨⊤, .infinite (unpack_pack_of_le denotes (not_lt.mp fits)), le_top⟩

theorem exists_add (measures : Measures first left) (other : Measures second right) :
    ∃ size, Measures (first + second) size ∧ left ≤ size ∧ right ≤ size := by
  cases measures with
  | number amounts =>
    cases other with
    | number amounts' =>
      obtain ⟨rounded, denotes, rounds⟩ := Rounding.exists_add amounts amounts'
      obtain ⟨size, stored, least⟩ := exists_pack denotes
      have left_le := rounds.le_of_denotes amounts
        (le_add_of_nonneg_right (Denotes.nonneg amounts'))
      have right_le := rounds.le_of_denotes amounts'
        (le_add_of_nonneg_left (Denotes.nonneg amounts))
      exact ⟨size, stored, (WithTop.coe_le_coe.mpr left_le).trans least,
        (WithTop.coe_le_coe.mpr right_le).trans least⟩
    | infinite unpacked =>
      refine ⟨⊤, ?_, le_top, le_top⟩
      rw [add_eq_pack, unpacked, add_infinity_of_denotes amounts]
      exact .infinite rfl
  | infinite unpacked =>
    refine ⟨⊤, ?_, le_top, le_top⟩
    rw [add_eq_pack, unpacked]
    cases other with
    | number amounts' =>
      rw [infinity_add_of_denotes amounts']
      exact .infinite rfl
    | infinite unpacked' =>
      rw [unpacked']
      exact .infinite rfl

theorem add_zero (measures : Measures first left) (other : Measures second 0) :
    Measures (first + second) left := by
  obtain ⟨sign, zero⟩ := eq_zero_of_denotes other.amounts
  rw [add_eq_pack, zero]
  cases measures with
  | number amounts =>
    exact .number (amountsTo_pack (denotes_add_zero amounts sign) amounts.lt_two_pow)
  | infinite unpacked =>
    rw [unpacked, infinity_add_of_denotes (.zero sign)]
    exact .infinite rfl

end Measures

theorem exists_of_unit {float : Float} (least : 0 ≤ float) (less : float < 1) :
    ∃ number, AmountsTo float number ∧ number < 1 := by
  obtain ⟨size, measures⟩ := Measures.exists_of_nonneg least
  rw [measures.lt_iff (.number amountsTo_one)] at less
  cases measures with
  | number amounts => exact ⟨_, amounts, WithTop.coe_lt_coe.mp less⟩
  | infinite => exact absurd less not_top_lt

section Scaled

/-- What compares with doubles by their sizes alone. -/
def Compares (threshold : Float) : Prop :=
  threshold.toModel.unpack = .notANumber ∨ ∃ size, Measures threshold size

theorem Compares.lt_of_le {threshold first second : Float} {left right : WithTop ℚ}
    (compares : Compares threshold) (measures : Measures first left)
    (other : Measures second right) (most : left ≤ right) (below : threshold < first) :
    threshold < second := by
  rcases compares with none | ⟨size, measured⟩
  · exact absurd below (not_lt_of_notANumber none)
  · rw [measured.lt_iff measures] at below
    rw [measured.lt_iff other]
    exact below.trans_le most

theorem Compares.not_lt_zero {threshold first : Float} (compares : Compares threshold)
    (measures : Measures first 0) : ¬ threshold < first := by
  rcases compares with none | ⟨size, measured⟩
  · exact not_lt_of_notANumber none
  · rw [measured.lt_iff measures]
    exact measured.nonneg.not_gt

variable {draw total : Float} {share number : ℚ} {size : WithTop ℚ}

theorem AmountsTo.exists_scaled (drawn : AmountsTo draw share) (amounts : AmountsTo total number)
    (most : share ≤ 1) :
    ∃ rounded, AmountsTo (draw * total) rounded ∧ Nearest (share * number) rounded := by
  obtain ⟨rounded, denotes, nearest⟩ := Rounding.exists_mul drawn amounts
  have scaled : share * number ≤ number := mul_le_of_le_one_left (Denotes.nonneg amounts) most
  have fits := nearest.roundsTo.ge_of_denotes amounts scaled
  exact ⟨rounded, amountsTo_pack denotes (fits.trans_lt amounts.lt_two_pow), nearest⟩

/-- A scaled double compares with others by their sizes. It is no number if it is infinity scaled
by zero. -/
theorem compares_mul (least : 0 ≤ draw) (less : draw < 1) (measures : Measures total size) :
    Compares (draw * total) := by
  obtain ⟨share, drawn, below⟩ := exists_of_unit least less
  cases measures with
  | number amounts =>
    obtain ⟨rounded, product, -⟩ := drawn.exists_scaled amounts below.le
    exact .inr ⟨rounded, .number product⟩
  | infinite unpacked =>
    rw [mul_eq_pack, unpacked]
    rw [AmountsTo] at drawn
    generalize draw.toModel.unpack = float at drawn
    cases drawn with
    | zero sign =>
      change Compares (.ofModel (.pack .notANumber))
      exact .inl rfl
    | finite =>
      change Compares (.ofModel (.pack (.infinity .positive)))
      exact .inr ⟨⊤, .infinite rfl⟩

/-- The least double of 53 bits. -/
def leastNormal : Float := .ofBits 0x0010000000000000

/-- The greatest double below one. -/
def belowOne : Float := .ofBits 0x3FEFFFFFFFFFFFFF

theorem unpack_leastNormal :
    leastNormal.toModel.unpack = .finite .positive (2 ^ 52) (-1074) (by norm_num) :=
  rfl

theorem unpack_belowOne :
    belowOne.toModel.unpack = .finite .positive (2 ^ 53 - 1) (-53) (by norm_num) :=
  rfl

theorem amountsTo_leastNormal : AmountsTo leastNormal ((2 ^ 52 : Nat) * 2 ^ (-1074 : Int)) := by
  rw [AmountsTo, unpack_leastNormal]
  exact .finite _ (by norm_num) le_rfl (.inl rfl)

theorem amountsTo_belowOne : AmountsTo belowOne (1 - 1 / 2 ^ 53) := by
  have same : (1 - 1 / 2 ^ 53 : ℚ) = (2 ^ 53 - 1 : Nat) * 2 ^ (-53 : Int) := by norm_num
  rw [AmountsTo, unpack_belowOne, same]
  exact .finite _ (by norm_num) (by norm_num) (.inr (by norm_num))

theorem le_belowOne_of_denotes {float : UnpackedFloat} (denotes : Denotes float share)
    (less : share < 1) : share ≤ 1 - 1 / 2 ^ 53 := by
  cases denotes with
  | zero => norm_num
  | @finite mantissa exponent positive few lowest full =>
    have low : exponent ≤ -53 := by
      by_contra high
      have normal : 2 ^ 52 ≤ mantissa := full.resolve_left (by omega)
      apply less.not_ge
      calc (1 : ℚ)
        _ = (2 ^ 52 : Nat) * 2 ^ (-52 : Int) := by norm_num
        _ ≤ mantissa * 2 ^ exponent := by
          gcongr
          · norm_num
          · omega
    have fits : mantissa ≤ 2 ^ 53 - 1 := Nat.le_pred_of_lt few
    calc (mantissa : ℚ) * 2 ^ exponent
      _ ≤ (2 ^ 53 - 1 : Nat) * 2 ^ (-53 : Int) := by
        gcongr
        norm_num
      _ = 1 - 1 / 2 ^ 53 := by norm_num

/-- A number of 53 bits that is not the least of them becomes smaller. If it is a power of two, the
double before it is reached, and otherwise more than half a step is lost. -/
theorem Nearest.lt_of_scaled {float : UnpackedFloat} {exact rounded : ℚ}
    (nearest : Nearest exact rounded) (denotes : Denotes float number)
    (more : (2 ^ 52 : Nat) * 2 ^ (-1074 : Int) < number)
    (small : exact ≤ (1 - 1 / 2 ^ 53) * number) : rounded < number := by
  cases denotes with
  | zero => exact absurd more (not_lt.mpr (by positivity))
  | @finite mantissa exponent positive few lowest full =>
    have step : (0 : ℚ) < 2 ^ exponent := by positivity
    have normal : 2 ^ 52 ≤ mantissa := by
      rcases full with rfl | normal
      · have less := lt_of_mul_lt_mul_right more step.le
        exact_mod_cast less.le
      · exact normal
    rcases normal.lt_or_eq with above | rfl
    · have size : (2 : ℚ) ^ 52 * 2 ^ exponent < mantissa * 2 ^ exponent :=
        mul_lt_mul_of_pos_right (by exact_mod_cast above) step
      have most : (mantissa : ℚ) * 2 ^ exponent < 2 ^ 53 * 2 ^ exponent :=
        mul_lt_mul_of_pos_right (by exact_mod_cast few) step
      have error := nearest.abs_sub_le lowest (by linarith)
      linarith [(abs_le.mp error).1]
    · have higher : -1074 < exponent := by
        have powers := lt_of_mul_lt_mul_left more (by positivity)
        exact (zpow_lt_zpow_iff_right₀ (by norm_num)).mp powers
      have before : ((2 ^ 53 - 1 : Nat) : ℚ) * 2 ^ (exponent - 1) =
          (1 - 1 / 2 ^ 53) * ((2 ^ 52 : Nat) * 2 ^ exponent) := by
        rw [zpow_sub₀ (by norm_num)]
        norm_num
        ring
      calc rounded
        _ ≤ (2 ^ 53 - 1 : Nat) * 2 ^ (exponent - 1) :=
          (nearest.roundsTo _ (by norm_num) _ (by omega)).2 (before ▸ small)
        _ = (1 - 1 / 2 ^ 53) * ((2 ^ 52 : Nat) * 2 ^ exponent) := before
        _ < (2 ^ 52 : Nat) * 2 ^ exponent := by
          apply mul_lt_of_lt_one_left
          · positivity
          · norm_num

theorem Nearest.eq_of_scaled {float scaled : UnpackedFloat} {rounded : ℚ}
    (nearest : Nearest ((1 - 1 / 2 ^ 53) * number) rounded) (denotes : Denotes float number)
    (other : Denotes scaled rounded) (less : number < (2 ^ 52 : Nat) * 2 ^ (-1074 : Int)) :
    rounded = number := by
  obtain ⟨mantissa, -, exponent, lowest, rfl⟩ := exists_double_of_denotes denotes
  obtain ⟨count, -, place, lowest', rfl⟩ := exists_double_of_denotes other
  rw [mul_zpow_of_le mantissa lowest] at nearest less ⊢
  rw [mul_zpow_of_le count lowest'] at nearest ⊢
  generalize mantissa * 2 ^ (exponent - -1074).toNat = steps at *
  generalize count * 2 ^ (place - -1074).toNat = steps' at *
  have step : (0 : ℚ) < 2 ^ (-1074 : Int) := by positivity
  have nonneg : (0 : ℚ) ≤ steps * 2 ^ (-1074 : Int) := by positivity
  have few : (steps : ℚ) < 2 ^ 52 := by exact_mod_cast lt_of_mul_lt_mul_right less step.le
  have size : (steps : ℚ) * 2 ^ (-1074 : Int) < 2 ^ 52 * 2 ^ (-1074 : Int) :=
    mul_lt_mul_of_pos_right few step
  have near := nearest.abs_sub_le le_rfl (by linarith)
  have down : steps' ≤ steps := steps_le_of_near near (by linarith)
  have up : steps < steps' + 1 := by
    have above : (steps : ℚ) * 2 ^ (-1074 : Int) < (steps' + 1) * 2 ^ (-1074 : Int) := by
      linarith [(abs_le.mp near).2]
    exact_mod_cast lt_of_mul_lt_mul_right above step.le
  rw [Nat.le_antisymm down (Nat.le_of_lt_succ up)]

theorem mul_leastNormal :
    UnpackedFloat.mul Format.binary64 belowOne.toModel.unpack leastNormal.toModel.unpack =
      leastNormal.toModel.unpack := by
  rfl

theorem belowOne_bounds : 0 ≤ belowOne ∧ belowOne < 1 := by decide +kernel

theorem amountsTo_belowOne_mul (amounts : AmountsTo total number)
    (small : number ≤ (2 ^ 52 : Nat) * 2 ^ (-1074 : Int)) :
    AmountsTo (belowOne * total) number := by
  rcases small.lt_or_eq with less | rfl
  · obtain ⟨rounded, product, nearest⟩ := amountsTo_belowOne.exists_scaled amounts (by norm_num)
    rwa [nearest.eq_of_scaled amounts product less] at product
  · rw [mul_eq_pack, eq_of_denotes amounts amountsTo_leastNormal (by positivity), mul_leastNormal]
    exact amountsTo_pack amountsTo_leastNormal amounts.lt_two_pow

theorem isFinite_of_amountsTo (amounts : AmountsTo total number) : total.isFinite = true := by
  change total.toModel.unpack.isFinite = true
  rw [AmountsTo] at amounts
  generalize total.toModel.unpack = float at amounts
  cases amounts <;> rfl

theorem not_isFinite_of_infinite (unpacked : total.toModel.unpack = .infinity .positive) :
    total.isFinite = false := by
  change total.toModel.unpack.isFinite = false
  rw [unpacked]
  rfl

/-- Draws from zero up to one, scaled by a total, are all less than it just if the total is finite
and more than the least double of 53 bits. -/
theorem forall_mul_lt_iff (measures : Measures total size) :
    (∀ draw : Float, 0 ≤ draw → draw < 1 → draw * total < total) ↔
      leastNormal < total ∧ total.isFinite = true := by
  constructor
  · intro less
    have scaled := less belowOne belowOne_bounds.1 belowOne_bounds.2
    cases measures with
    | infinite unpacked =>
      have product : Measures (belowOne * total) ⊤ := by
        rw [mul_eq_pack, unpacked]
        exact .infinite rfl
      exact absurd ((product.lt_iff (.infinite unpacked)).mp scaled) (lt_irrefl _)
    | number amounts =>
      refine ⟨?_, isFinite_of_amountsTo amounts⟩
      rw [Measures.lt_iff (.number amountsTo_leastNormal) (.number amounts), WithTop.coe_lt_coe]
      by_contra small
      have product := amountsTo_belowOne_mul amounts (not_lt.mp small)
      exact absurd ((Measures.number product).lt_iff (.number amounts) |>.mp scaled) (lt_irrefl _)
  · rintro ⟨more, finite⟩ draw least less
    cases measures with
    | infinite unpacked =>
      rw [not_isFinite_of_infinite unpacked] at finite
      cases finite
    | number amounts =>
      rw [Measures.lt_iff (.number amountsTo_leastNormal) (.number amounts),
        WithTop.coe_lt_coe] at more
      obtain ⟨share, drawn, below⟩ := exists_of_unit least less
      obtain ⟨rounded, product, nearest⟩ := drawn.exists_scaled amounts below.le
      have lost := mul_le_mul_of_nonneg_right (le_belowOne_of_denotes drawn below)
        (Denotes.nonneg amounts)
      rw [Measures.lt_iff (.number product) (.number amounts), WithTop.coe_lt_coe]
      exact nearest.lt_of_scaled amounts more lost

end Scaled

end Tiling.Rounding
