import Tiling.Decimal.TotalOrder
import Tiling.Proofs.Magnitudes

/-!
The total order of doubles, by what they are. Numbers, infinities among them, stand by size, minus
zero below plus zero; a value that is not a number stands beyond all numbers on the side of its
sign, and such values of one sign stand by their bits. The places of doubles are in just this order.
-/

namespace Tiling.Decimal

open Float.Model Float.Model.UnpackedFloat Rounding

/-- Whether bits, of which the first is the sign, are those of no number under a minus. -/
def IsNegativeNaN (bits : UInt64) : Prop := (Float.ofBits bits).isNaN = true ∧ 2 ^ 63 ≤ bits.toNat

def IsPositiveNaN (bits : UInt64) : Prop := (Float.ofBits bits).isNaN = true ∧ bits.toNat < 2 ^ 63

/-- Whether the double of the first bits comes before that of the second in the total order. -/
inductive Precedes (first second : UInt64) : Prop where
  | less (below : Float.ofBits first < Float.ofBits second)
  | zeros (minus : first = (-0.0 : Float).toBits) (plus : second = (0.0 : Float).toBits)
  | belowOthers (lowest : IsNegativeNaN first) (other : ¬ IsNegativeNaN second)
  | aboveOthers (other : ¬ IsPositiveNaN first) (highest : IsPositiveNaN second)
  | amongNegative (minus : IsNegativeNaN first) (minus' : IsNegativeNaN second)
      (more : second < first)
  | amongPositive (plus : IsPositiveNaN first) (plus' : IsPositiveNaN second)
      (fewer : first < second)

section Fields

theorem toNat_unpackMantissa (bits : BitVec Format.binary64.numBits) :
    (unpackMantissa bits).toNat = bits.toNat % 2 ^ 52 := by
  rw [unpackMantissa, BitVec.toNat_cast, BitVec.extractLsb_toNat]
  rfl

theorem toNat_unpackExponent (bits : BitVec Format.binary64.numBits) :
    (unpackExponent bits).toNat = bits.toNat / 2 ^ 52 % 2 ^ 11 := by
  rw [unpackExponent, BitVec.toNat_cast, BitVec.extractLsb_toNat, Nat.shiftRight_eq_div_pow]
  rfl

theorem toNat_unpackSign (bits : BitVec Format.binary64.numBits) :
    (unpackSign bits).toNat = bits.toNat / 2 ^ 63 := by
  have few : bits.toNat < 2 ^ 64 := bits.isLt
  rw [unpackSign, BitVec.toNat_cast, BitVec.extractLsb_toNat, Nat.shiftRight_eq_div_pow]
  change bits.toNat / 2 ^ 63 % 2 ^ 1 = _
  omega

theorem place_eq (bits : UInt64) :
    place bits = if bits.toNat < 2 ^ 63 then (bits.toNat : Int) else 2 ^ 63 - 1 - bits.toNat := rfl

/-- The place of the double so many steps away from the zero of a sign. -/
def placed : Sign → Nat → Int
  | .positive, steps => steps
  | .negative, steps => -1 - steps

/-- The bits after the sign count the steps from the zero of that sign. -/
theorem place_eq_placed (bits : UInt64) :
    place bits = placed (.ofBitVec (@unpackSign Format.binary64 bits.toBitVec))
      (bits.toNat % 2 ^ 63) := by
  have few := bits.toNat_lt
  have stored : (@unpackSign Format.binary64 bits.toBitVec).toNat =
    bits.toNat / 2 ^ 63 := toNat_unpackSign bits.toBitVec
  rw [place_eq]
  by_cases plus : bits.toNat < 2 ^ 63
  · have zero : @unpackSign Format.binary64 bits.toBitVec = 0#1 :=
      BitVec.eq_of_toNat_eq (stored.trans (Nat.div_eq_of_lt plus))
    rw [zero, if_pos plus, Nat.mod_eq_of_lt plus]
    rfl
  · have one : @unpackSign Format.binary64 bits.toBitVec = 1#1 :=
      BitVec.eq_of_toNat_eq (stored.trans (by change _ = 1; omega))
    rw [one, if_neg plus]
    change _ = -1 - ((bits.toNat % 2 ^ 63 : Nat) : Int)
    omega

theorem steps_eq (bits : UInt64) :
    bits.toNat % 2 ^ 63 =
      (@unpackExponent Format.binary64 bits.toBitVec).toNat * 2 ^ 52 +
        (@unpackMantissa Format.binary64 bits.toBitVec).toNat := by
  rw [toNat_unpackExponent, toNat_unpackMantissa]
  change bits.toNat % 2 ^ 63 = bits.toNat / 2 ^ 52 % 2 ^ 11 * 2 ^ 52 + bits.toNat % 2 ^ 52
  omega

end Fields

section Compare

theorem compare_steps {first second low high : Nat} {exponent exponent' : Int}
    (few : first < 2 ^ 53) (few' : second < 2 ^ 53) (lowest : -1074 ≤ exponent)
    (lowest' : -1074 ≤ exponent') (full : exponent = -1074 ∨ 2 ^ 52 ≤ first)
    (full' : exponent' = -1074 ∨ 2 ^ 52 ≤ second)
    (counted : low = (exponent + 1074).toNat * 2 ^ 52 + first)
    (counted' : high = (exponent' + 1074).toNat * 2 ^ 52 + second) :
    (compare exponent exponent').then (compare first second) = compare low high := by
  rcases lt_trichotomy exponent exponent' with lower | rfl | higher
  · rw [Int.compare_eq_lt.mpr lower, eq_comm]
    exact Nat.compare_eq_lt.mpr (by omega)
  · rw [Int.compare_eq_eq.mpr rfl, counted, counted']
    change compare first second = _
    rcases lt_trichotomy first second with less | rfl | more
    · rw [Nat.compare_eq_lt.mpr less, Nat.compare_eq_lt.mpr (Nat.add_lt_add_left less _)]
    · rw [Nat.compare_eq_eq.mpr rfl, Nat.compare_eq_eq.mpr rfl]
    · rw [Nat.compare_eq_gt.mpr more, Nat.compare_eq_gt.mpr (Nat.add_lt_add_left more _)]
  · rw [Int.compare_eq_gt.mpr higher, eq_comm]
    exact Nat.compare_eq_gt.mpr (by omega)

/-- Numbers compare as their places do, but that both zeros are equal. -/
theorem lt_iff_of_stored {first second : UnpackedFloat} {sign sign' : Sign} {steps steps' : Nat}
    (stored : Stored first sign steps) (other : Stored second sign' steps') :
    UnpackedFloat.lt first second = true ↔
      placed sign steps < placed sign' steps' ∧
        ¬ (placed sign steps = -1 ∧ placed sign' steps' = 0) := by
  cases stored with
  | zero sign =>
    cases other with
    | zero sign' => cases sign <;> cases sign' <;> decide
    | infinity sign' => cases sign <;> cases sign' <;> decide
    | finite sign' positive few lowest highest full counted =>
      cases sign <;> cases sign' <;>
        simp [UnpackedFloat.lt, UnpackedFloat.compare, placed] <;> omega
  | infinity sign =>
    cases other with
    | zero sign' => cases sign <;> cases sign' <;> decide
    | infinity sign' => cases sign <;> cases sign' <;> decide
    | finite sign' positive few lowest highest full counted =>
      cases sign <;> cases sign' <;>
        simp [UnpackedFloat.lt, UnpackedFloat.compare, placed] <;> omega
  | finite sign positive few lowest highest full counted =>
    cases other with
    | zero sign' =>
      cases sign <;> cases sign' <;>
        simp [UnpackedFloat.lt, UnpackedFloat.compare, placed] <;> omega
    | infinity sign' =>
      cases sign <;> cases sign' <;>
        simp [UnpackedFloat.lt, UnpackedFloat.compare, placed] <;> omega
    | finite sign' positive' few' lowest' highest' full' counted' =>
      have ordered := compare_steps few few' lowest lowest' full full' counted counted'
      cases sign <;> cases sign' <;>
        simp [UnpackedFloat.lt, UnpackedFloat.compare, placed, ordered, Nat.compare_eq_lt,
          Nat.compare_eq_gt] <;> omega

end Compare

section Precedes

variable {bits first second : UInt64}

theorem unpack_eq_notANumber_iff (bits : BitVec Format.binary64.numBits) :
    UnpackedFloat.unpack Format.binary64 bits = .notANumber ↔
      unpackExponent bits = -1#11 ∧ unpackMantissa bits ≠ 0#52 := by
  unfold UnpackedFloat.unpack
  simp only
  split
  · rename_i special
    split
    · rename_i zero
      simp [zero]
    · rename_i nonzero
      exact iff_of_true rfl ⟨special, nonzero⟩
  · rename_i finite
    refine iff_of_false ?_ fun both => finite both.1
    split
    · split <;> nofun
    · nofun

theorem unpack_ofBits (bits : UInt64) :
    (Float.ofBits bits).toModel.unpack = UnpackedFloat.unpack Format.binary64 bits.toBitVec := by
  change UnpackedFloat.unpack Format.binary64 (UnpackedFloat.pack Format.binary64
    (UnpackedFloat.unpack Format.binary64 bits.toBitVec)) = _
  rw [pack_unpack]
  split
  · rename_i special
    rw [unpack_packedNaN, eq_comm]
    exact (unpack_eq_notANumber_iff _).mpr (of_decide_eq_true special)
  · rfl

theorem isNaN_iff_unpack :
    (Float.ofBits bits).isNaN = true ↔
      UnpackedFloat.unpack Format.binary64 bits.toBitVec = .notANumber := by
  rw [← unpack_ofBits]
  exact UnpackedFloat.isNaN_iff

/-- What is no number lies beyond infinity, on either side. -/
theorem isNaN_iff : (Float.ofBits bits).isNaN = true ↔ 2047 * 2 ^ 52 < bits.toNat % 2 ^ 63 := by
  rw [isNaN_iff_unpack, unpack_eq_notANumber_iff, steps_eq]
  generalize @unpackExponent Format.binary64 bits.toBitVec = exponent
  generalize @unpackMantissa Format.binary64 bits.toBitVec = mantissa
  have raised : exponent = -1#11 ↔ exponent.toNat = 2047 := BitVec.toNat_inj.symm
  have zero : mantissa = 0#52 ↔ mantissa.toNat = 0 := BitVec.toNat_inj.symm
  have bits : exponent.toNat < 2 ^ 11 := exponent.isLt
  have few : mantissa.toNat < 2 ^ 52 := mantissa.isLt
  rw [raised, ne_eq, zero]
  omega

theorem lt_iff_place (number : ¬ (Float.ofBits first).isNaN = true)
    (number' : ¬ (Float.ofBits second).isNaN = true) :
    Float.ofBits first < Float.ofBits second ↔
      place first < place second ∧ ¬ (place first = -1 ∧ place second = 0) := by
  rw [isNaN_iff_unpack] at number number'
  rw [lt_iff_unpack, unpack_ofBits, unpack_ofBits, place_eq_placed, place_eq_placed, steps_eq,
    steps_eq]
  exact lt_iff_of_stored (stored_unpack number) (stored_unpack number')

theorem not_isNaN_of_lt (less : Float.ofBits first < Float.ofBits second) :
    ¬ (Float.ofBits first).isNaN = true ∧ ¬ (Float.ofBits second).isNaN = true := by
  rw [lt_iff_unpack, unpack_ofBits, unpack_ofBits] at less
  rw [isNaN_iff_unpack, isNaN_iff_unpack]
  constructor
  · intro notNumber
    rw [notNumber] at less
    exact Bool.false_ne_true less
  · intro notNumber
    rw [notNumber] at less
    cases found : UnpackedFloat.unpack Format.binary64 first.toBitVec <;>
      simp [found, UnpackedFloat.lt, UnpackedFloat.compare] at less

theorem place_injective (same : place first = place second) : first = second := by
  have few := first.toNat_lt
  have few' := second.toNat_lt
  rw [place_eq, place_eq] at same
  apply UInt64.toNat_inj.mp
  split at same <;> split at same <;> omega

theorem isNegativeNaN_iff : IsNegativeNaN bits ↔ place bits < -1 - 2047 * 2 ^ 52 := by
  have few := bits.toNat_lt
  rw [IsNegativeNaN, isNaN_iff, place_eq]
  split <;> omega

theorem isPositiveNaN_iff : IsPositiveNaN bits ↔ 2047 * 2 ^ 52 < place bits := by
  have few := bits.toNat_lt
  rw [IsPositiveNaN, isNaN_iff, place_eq]
  split <;> omega

theorem isNaN_cases (notNumber : (Float.ofBits bits).isNaN = true) :
    IsNegativeNaN bits ∨ IsPositiveNaN bits :=
  (Nat.lt_or_ge bits.toNat (2 ^ 63)).symm.imp (.intro notNumber) (.intro notNumber)

theorem place_lt_place_of_negative (minus : 2 ^ 63 ≤ first.toNat) (minus' : 2 ^ 63 ≤ second.toNat) :
    place first < place second ↔ second < first := by
  rw [place_eq, place_eq, if_neg minus.not_gt, if_neg minus'.not_gt, UInt64.lt_iff_toNat_lt]
  omega

theorem place_lt_place_of_positive (plus : first.toNat < 2 ^ 63) (plus' : second.toNat < 2 ^ 63) :
    place first < place second ↔ first < second := by
  rw [place_eq, place_eq, if_pos plus, if_pos plus', UInt64.lt_iff_toNat_lt]
  omega

theorem place_zero : place (0.0 : Float).toBits = 0 := by decide +kernel

theorem place_minusZero : place (-0.0 : Float).toBits = -1 := by decide +kernel

/-- The places of doubles are in the total order. -/
theorem precedes_iff : Precedes first second ↔ place first < place second := by
  constructor
  · intro precedes
    cases precedes with
    | less below =>
      obtain ⟨number, number'⟩ := not_isNaN_of_lt below
      exact ((lt_iff_place number number').mp below).1
    | zeros minus plus =>
      rw [minus, plus, place_zero, place_minusZero]
      decide
    | belowOthers lowest other =>
      rw [isNegativeNaN_iff] at lowest other
      omega
    | aboveOthers other highest =>
      rw [isPositiveNaN_iff] at other highest
      omega
    | amongNegative minus minus' more =>
      exact (place_lt_place_of_negative minus.2 minus'.2).mpr more
    | amongPositive plus plus' fewer =>
      exact (place_lt_place_of_positive plus.2 plus'.2).mpr fewer
  · intro less
    by_cases lowest : IsNegativeNaN first
    · by_cases lowest' : IsNegativeNaN second
      · exact .amongNegative lowest lowest'
          ((place_lt_place_of_negative lowest.2 lowest'.2).mp less)
      · exact .belowOthers lowest lowest'
    by_cases highest : IsPositiveNaN second
    · by_cases highest' : IsPositiveNaN first
      · exact .amongPositive highest' highest
          ((place_lt_place_of_positive highest'.2 highest.2).mp less)
      · exact .aboveOthers highest' highest
    have number : ¬ (Float.ofBits first).isNaN = true := by
      intro notNumber
      have above := (isNaN_cases notNumber).resolve_left lowest
      rw [isPositiveNaN_iff] at above highest
      omega
    have number' : ¬ (Float.ofBits second).isNaN = true := by
      intro notNumber
      have below := (isNaN_cases notNumber).resolve_right highest
      rw [isNegativeNaN_iff] at below lowest
      omega
    by_cases both : place first = -1 ∧ place second = 0
    · exact .zeros (place_injective (both.1.trans place_minusZero.symm))
        (place_injective (both.2.trans place_zero.symm))
    · exact .less ((lt_iff_place number number').mpr ⟨less, both⟩)

end Precedes

end Tiling.Decimal
