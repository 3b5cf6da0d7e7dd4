import Tiling.Proofs.Rounding

/-!
Doubles as they are stored, up to infinity. Those of sums, products and whole numbers are as
rounding says. A whole number plus at most a half, rounded, has that number as its whole part.
-/

namespace Tiling.Rounding

open Float.Model Float.Model.UnpackedFloat

section Bits

theorem unpackSign_packComponents (sign : Sign) (exponent : BitVec 11) (mantissa : BitVec 52) :
    Sign.ofBitVec (unpackSign (packComponents Format.binary64 sign exponent mantissa)) = sign := by
  have kept : unpackSign (packComponents Format.binary64 sign exponent mantissa) =
      sign.toBitVec := by
    change (sign.toBitVec ++ exponent ++ mantissa).extractLsb' 63 1 = _
    rw [BitVec.extractLsb'_append_eq_of_le (by decide),
      BitVec.extractLsb'_append_eq_of_le (by decide)]
    exact BitVec.extractLsb'_eq_self
  rw [kept]
  cases sign <;> rfl

theorem toNat_implicit (mantissa : BitVec 52) :
    (1#1 ++ mantissa).toNat = 2 ^ 52 + mantissa.toNat := by
  rw [BitVec.toNat_append, Nat.shiftLeft_eq]
  change 2 ^ 52 * 1 ||| mantissa.toNat = 2 ^ 52 * 1 + mantissa.toNat
  exact (Nat.two_pow_add_eq_or_of_lt mantissa.isLt 1).symm

theorem biased_eq (exponent : Int) :
    (exponent + Format.binary64.exponentBias +
      Format.binary64.mantissaBitsWithoutImplicit).toNat = (exponent + 1075).toNat := by
  change (exponent + (1023 : Int) + (52 : Int)).toNat = _
  omega

theorem unpack_pack_normal {mantissa : Nat} {exponent : Int} (positive : 0 < mantissa)
    (normal : 2 ^ 52 ≤ mantissa) (few : mantissa < 2 ^ 53) (lowest : -1074 ≤ exponent)
    (highest : exponent ≤ 971) :
    UnpackedFloat.unpack Format.binary64
        (UnpackedFloat.pack Format.binary64 (.finite .positive mantissa exponent positive)) =
      .finite .positive mantissa exponent positive := by
  have bits : mantissa.log2 = 52 := (Nat.log2_eq_iff positive.ne').mpr ⟨normal, few⟩
  have stored : (BitVec.ofNat 11 (exponent + 1075).toNat).toNat = (exponent + 1075).toNat := by
    rw [BitVec.toNat_ofNat, Nat.mod_eq_of_lt (by omega)]
  have regular {special : BitVec 11} (outside : special.toNat = 0 ∨ special.toNat = 2047) :
      BitVec.ofNat 11 (exponent + 1075).toNat ≠ special := by
    intro same
    rw [← same, stored] at outside
    omega
  rw [UnpackedFloat.pack, biased_eq, bits, if_neg (by norm_num; omega), if_pos (by rfl)]
  simp only [UnpackedFloat.unpack, unpackSign_packComponents, unpackMantissa_packComponents,
    unpackExponent_packComponents]
  rw [if_neg (regular (.inr rfl)), if_neg (regular (.inl rfl))]
  congr 1
  · rw [toNat_implicit, BitVec.toNat_ofNat]
    omega
  · rw [stored]
    change ((exponent + 1075).toNat : Int) - (1023 + 52) = _
    omega

theorem unpack_pack_subnormal {mantissa : Nat} (positive : 0 < mantissa)
    (less : mantissa < 2 ^ 52) :
    UnpackedFloat.unpack Format.binary64
        (UnpackedFloat.pack Format.binary64 (.finite .positive mantissa (-1074) positive)) =
      .finite .positive mantissa (-1074) positive := by
  have bits : mantissa.log2 + 1 ≠ Format.binary64.mantissaBits := by
    have below := (Nat.log2_lt positive.ne').mpr less
    change mantissa.log2 + 1 ≠ 53
    omega
  have kept : (BitVec.ofNat 52 mantissa).toNat = mantissa := by
    rw [BitVec.toNat_ofNat, Nat.mod_eq_of_lt less]
  have nonzero : BitVec.ofNat 52 mantissa ≠ 0#52 := by
    intro same
    rw [same] at kept
    exact positive.ne kept
  simp only [UnpackedFloat.pack]
  rw [if_neg (by decide), if_neg bits]
  simp only [UnpackedFloat.unpack, unpackSign_packComponents, unpackMantissa_packComponents,
    unpackExponent_packComponents]
  rw [if_neg (by decide), if_pos trivial, dif_neg nonzero]
  congr 1

theorem exponent_le_of_lt {mantissa : Nat} {exponent : Int} (normal : 2 ^ 52 ≤ mantissa)
    (fits : (mantissa : ℚ) * 2 ^ exponent < 2 ^ 1024) : exponent ≤ 971 := by
  have less : (2 : ℚ) ^ (52 + exponent) < 2 ^ (1024 : Int) := by
    calc (2 : ℚ) ^ (52 + exponent)
      _ = (2 ^ 52 : Nat) * 2 ^ exponent := by
        rw [zpow_add₀ (by norm_num)]
        norm_num
      _ ≤ mantissa * 2 ^ exponent := by gcongr
      _ < 2 ^ (1024 : Int) := fits
  have below := (zpow_lt_zpow_iff_right₀ (by norm_num)).mp less
  omega

/-- What is stored of a double is all of it, below the least power of two that is none. -/
theorem unpack_pack {float : UnpackedFloat} {number : ℚ} (denotes : Denotes float number)
    (fits : number < 2 ^ 1024) :
    UnpackedFloat.unpack Format.binary64 (UnpackedFloat.pack Format.binary64 float) = float := by
  cases denotes with
  | zero sign => simp [UnpackedFloat.pack, packedZero, UnpackedFloat.unpack]
  | @finite mantissa exponent positive few lowest full =>
    by_cases normal : 2 ^ 52 ≤ mantissa
    · exact unpack_pack_normal positive normal few lowest (exponent_le_of_lt normal fits)
    · obtain rfl : exponent = -1074 := full.resolve_right normal
      exact unpack_pack_subnormal positive (Nat.lt_of_not_le normal)

theorem unpack_pack_of_le {float : UnpackedFloat} {number : ℚ} (denotes : Denotes float number)
    (large : 2 ^ 1024 ≤ number) :
    UnpackedFloat.unpack Format.binary64 (UnpackedFloat.pack Format.binary64 float) =
      .infinity .positive := by
  cases denotes with
  | zero => exact absurd large (by norm_num)
  | @finite mantissa exponent positive few lowest full =>
    have more : (2 : ℚ) ^ (1024 : Int) < 2 ^ (53 + exponent) := by
      calc (2 : ℚ) ^ (1024 : Int)
        _ ≤ mantissa * 2 ^ exponent := large
        _ < (2 ^ 53 : Nat) * 2 ^ exponent := by gcongr
        _ = 2 ^ (53 + exponent) := by
          rw [zpow_add₀ (by norm_num)]
          norm_num
    have above := (zpow_lt_zpow_iff_right₀ (by norm_num)).mp more
    rw [UnpackedFloat.pack, biased_eq, if_pos (by norm_num; omega)]
    rfl

/-- A double that is a number, by its sign and the bits after that, which count the doubles from
zero up to it. -/
inductive Stored : UnpackedFloat → Sign → Nat → Prop where
  | zero (sign : Sign) : Stored (.zero sign) sign 0
  | finite (sign : Sign) {mantissa steps : Nat} {exponent : Int} (positive : 0 < mantissa)
      (few : mantissa < 2 ^ 53) (lowest : -1074 ≤ exponent) (highest : exponent ≤ 971)
      (full : exponent = -1074 ∨ 2 ^ 52 ≤ mantissa)
      (counted : steps = (exponent + 1074).toNat * 2 ^ 52 + mantissa) :
      Stored (.finite sign mantissa exponent positive) sign steps
  | infinity (sign : Sign) : Stored (.infinity sign) sign (2047 * 2 ^ 52)

theorem stored_packComponents (sign : Sign) (exponent : BitVec 11) (mantissa : BitVec 52)
    (number : UnpackedFloat.unpack Format.binary64
      (packComponents Format.binary64 sign exponent mantissa) ≠ .notANumber) :
    Stored (UnpackedFloat.unpack Format.binary64
        (packComponents Format.binary64 sign exponent mantissa))
      sign (exponent.toNat * 2 ^ 52 + mantissa.toNat) := by
  simp only [UnpackedFloat.unpack, unpackSign_packComponents,
    unpackExponent_packComponents, unpackMantissa_packComponents] at number ⊢
  have bits : exponent.toNat < 2 ^ 11 := exponent.isLt
  have few : mantissa.toNat < 2 ^ 52 := mantissa.isLt
  split
  · rename_i special
    rw [if_pos special] at number
    split
    · rename_i zero
      rw [special, zero]
      exact .infinity sign
    · rename_i nonzero
      exact absurd (if_neg nonzero) number
  · rename_i finite
    have below : exponent.toNat ≠ 2047 := fun special => finite (BitVec.eq_of_toNat_eq special)
    split
    · rename_i subnormal
      split
      · rename_i zero
        rw [subnormal, zero]
        exact .zero sign
      · have least : (exponent.toNat : Int) - (1023 + 52) + 1 = -1074 := by
          rw [subnormal]
          rfl
        refine .finite sign _ (few.trans (by decide)) least.ge (least.le.trans (by decide))
          (.inl least) ?_
        change _ = ((exponent.toNat : Int) - (1023 + 52) + 1 + 1074).toNat * 2 ^ 52 + _
        rw [least, subnormal]
        rfl
    · rename_i normal
      have nonzero : exponent.toNat ≠ 0 := fun none => normal (BitVec.eq_of_toNat_eq none)
      have implicit := toNat_implicit mantissa
      refine .finite sign _ (implicit.trans_lt (by omega)) ?_ ?_
        (.inr (implicit.symm ▸ Nat.le_add_right ..)) ?_
      · change (-1074 : Int) ≤ exponent.toNat - (1023 + 52)
        omega
      · change (exponent.toNat : Int) - (1023 + 52) ≤ 971
        omega
      · change _ = ((exponent.toNat : Int) - (1023 + 52) + 1074).toNat * 2 ^ 52 +
          (1#1 ++ mantissa).toNat
        rw [implicit]
        omega

/-- What is read from bits, if it is a number, is stored in their fields. -/
theorem stored_unpack {bits : BitVec Format.binary64.numBits}
    (number : UnpackedFloat.unpack Format.binary64 bits ≠ .notANumber) :
    Stored (UnpackedFloat.unpack Format.binary64 bits) (.ofBitVec (unpackSign bits))
      ((unpackExponent bits).toNat * 2 ^ 52 + (unpackMantissa bits).toNat) := by
  have fields := packComponents_unpackSign_unpackExponent_unpackMantissa bits
  rw [← fields] at number
  have stored := stored_packComponents _ _ _ number
  rwa [fields] at stored

theorem bounds_of_unpack {bits : BitVec Format.binary64.numBits} {sign : Sign} {mantissa : Nat}
    {exponent : Int} {positive : 0 < mantissa}
    (unpacked : UnpackedFloat.unpack Format.binary64 bits =
      .finite sign mantissa exponent positive) :
    mantissa < 2 ^ 53 ∧ -1074 ≤ exponent ∧ exponent ≤ 971 ∧
      (exponent = -1074 ∨ 2 ^ 52 ≤ mantissa) := by
  have number : UnpackedFloat.unpack Format.binary64 bits ≠ .notANumber := by
    rw [unpacked]
    exact UnpackedFloat.noConfusion
  have stored := stored_unpack number
  rw [unpacked] at stored
  cases stored with
  | finite sign positive few lowest highest full counted => exact ⟨few, lowest, highest, full⟩

theorem denotes_of_finite {bits : BitVec Format.binary64.numBits} {mantissa : Nat} {exponent : Int}
    {positive : 0 < mantissa}
    (unpacked : UnpackedFloat.unpack Format.binary64 bits =
      .finite .positive mantissa exponent positive) :
    Denotes (.finite .positive mantissa exponent positive) (mantissa * 2 ^ exponent) := by
  obtain ⟨few, lowest, -, full⟩ := bounds_of_unpack unpacked
  exact .finite positive few lowest full

end Bits

section Doubles

/-- The double is one of a number that is not negative. -/
def AmountsTo (float : Float) (number : ℚ) : Prop := Denotes float.toModel.unpack number

variable {first second : Float} {left right : ℚ}

theorem amountsTo_pack {float : UnpackedFloat} (denotes : Denotes float left)
    (fits : left < 2 ^ 1024) : AmountsTo (.ofModel (.pack float)) left := by
  have kept : (Float.Model.pack float).unpack = float := unpack_pack denotes fits
  rw [AmountsTo, kept]
  exact denotes

theorem lt_of_lt_two_pow {number : ℚ} (small : number < 2 ^ 64) : number < 2 ^ 1024 :=
  small.trans (pow_lt_pow_right₀ one_lt_two (by norm_num))

theorem RoundsTo.fits {exact rounded : ℚ} (rounds : RoundsTo exact rounded)
    (small : exact ≤ 2 ^ 63) : rounded < 2 ^ 64 := by
  have most := (rounds 1 (by norm_num) 63 (by norm_num)).2 (by norm_num; exact small)
  norm_num at most ⊢
  linarith

theorem AmountsTo.exists_mul (amounts : AmountsTo first left) (other : AmountsTo second right)
    (small : left * right ≤ 2 ^ 63) :
    ∃ rounded, AmountsTo (first * second) rounded ∧ RoundsTo (left * right) rounded := by
  obtain ⟨rounded, denotes, nearest⟩ := Rounding.exists_mul amounts other
  have rounds := nearest.roundsTo
  exact ⟨rounded, amountsTo_pack denotes (lt_of_lt_two_pow (rounds.fits small)), rounds⟩

theorem AmountsTo.exists_add (amounts : AmountsTo first left) (other : AmountsTo second right)
    (small : left + right ≤ 2 ^ 63) :
    ∃ rounded, AmountsTo (first + second) rounded ∧ RoundsTo (left + right) rounded := by
  obtain ⟨rounded, denotes, rounds⟩ := Rounding.exists_add amounts other
  exact ⟨rounded, amountsTo_pack denotes (lt_of_lt_two_pow (rounds.fits small)), rounds⟩

theorem amountsTo_one : AmountsTo 1 1 := by
  have unpacked : (1 : Float).toModel.unpack = .finite .positive (2 ^ 52) (-52) (by norm_num) := rfl
  have same : (1 : ℚ) = (2 ^ 52 : Nat) * 2 ^ (-52 : Int) := by norm_num
  rw [AmountsTo, unpacked, same]
  exact .finite _ (by norm_num) (by norm_num) (.inr le_rfl)

theorem cast_eq_mul_zpow (number : Nat) : (number : ℚ) = number * 2 ^ (0 : Int) := by
  rw [zpow_zero, mul_one]

theorem cast_le_of_lt {number : Nat} (few : number < 2 ^ 53) : (number : ℚ) ≤ 2 ^ 63 := by
  exact_mod_cast few.le.trans (by norm_num)

theorem amountsTo_toFloat {number : Nat} (positive : 0 < number) (few : number < 2 ^ 53) :
    AmountsTo number.toUInt64.toFloat number := by
  obtain ⟨rounded, denotes, nearest⟩ := exists_normalize positive 0
  rw [← cast_eq_mul_zpow] at nearest
  rw [nearest.roundsTo.eq_of_double few.le (by norm_num) (cast_eq_mul_zpow number)] at denotes
  have kept : number.toUInt64.toNat = number := by
    rw [Nat.toUInt64_eq, UInt64.toNat_ofNat_of_lt']
    exact few.trans (by decide)
  have unfolded : number.toUInt64.toFloat =
      .ofModel (.pack (normalize Format.binary64 number 0 .positive)) := by
    conv_rhs => rw [← kept]
    rfl
  rw [unfolded]
  exact amountsTo_pack denotes (lt_of_lt_two_pow ((cast_le_of_lt few).trans_lt (by norm_num)))

/-- Whole numbers of up to 53 bits are doubles. -/
theorem amountsTo_ofNat {number : Nat} (positive : 0 < number) (few : number < 2 ^ 53) :
    AmountsTo (Float.ofNat number) number := by
  have scaled : Float.ofNat number = number.toUInt64.toFloat * 1 := by
    change Float.ofScientific number false 0 = _
    rw [Float.ofScientific, dif_pos ⟨few, Nat.zero_le _⟩]
    rfl
  obtain ⟨rounded, amounts, rounds⟩ :=
    (amountsTo_toFloat positive few).exists_mul amountsTo_one (by
      rw [mul_one]
      exact cast_le_of_lt few)
  rw [mul_one] at rounds
  rw [scaled, ← rounds.eq_of_double few.le (by norm_num) (cast_eq_mul_zpow number)]
  exact amounts

theorem RoundsTo.lt_succ {count : Nat} {part rounded : ℚ} (positive : 0 < count)
    (few : count < 2 ^ 52) (half : part ≤ 1 / 2) (rounds : RoundsTo (count + part) rounded) :
    rounded < count + 1 := by
  have bits : count.log2 < 52 := (Nat.log2_lt positive.ne').mpr few
  obtain ⟨places, split⟩ : ∃ places, 53 = count.log2 + 1 + places :=
    ⟨52 - count.log2, by omega⟩
  have wide : (count + 1) * 2 ^ places ≤ 2 ^ 53 := by
    rw [split, pow_add]
    exact Nat.mul_le_mul_right _ Nat.lt_log2_self
  have last : (((count + 1) * 2 ^ places - 1 : Nat) : ℚ) * 2 ^ (-(places : Int)) =
      count + 1 - 1 / 2 ^ places := by
    rw [Nat.cast_sub (Nat.succ_le_of_lt (by positivity)), zpow_neg, zpow_natCast]
    push_cast
    field_simp
  have step : (1 : ℚ) / 2 ^ places ≤ 1 / 2 := by
    rw [one_div_le_one_div (by positivity) (by norm_num)]
    exact le_self_pow₀ (by norm_num) (by omega)
  have most := (rounds _ ((Nat.sub_le _ 1).trans wide) (-(places : Int)) (by omega)).2
  rw [last] at most
  calc rounded
    _ ≤ count + 1 - 1 / 2 ^ places := most (by linarith)
    _ < count + 1 := sub_lt_self _ (by positivity)

/-- A whole number and up to a half more, rounded, has that number as its whole part. -/
theorem toNat_ofNat_add {count : Nat} {rest : Float} {part : ℚ} (positive : 0 < count)
    (few : count < 2 ^ 52) (amounts : AmountsTo rest part) (half : part ≤ 1 / 2) :
    (Float.ofNat count + rest).toUInt64.toNat = count := by
  have nonneg : 0 ≤ part := Denotes.nonneg amounts
  have small : (count : ℚ) + part ≤ 2 ^ 63 := by
    have whole : (count : ℚ) ≤ 2 ^ 52 := by exact_mod_cast few.le
    linarith [show (2 : ℚ) ^ 52 + 1 / 2 ≤ 2 ^ 63 by norm_num]
  obtain ⟨rounded, sum, rounds⟩ :=
    (amountsTo_ofNat positive (few.trans (by norm_num))).exists_add amounts small
  have least : (count : ℚ) ≤ rounded := by
    have passed := (rounds count (few.le.trans (by norm_num)) 0 (by norm_num)).1
    rw [← cast_eq_mul_zpow] at passed
    exact passed (by linarith)
  calc (Float.ofNat count + rest).toUInt64.toNat
    _ = ⌊rounded⌋₊ := toNat_toUInt64 sum (rounds.fits small)
    _ = count := (Nat.floor_eq_iff (Denotes.nonneg sum)).mpr
      ⟨least, rounds.lt_succ positive few half⟩

end Doubles

end Tiling.Rounding
