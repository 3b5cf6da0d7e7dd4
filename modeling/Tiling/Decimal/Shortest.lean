/-!
The shortest decimal that reads back as a given double. A positive double is `mantissa · 2 ^ power`;
the reals that round to it form an interval around it, whose ends belong to it exactly when the
mantissa is even. Of the decimals in that interval the one with the fewest digits is taken, of
several the nearest, and of two equally near the greater. All of it is exact integer arithmetic.
-/

namespace Tiling.Decimal

/-- A positive double in lowest terms of its own format. -/
structure Binary where
  mantissa : Nat
  power : Int
  /-- Whether the next double below is only half as far away as the next one above. -/
  narrowBelow : Bool
deriving DecidableEq

/-- The fields of a finite double's bits, sign aside. -/
def Binary.ofBits (bits : Nat) : Binary :=
  let fraction := bits % (1 <<< 52)
  match (bits >>> 52) % (1 <<< 11) with
  | 0 => ⟨fraction, -1074, false⟩
  | exponent + 1 => ⟨(1 <<< 52) + fraction, exponent - 1074, fraction = 0 && exponent ≠ 0⟩

/-- A decimal `digits · 10 ^ power`. -/
structure Scaled where
  digits : Nat
  power : Int
deriving DecidableEq

/-- The power `p` with `10 ^ (p - 1) ≤ mantissa · 2 ^ power < 10 ^ p`, for any positive double. -/
def Binary.pointPosition (value : Binary) : Int :=
  let shifted := (value.mantissa * Nat.pow 10 400) <<< value.power.toNat >>> (-value.power).toNat
  (Nat.toDigits 10 shifted).length - 400

/-- The decimal on the grid of multiples of `10 ^ power` that reads back as the value and lies
nearest to it, if the grid has one. Everything is measured in quarters of the value's last binary
place, times whatever clears the denominators. -/
def Binary.onGrid? (value : Binary) (power : Int) : Option Scaled :=
  let quarters := value.power - 2
  let factor := Nat.pow 10 (-power).toNat <<< quarters.toNat
  let unit := Nat.pow 10 power.toNat <<< (-quarters).toNat
  let middle := 4 * value.mantissa * factor
  let low := (4 * value.mantissa - if value.narrowBelow then 1 else 2) * factor
  let high := (4 * value.mantissa + 2) * factor
  let within (digits : Nat) : Bool :=
    if value.mantissa % 2 = 0 then low ≤ digits * unit && digits * unit ≤ high
    else low < digits * unit && digits * unit < high
  let below := middle / unit
  match within below, within (below + 1) with
  | true, true =>
    some ⟨if 2 * (middle - below * unit) < unit then below else below + 1, power⟩
  | true, false => some ⟨below, power⟩
  | false, true => some ⟨below + 1, power⟩
  | false, false => none

/-- Moves trailing zeros of the digits into the power. -/
def Scaled.trim (value : Scaled) : Scaled :=
  go value.digits value.power (Nat.toDigits 10 value.digits).length
where
  go (digits : Nat) (power : Int) : Nat → Scaled
    | 0 => ⟨digits, power⟩
    | places + 1 =>
      if digits % 10 = 0 then go (digits / 10) (power + 1) places else ⟨digits, power⟩

/-- Tries one digit, two digits and so on; seventeen digits always suffice for a double. -/
def Binary.shortest (value : Binary) : Scaled :=
  let point := value.pointPosition
  match (List.range 17).findSome? fun (more : Nat) => value.onGrid? (point - (more + 1)) with
  | some found => found.trim
  | none => ⟨0, 0⟩

end Tiling.Decimal
