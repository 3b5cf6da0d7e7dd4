/-!
The total order of doubles, which are given by their 64 bits, since `Float` does not tell apart
values that are not numbers. Every double has a place among the integers: negative ones below all
positive ones, minus zero just below plus zero, and a value that is not a number beyond the infinity
of its sign.
-/

namespace Tiling.Decimal

/-- The place in the total order of the double of these bits. -/
def place (bits : UInt64) : Int :=
  let bits := bits.toNat
  let half := 1 <<< 63
  if bits < half then bits else (half : Int) - 1 - bits

end Tiling.Decimal
