import Tiling.Decimal.Shortest

/-!
Doubles as text. The digits are the fewest that read back as the same double. They are written
around a point, with at least one digit on either side, from one ten-thousandth up to but not
including ten to the sixteenth, and with an exponent outside that range.
-/

namespace Tiling.Decimal

/-- Digits with the point after the first `point` of them, padded by zeros on either side. -/
def positional (digits : List Char) (point : Int) : List Char :=
  if point ≤ 0 then '0' :: '.' :: List.replicate (-point).toNat '0' ++ digits
  else if point < digits.length then
    digits.take point.toNat ++ '.' :: digits.drop point.toNat
  else digits ++ List.replicate (point.toNat - digits.length) '0' ++ ['.', '0']

/-- One digit, the rest after a point if there is a rest, and the exponent. -/
def scientific (digits : List Char) (point : Int) : List Char :=
  let exponent := 'e' :: (toString (point - 1)).toList
  match digits with
  | [] => exponent
  | [digit] => digit :: exponent
  | digit :: rest => digit :: '.' :: rest ++ exponent

/-- The text of a double's magnitude, from its bits without the sign. -/
def magnitude (bits : Nat) : List Char :=
  if bits = 0 then ['0', '.', '0']
  else if bits ≥ 0x7ff <<< 52 then ['i', 'n', 'f']
  else
    let value := (Binary.ofBits bits).shortest
    let digits := Nat.toDigits 10 value.digits
    let point := digits.length + value.power
    if -3 ≤ point ∧ point ≤ 16 then positional digits point else scientific digits point

/-- The text of a double. -/
def text (value : Float) : String :=
  let bits := value.toBits.toNat
  if value.isNaN then "NaN"
  else if bits < 1 <<< 63 then String.ofList (magnitude bits)
  else String.ofList ('-' :: magnitude (bits - (1 <<< 63)))

end Tiling.Decimal
