/-!
Decimal literals. A literal is an optional sign, digits with at most one point among them, and
an optional exponent; at least one digit must stand before the exponent. It is read as the
nearest double.
-/

namespace Tiling.Decimal

/-- The number that a list of decimal digits stands for. -/
def ofDigits (digits : List Char) : Nat :=
  digits.foldl (fun value digit => 10 * value + (digit.toNat - '0'.toNat)) 0

/-- Splits off a sign; true stands for minus. -/
def splitSign : List Char → Bool × List Char
  | '-' :: rest => (true, rest)
  | '+' :: rest => (false, rest)
  | rest => (false, rest)

/-- Splits off the longest run of decimal digits. -/
def splitDigits (chars : List Char) : List Char × List Char :=
  (chars.takeWhile Char.isDigit, chars.dropWhile Char.isDigit)

/-- Reads the exponent that must fill the rest of a literal, if there is one. -/
def exponent? : List Char → Option Int
  | [] => some 0
  | mark :: rest =>
    if mark = 'e' ∨ mark = 'E' then
      let (negative, rest) := splitSign rest
      if rest.isEmpty || !rest.all Char.isDigit then none
      else if negative then some (-(ofDigits rest : Int)) else some (ofDigits rest)
    else none

/-- The double nearest to `digits · 10 ^ power`. Beyond ten to the 310th there are only infinities,
and below ten to the minus 330th only zero. -/
def nearest (digits : Nat) (power : Int) : Float :=
  let point := (Nat.toDigits 10 digits).length + power
  if digits = 0 ∨ point < -330 then 0
  else if 310 < point then 1 / 0
  else Float.ofScientific digits (power < 0) power.natAbs

/-- Reads an unsigned literal. -/
def unsigned? (chars : List Char) : Option Float :=
  let (whole, rest) := splitDigits chars
  let (fraction, rest) :=
    match rest with
    | '.' :: rest => splitDigits rest
    | _ => ([], rest)
  if whole.isEmpty && fraction.isEmpty then none
  else (exponent? rest).map fun power =>
    nearest (ofDigits (whole ++ fraction)) (power - fraction.length)

/-- Reads a literal. -/
def float? (literal : String) : Option Float :=
  let (negative, rest) := splitSign literal.toList
  (unsigned? rest).map fun value => if negative then -value else value

end Tiling.Decimal
