import Tiling.Text.Unseen

/-!
Quoted text. A text is shown between double quotes, and a character between single quotes, with
a backslash in front of the quote itself and of the backslash. Line feed, carriage return, tab and
the null character have escapes of one letter; every other character that would not be seen is
written by its code point in hexadecimal, between braces and without padding.
-/

namespace Tiling.Quoted

/-- The hexadecimal digits of a number, lower case. -/
def hexDigits (value : Nat) : List Char := Nat.toDigits 16 value

/-- How one character is written between the given quotes. -/
def escape (quote char : Char) : List Char :=
  if char = quote then ['\\', quote]
  else match char with
    | '\\' => ['\\', '\\']
    | '\n' => ['\\', 'n']
    | '\r' => ['\\', 'r']
    | '\t' => ['\\', 't']
    | '\x00' => ['\\', '0']
    | char =>
      if isUnseen char then ['\\', 'u', '\x7b'] ++ hexDigits char.toNat ++ ['\x7d'] else [char]

/-- A text between double quotes. -/
def text (value : String) : String :=
  String.ofList ('"' :: value.toList.flatMap (escape '"') ++ ['"'])

/-- A character between single quotes. -/
def character (value : Char) : String := String.ofList ('\'' :: escape '\'' value ++ ['\''])

end Tiling.Quoted
