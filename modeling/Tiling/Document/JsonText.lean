import Tiling.Document.Json

/-!
JSON as text. A value is written on one line without blanks; a text may be read that holds one
value and blanks around its parts.
-/

namespace Tiling.Json

/-! ### Writing -/

/-- Four hexadecimal digits. -/
def hex4 (code : Nat) : String :=
  let digits := Nat.toDigits 16 code
  String.ofList (List.replicate (4 - digits.length) '0' ++ digits)

/-- A character as it stands between quotes. -/
def escape (char : Char) : String :=
  match char with
  | '"' => "\\\""
  | '\\' => "\\\\"
  | '\n' => "\\n"
  | '\r' => "\\r"
  | '\t' => "\\t"
  | char => if char.toNat < 0x20 then "\\u" ++ hex4 char.toNat else char.toString

def quote (text : String) : String :=
  "\"" ++ text.foldl (fun out char => out ++ escape char) "" ++ "\""

mutual

/-- The text of a value. -/
def render : Json → String
  | null => "null"
  | bool value => toString value
  | number literal => literal
  | text value => quote value
  | list items => "[" ++ ",".intercalate (renderItems items) ++ "]"
  | object fields => "\x7b" ++ ",".intercalate (renderFields fields) ++ "\x7d"

def renderItems : List Json → List String
  | [] => []
  | item :: rest => render item :: renderItems rest

def renderFields : List (String × Json) → List String
  | [] => []
  | (name, value) :: rest => (quote name ++ ":" ++ render value) :: renderFields rest

end

/-! ### Reading -/

def isSpace (char : Char) : Bool := char = ' ' || char = '\n' || char = '\r' || char = '\t'

def skipSpace (chars : List Char) : List Char := chars.dropWhile isSpace

/-- The value of a hexadecimal digit. -/
def hexDigit? (char : Char) : Option Nat :=
  if char.isDigit then some (char.toNat - '0'.toNat)
  else if 'a' ≤ char ∧ char ≤ 'f' then some (char.toNat - 'a'.toNat + 10)
  else if 'A' ≤ char ∧ char ≤ 'F' then some (char.toNat - 'A'.toNat + 10)
  else none

/-- The number that four hexadecimal digits stand for. -/
def unit? (digits : List Char) : Option Nat :=
  if digits.length < 4 then none
  else digits.foldlM (fun value digit => (hexDigit? digit).map (16 * value + ·)) 0

/-- Reads the number of a character behind its mark. A character past the first 65536 is written
as two numbers, each of which means nothing alone. -/
def numbered? (chars : List Char) : Option (Char × List Char) := do
  let high ← unit? (chars.take 4)
  let rest := chars.drop 4
  if high < 0xD800 ∨ 0xE000 ≤ high then return (Char.ofNat high, rest)
  else
    match rest with
    | '\\' :: 'u' :: rest =>
      let low ← unit? (rest.take 4)
      if high < 0xDC00 ∧ 0xDC00 ≤ low ∧ low < 0xE000 then
        return (Char.ofNat (0x10000 + (high - 0xD800) * 0x400 + (low - 0xDC00)), rest.drop 4)
      else none
    | _ => none

/-- Reads a character behind a backslash. -/
def escaped? : List Char → Option (Char × List Char)
  | '"' :: rest => some ('"', rest)
  | '\\' :: rest => some ('\\', rest)
  | '/' :: rest => some ('/', rest)
  | 'b' :: rest => some ('\x08', rest)
  | 'f' :: rest => some ('\x0c', rest)
  | 'n' :: rest => some ('\n', rest)
  | 'r' :: rest => some ('\r', rest)
  | 't' :: rest => some ('\t', rest)
  | 'u' :: rest => numbered? rest
  | _ => none

/-- Reads on in a text up to and past its closing quote. -/
def textFrom : Nat → String → List Char → Option (String × List Char)
  | 0, _, _ => none
  | fuel + 1, out, chars =>
    match chars with
    | [] => none
    | '"' :: rest => some (out, rest)
    | '\\' :: rest =>
      match escaped? rest with
      | some (char, rest) => textFrom fuel (out.push char) rest
      | none => none
    | char :: rest => if char.toNat < 0x20 then none else textFrom fuel (out.push char) rest

/-- Whether digits, of which there must be some, fill the characters. -/
def isDigits (chars : List Char) : Bool := !chars.isEmpty && chars.all Char.isDigit

/-- Whether the characters are an exponent, which may be missing. -/
def isExponent : List Char → Bool
  | [] => true
  | mark :: rest =>
    (mark = 'e' || mark = 'E') && match rest with
      | '+' :: rest => isDigits rest
      | '-' :: rest => isDigits rest
      | rest => isDigits rest

/-- Whether the characters spell a number: digits that do not start with a needless zero, perhaps
with a sign before and with a fraction and an exponent behind them. -/
def isNumber (chars : List Char) : Bool :=
  let chars := if chars.head? = some '-' then chars.drop 1 else chars
  let (whole, rest) := Decimal.splitDigits chars
  isDigits whole && (whole.length = 1 || whole.head? ≠ some '0') &&
    match rest with
    | '.' :: rest =>
      let (fraction, rest) := Decimal.splitDigits rest
      isDigits fraction && isExponent rest
    | rest => isExponent rest

/-- Reads a number. -/
def number? (chars : List Char) : Option (Json × List Char) :=
  let isPart (char : Char) : Bool := char.isDigit || char ∈ "+-.eE".toList
  let literal := chars.takeWhile isPart
  if isNumber literal then some (.number (String.ofList literal), chars.dropWhile isPart)
  else none

mutual

/-- Reads a value from its first character. -/
def valueFrom : Nat → List Char → Option (Json × List Char)
  | 0, _ => none
  | fuel + 1, chars =>
    match chars with
    | '"' :: rest => (textFrom (rest.length + 1) "" rest).map fun (value, rest) =>
        (text value, rest)
    | '[' :: rest =>
      match skipSpace rest with
      | ']' :: rest => some (list [], rest)
      | rest => itemsFrom fuel [] rest
    | '\x7b' :: rest =>
      match skipSpace rest with
      | '\x7d' :: rest => some (object [], rest)
      | rest => fieldsFrom fuel [] rest
    | 't' :: 'r' :: 'u' :: 'e' :: rest => some (bool true, rest)
    | 'f' :: 'a' :: 'l' :: 's' :: 'e' :: rest => some (bool false, rest)
    | 'n' :: 'u' :: 'l' :: 'l' :: rest => some (null, rest)
    | chars => number? chars

/-- Reads the items of a list behind those in reverse, and its end. -/
def itemsFrom : Nat → List Json → List Char → Option (Json × List Char)
  | 0, _, _ => none
  | fuel + 1, items, chars => do
    let (item, rest) ← valueFrom fuel chars
    match skipSpace rest with
    | ',' :: rest => itemsFrom fuel (item :: items) (skipSpace rest)
    | ']' :: rest => some (list (item :: items).reverse, rest)
    | _ => none

/-- Reads the fields of an object behind those in reverse, and its end. -/
def fieldsFrom : Nat → List (String × Json) → List Char → Option (Json × List Char)
  | 0, _, _ => none
  | fuel + 1, fields, chars => do
    let '"' :: rest := chars | none
    let (name, rest) ← textFrom (rest.length + 1) "" rest
    let ':' :: rest := skipSpace rest | none
    let (value, rest) ← valueFrom fuel (skipSpace rest)
    match skipSpace rest with
    | ',' :: rest => fieldsFrom fuel ((name, value) :: fields) (skipSpace rest)
    | '\x7d' :: rest => some (object ((name, value) :: fields).reverse, rest)
    | _ => none

end

/-- The value that a text holds. -/
def ofText? (text : String) : Option Json := do
  let chars := skipSpace text.toList
  let (json, rest) ← valueFrom (2 * chars.length + 2) chars
  if (skipSpace rest).isEmpty then some json else none

end Tiling.Json
