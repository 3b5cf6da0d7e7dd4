/-!
Positions in a text that is being read, with the line and the column that indentation goes by.
All spellings of a line end count alike, but for the two separators of Unicode, which are kept
apart because they survive folding.
-/

namespace Tiling.Yaml

/-- Whether a document may hold the character at all. -/
def isReadable (char : Char) : Bool :=
  let code := char.toNat
  code = 0x09 || code = 0x0A || code = 0x0D || code = 0x85 ||
    (0x20 ≤ code && code ≤ 0x7E) || (0xA0 ≤ code && code ≤ 0xFFFD) || 0x10000 ≤ code

def isBlank (char : Char) : Bool := char = ' ' || char = '\t'

def isBreak (char : Char) : Bool := char = '\n' || char = '\u2028' || char = '\u2029'

/-- Whether the character separates words, as blanks and line breaks do. -/
def isGap (char : Char) : Bool := isBlank char || isBreak char

/-- Whether the character may stand in the name of an anchor, a directive or a tag handle. -/
def isWord (char : Char) : Bool := char.isAlphanum || char = '_' || char = '-'

/-- Writes every line end, but for the separators of Unicode, as one line feed. -/
def unifyBreaks : List Char → List Char
  | '\r' :: '\n' :: rest => '\n' :: unifyBreaks rest
  | '\r' :: rest => '\n' :: unifyBreaks rest
  | '\u0085' :: rest => '\n' :: unifyBreaks rest
  | char :: rest => char :: unifyBreaks rest
  | [] => []

/-- A place in a text, with what follows it. -/
structure Cursor where
  rest : List Char
  /-- More than the number of characters in the text, which bounds every walk through it. -/
  bound : Nat
  /-- How many bytes of the text have been passed, where a line break counts as one. -/
  index : Nat := 0
  line : Nat := 0
  column : Nat := 0
deriving DecidableEq, Inhabited

namespace Cursor

/-- The start of a text, if all of it may stand in a document. -/
def ofText? (text : String) : Option Cursor :=
  if text.toList.all isReadable then
    some { rest := unifyBreaks text.toList, bound := text.length + 1 }
  else none

/-- Passes characters within a line. -/
def advance (cursor : Cursor) (count : Nat) : Cursor :=
  { cursor with
    rest := cursor.rest.drop count
    index := (cursor.rest.take count).foldl (fun index char => index + char.utf8Size) cursor.index
    column := cursor.column + count }

/-- Passes a line break. -/
def newline (cursor : Cursor) : Cursor :=
  { cursor with
    rest := cursor.rest.drop 1
    index := cursor.index + 1
    line := cursor.line + 1
    column := 0 }

/-- Passes the longest run of such characters within a line. -/
def takeWhile (cursor : Cursor) (holds : Char → Bool) : List Char × Cursor :=
  let run := cursor.rest.takeWhile holds
  (run, cursor.advance run.length)

def skipWhile (cursor : Cursor) (holds : Char → Bool) : Cursor := (cursor.takeWhile holds).2

/-- Passes one character, whatever it is. -/
def next (cursor : Cursor) : Cursor :=
  match cursor.rest with
  | char :: _ => if isBreak char then cursor.newline else cursor.advance 1
  | [] => cursor

/-- Passes the longest run of blanks and line breaks. -/
def takeGap (cursor : Cursor) : List Char × Cursor :=
  let run := cursor.rest.takeWhile isGap
  (run, run.foldl (fun cursor _ => cursor.next) cursor)

def startsWith (cursor : Cursor) (char : Char) : Bool := cursor.rest.head? = some char

/-- Whether the text ends before the character at an offset, or a gap stands there. -/
def gapAt (cursor : Cursor) (offset : Nat) : Bool := (cursor.rest[offset]?).all isGap

/-- Whether the text ends before the character at an offset, or a line does. -/
def lineEndsAt (cursor : Cursor) (offset : Nat) : Bool := (cursor.rest[offset]?).all isBreak

/-- Whether a line of its own starts here with the mark three times. -/
def atMark (cursor : Cursor) (mark : Char) : Bool :=
  cursor.column = 0 && cursor.rest.take 3 = [mark, mark, mark] && cursor.gapAt 3

/-- Whether a document starts or ends here by a mark. -/
def atDocumentMark (cursor : Cursor) : Bool := cursor.atMark '-' || cursor.atMark '.'

/-- Passes a byte order mark at the start of a line, where it only takes up a column. -/
def skipOrderMark (cursor : Cursor) : Cursor :=
  if cursor.column = 0 && cursor.startsWith '\uFEFF' then cursor.advance 1 else cursor

/-- Passes a comment, which goes on to the end of its line. -/
def skipComment (cursor : Cursor) : Cursor :=
  if cursor.startsWith '#' then cursor.skipWhile (!isBreak ·) else cursor

/-- Passes the rest of a line, which may hold no more than blanks and a comment. -/
def finishLine? (cursor : Cursor) : Option Cursor :=
  let cursor := (cursor.skipWhile isBlank).skipComment
  if cursor.lineEndsAt 0 then some cursor.next else none

end Cursor

end Tiling.Yaml
