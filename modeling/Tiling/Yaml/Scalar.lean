import Tiling.Yaml.Cursor
import Tiling.Yaml.Token

/-!
The text of scalars. Within quoted and plain scalars a gap that holds line breaks is folded: one
line feed becomes a space, and of several the first is dropped.
-/

namespace Tiling.Yaml.Scalar

/-- What a gap within a scalar stands for. -/
def fold (gap : List Char) : List Char :=
  match gap.filter isBreak with
  | [] => gap
  | ['\n'] => [' ']
  | '\n' :: more => more
  | breaks => breaks

/-! ### Quoted scalars -/

/-- The value of a hexadecimal digit. -/
def hexDigit? (char : Char) : Option Nat :=
  if char.isDigit then some (char.toNat - '0'.toNat)
  else if 'a' ≤ char ∧ char ≤ 'f' then some (char.toNat - 'a'.toNat + 10)
  else if 'A' ≤ char ∧ char ≤ 'F' then some (char.toNat - 'A'.toNat + 10)
  else none

/-- The number that hexadecimal digits stand for. -/
def ofHex? (digits : List Char) : Option Nat :=
  digits.foldlM (fun value digit => (hexDigit? digit).map (16 * value + ·)) 0

/-- The character whose number is given by the next digits, of which there must be enough. -/
def numbered? (count : Nat) (rest : List Char) : Option Char := do
  let digits := rest.take count
  if digits.length < count then none
  else
    let code ← ofHex? digits
    if code.isValidChar then some (Char.ofNat code) else none

/-- The character that is written after a backslash, and by how many characters. -/
def escaped? : List Char → Option (Char × Nat)
  | '0' :: _ => some ('\x00', 1)
  | 'a' :: _ => some ('\x07', 1)
  | 'b' :: _ => some ('\x08', 1)
  | 't' :: _ => some ('\t', 1)
  | '\t' :: _ => some ('\t', 1)
  | 'n' :: _ => some ('\n', 1)
  | 'v' :: _ => some ('\x0b', 1)
  | 'f' :: _ => some ('\x0c', 1)
  | 'r' :: _ => some ('\r', 1)
  | 'e' :: _ => some ('\x1b', 1)
  | ' ' :: _ => some (' ', 1)
  | '"' :: _ => some ('"', 1)
  | '/' :: _ => some ('/', 1)
  | '\\' :: _ => some ('\\', 1)
  | 'N' :: _ => some ('\u0085', 1)
  | '_' :: _ => some ('\u00a0', 1)
  | 'L' :: _ => some ('\u2028', 1)
  | 'P' :: _ => some ('\u2029', 1)
  | 'x' :: rest => (numbered? 2 rest).map (·, 3)
  | 'u' :: rest => (numbered? 4 rest).map (·, 5)
  | 'U' :: rest => (numbered? 8 rest).map (·, 9)
  | _ => none

/-- Reads on in a quoted scalar up to and past the closing quote. The text so far is held in
reverse. A line of the scalar must not look like the mark of a document. -/
def quotedFrom (double : Bool) : Nat → List Char → Cursor → Option (String × Cursor)
  | 0, _, _ => none
  | fuel + 1, text, cursor =>
    let resume (added : List Char) (cursor : Cursor) : Option (String × Cursor) :=
      if cursor.atDocumentMark then none
      else quotedFrom double fuel (added.reverse ++ text) cursor
    match cursor.rest with
    | [] => none
    | char :: rest =>
      if isGap char then
        let (gap, cursor) := cursor.takeGap
        resume (fold gap) cursor
      else if double then
        if char = '"' then some (String.ofList text.reverse, cursor.advance 1)
        else if char = '\\' then
          if rest.head?.any isBreak then
            let (gap, cursor) := (cursor.advance 1).newline.takeGap
            resume (gap.filter isBreak) cursor
          else
            match escaped? rest with
            | some (char, width) => resume [char] (cursor.advance (width + 1))
            | none => none
        else resume [char] (cursor.advance 1)
      else if char = '\'' then
        if rest.head? = some '\'' then resume ['\''] (cursor.advance 2)
        else some (String.ofList text.reverse, cursor.advance 1)
      else resume [char] (cursor.advance 1)

/-- Reads a quoted scalar from its opening quote. -/
def quoted? (double : Bool) (cursor : Cursor) : Option (String × Cursor) :=
  quotedFrom double cursor.bound [] (cursor.advance 1)

/-! ### Plain scalars -/

def isBracket (char : Char) : Bool :=
  char = '[' || char = ']' || char = '\x7b' || char = '\x7d'

/-- The longest word that is part of a plain scalar. It ends before a colon that a gap follows
and, within brackets, before a comma or bracket; there a colon right before one of these or a
question mark is refused. -/
def plainWord? (bracketed : Bool) : List Char → Option (List Char)
  | [] => some []
  | char :: rest =>
    if isGap char then some []
    else if char = ':' then
      if bracketed && rest.head?.any fun next => isBracket next || next = ',' || next = '?' then
        none
      else if rest.head?.all isGap then some []
      else (plainWord? bracketed rest).map (char :: ·)
    else if bracketed && (isBracket char || char = ',') then some []
    else (plainWord? bracketed rest).map (char :: ·)

/-- Whether a tab stands to the left of a column in a line that a gap begins. The column is
unknown up to the first line break. -/
def tabBefore (limit : Nat) : Option Nat → List Char → Bool
  | _, [] => false
  | column, char :: rest =>
    if isBreak char then tabBefore limit (some 0) rest
    else match column with
      | none => tabBefore limit none rest
      | some column =>
        (char = '\t' && column < limit) || tabBefore limit (some (column + 1)) rest

/-- Reads on in a plain scalar behind one of its words; the text so far is held in reverse. The
flag says whether the scalar ended after a line break. -/
def plainFrom (bracketed : Bool) (indent : Nat) :
    Nat → List Char → Cursor → Option (String × Bool × Cursor)
  | 0, _, _ => none
  | fuel + 1, text, cursor =>
    let (gap, next) := cursor.takeGap
    let ends := gap.isEmpty || (!bracketed && next.column < indent) || next.atDocumentMark ||
      next.startsWith '#'
    if tabBefore indent none gap then none
    else
      match if ends then some [] else plainWord? bracketed next.rest with
      | none => none
      | some [] => some (String.ofList text.reverse, gap.any isBreak, next)
      | some word =>
        plainFrom bracketed indent fuel (word.reverse ++ (fold gap).reverse ++ text)
          (next.advance word.length)

/-- Reads a plain scalar, whose further lines must start at a column of at least `indent` unless
it stands within brackets. -/
def plain? (bracketed : Bool) (indent : Nat) (cursor : Cursor) :
    Option (String × Bool × Cursor) := do
  let word ← plainWord? bracketed cursor.rest
  plainFrom bracketed indent cursor.bound word.reverse (cursor.advance word.length)

/-! ### Block scalars -/

/-- What becomes of the line breaks at the end of a block scalar. -/
inductive Chomp where
  | strip
  | clip
  | keep
deriving DecidableEq

def chomp? : Char → Option Chomp
  | '-' => some .strip
  | '+' => some .keep
  | _ => none

/-- Reads the marks behind the opening of a block scalar: how it ends and by how much it is
indented, each of which may be left out, in either order. -/
def header? (cursor : Cursor) : Option (Chomp × Option Nat × Cursor) :=
  let depth? (cursor : Cursor) : Option (Option Nat × Cursor) :=
    match cursor.rest with
    | char :: _ =>
      if char = '0' then none
      else if char.isDigit then some (some (char.toNat - '0'.toNat), cursor.advance 1)
      else some (none, cursor)
    | [] => some (none, cursor)
  let ending (cursor : Cursor) : Option Chomp := cursor.rest.head?.bind chomp?
  match ending cursor with
  | some chomp => do
    let (depth, cursor) ← depth? (cursor.advance 1)
    return (chomp, depth, cursor)
  | none => do
    let (depth, cursor) ← depth? cursor
    match depth, ending cursor with
    | some depth, some chomp => return (chomp, some depth, cursor.advance 1)
    | depth, _ => return (.clip, depth, cursor)

/-- Passes indentation and empty lines: the breaks passed, and the rightmost column reached. Only
spaces left of the limit are indentation, where there is a limit; a tab there is refused. -/
def emptyLines (limit : Option Nat) :
    Nat → List Char → Nat → Cursor → Option (List Char × Nat × Cursor)
  | 0, _, _, _ => none
  | fuel + 1, breaks, deepest, cursor =>
    let spaces := (cursor.rest.takeWhile (· = ' ')).length
    let cursor := cursor.advance (match limit with
      | some limit => min spaces (limit - cursor.column)
      | none => spaces)
    let deepest := max deepest cursor.column
    match cursor.rest with
    | [] => some (breaks.reverse, deepest, cursor)
    | char :: _ =>
      if char = '\t' && limit.all fun limit => cursor.column < limit then none
      else if isBreak char then emptyLines limit fuel (char :: breaks) deepest cursor.newline
      else some (breaks.reverse, deepest, cursor)

/-- A block scalar under way: its text in reverse, the break behind its last line and the breaks
of the empty lines after that, and whether its last line starts with a blank. -/
structure Block where
  text : List Char := []
  lineBreak : List Char := []
  breaks : List Char
  spaced : Bool := false

/-- The block with a line added to it. If it is folded, a single line feed between two lines that
start without a blank becomes a space. -/
def Block.add (block : Block) (folds : Bool) (line lineBreak breaks : List Char) : Block :=
  let spaced := line.head?.any isBlank
  let glue :=
    if folds && block.lineBreak = ['\n'] && !block.spaced && !spaced then
      if block.breaks.isEmpty then [' '] else block.breaks
    else block.lineBreak ++ block.breaks
  { text := line.reverse ++ glue.reverse ++ block.text, lineBreak, breaks, spaced }

def Block.finish (block : Block) : Chomp → List Char
  | .strip => block.text.reverse
  | .clip => block.text.reverse ++ block.lineBreak
  | .keep => block.text.reverse ++ block.lineBreak ++ block.breaks

/-- Reads the lines of a block scalar as far as they are indented. -/
def blockLines (folds : Bool) (indent : Nat) : Nat → Block → Cursor → Option (Block × Cursor)
  | 0, _, _ => none
  | fuel + 1, block, cursor =>
    if cursor.column ≠ indent ∨ cursor.rest.isEmpty then some (block, cursor)
    else do
      let (line, cursor) := cursor.takeWhile (!isBreak ·)
      let lineBreak := cursor.rest.take 1
      let cursor := cursor.next
      let (breaks, _, cursor) ← emptyLines (some indent) cursor.bound [] 0 cursor
      blockLines folds indent fuel (block.add folds line lineBreak breaks) cursor

/-- Reads a block scalar from its opening mark. Its indentation is that of the collection around
it and the depth in its header, or else that of its first line that is not empty. -/
def block? (folds : Bool) (around : Option Nat) (cursor : Cursor) : Option (String × Cursor) := do
  let (chomp, depth, cursor) ← header? (cursor.advance 1)
  let cursor ← cursor.finishLine?
  let limit := depth.map (around.getD 0 + ·)
  let (breaks, deepest, cursor) ← emptyLines limit cursor.bound [] 0 cursor
  let least := match around with
    | some column => column + 1
    | none => 1
  let indent := limit.getD (max deepest least)
  let (block, cursor) ←
    blockLines folds indent cursor.bound { breaks } cursor
  return (String.ofList (block.finish chomp), cursor)

end Tiling.Yaml.Scalar
