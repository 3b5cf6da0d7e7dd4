import Tiling.Yaml.Property

/-!
From text to tokens. A block collection is opened by the column of its first entry, and it ends
where a line starts further to the left. Whether a node is a key shows only at the colon behind
it, so the places where a key may have started are kept until then; a key must stand in one line
and take up no more than 1024 bytes.
-/

namespace Tiling.Yaml

/-- A place where a key may have started. -/
structure KeyStart where
  /-- How many tokens stand before it. -/
  place : Nat
  /-- Whether nothing but a key may stand there. -/
  required : Bool
  index : Nat
  line : Nat
  column : Nat
deriving DecidableEq, Inhabited

/-- A text partly read as tokens. -/
structure Lexer where
  cursor : Cursor
  tokens : Array Token := #[]
  /-- The columns of the block collections around the cursor, the innermost first. -/
  indents : List Nat := []
  /-- The place where a key may have started, if there is one, in the innermost pair of brackets. -/
  start : Option KeyStart := none
  /-- The same for the brackets further out, and last for outside all brackets. -/
  outer : List (Option KeyStart) := []
  /-- Whether a key may start at the cursor. -/
  keyAllowed : Bool := true
deriving Inhabited

namespace Lexer

def bracketed (lexer : Lexer) : Bool := !lexer.outer.isEmpty

/-- The column at which the lines of a nested node may start at the earliest. -/
def leastColumn (lexer : Lexer) : Nat :=
  match lexer.indents with
  | column :: _ => column + 1
  | [] => 0

def emit (lexer : Lexer) (token : Token) : Lexer :=
  { lexer with tokens := lexer.tokens.push token }

/-- Adds a token that takes up some characters at the cursor. -/
def emitAdvance (lexer : Lexer) (token : Token) (count : Nat) : Lexer :=
  { lexer.emit token with cursor := lexer.cursor.advance count }

/-! ### Gaps between tokens -/

/-- Passes blanks, comments and line breaks. Outside brackets a tab may not stand where a key
may. -/
def skipGap : Nat → Lexer → Lexer
  | 0, lexer => lexer
  | fuel + 1, lexer =>
    let isSkipped (char : Char) : Bool :=
      char = ' ' || ((lexer.bracketed || !lexer.keyAllowed) && char = '\t')
    let cursor := (lexer.cursor.skipOrderMark.skipWhile isSkipped).skipComment
    if cursor.rest.head?.any isBreak then
      skipGap fuel
        { lexer with cursor := cursor.newline, keyAllowed := lexer.keyAllowed || !lexer.bracketed }
    else { lexer with cursor }

/-! ### Keys -/

/-- Whether a key that started there can no longer end at the cursor. -/
def isStale (cursor : Cursor) (start : KeyStart) : Bool :=
  start.line < cursor.line || start.index + 1024 < cursor.index

/-- Gives up a place where a key may have started, unless a key was required there. -/
def giveUp? (isGone : KeyStart → Bool) : Option KeyStart → Option (Option KeyStart)
  | some start =>
    if !isGone start then some (some start) else if start.required then none else some none
  | none => some none

/-- Gives up the innermost place if it is out of reach. A place further out need not be looked at
before its brackets are closed, since what is out of reach stays so. -/
def dropStale? (lexer : Lexer) : Option Lexer := do
  return { lexer with start := ← giveUp? (isStale lexer.cursor) lexer.start }

/-- Gives up the innermost place. -/
def dropStart? (lexer : Lexer) : Option Lexer := do
  return { lexer with start := ← giveUp? (fun _ => true) lexer.start }

/-- Notes that a key may start at the cursor, if one is allowed there. -/
def markStart? (lexer : Lexer) : Option Lexer :=
  if lexer.keyAllowed then do
    let lexer ← lexer.dropStart?
    let { index, line, column, .. } := lexer.cursor
    let required := !lexer.bracketed && lexer.indents.head? = some column
    let start : KeyStart := { place := lexer.tokens.size, required, index, line, column }
    return { lexer with start := some start }
  else some lexer

/-! ### Indentation -/

/-- Opens a block collection at a column to the right of the present one, with its token at a
place among those read. -/
def openBlock (lexer : Lexer) (column place : Nat) (token : Token) : Lexer :=
  if lexer.bracketed || column < lexer.leastColumn then lexer
  else
    { lexer with
      indents := column :: lexer.indents
      tokens := lexer.tokens.insertIdxIfInBounds place token }

/-- Closes the block collections that do not hold. -/
def closeBlocks (lexer : Lexer) (holds : Nat → Bool) : Lexer :=
  if lexer.bracketed then lexer
  else
    let closed := lexer.indents.takeWhile (!holds ·)
    { lexer with
      indents := lexer.indents.drop closed.length
      tokens := lexer.tokens ++ closed.map fun _ => Token.blockEnd }

/-! ### Tokens -/

/-- Goes on with a node that may be a key. -/
def beginNode? (lexer : Lexer) : Option Lexer :=
  lexer.markStart?.map fun lexer => { lexer with keyAllowed := false }

/-- Ends every open collection for a mark or directive at the start of a line. -/
def endAll? (lexer : Lexer) : Option Lexer :=
  (lexer.closeBlocks fun _ => false).dropStart?.map fun lexer => { lexer with keyAllowed := false }

def openBracket? (lexer : Lexer) (token : Token) : Option Lexer :=
  lexer.markStart?.map fun lexer =>
    let lexer := lexer.emitAdvance token 1
    { lexer with start := none, outer := lexer.start :: lexer.outer, keyAllowed := true }

def closeBracket? (lexer : Lexer) (token : Token) : Option Lexer :=
  lexer.dropStart?.map fun lexer =>
    let lexer := { lexer.emitAdvance token 1 with keyAllowed := false }
    match lexer.outer with
    | start :: outer => { lexer with start, outer }
    | [] => lexer

def comma? (lexer : Lexer) : Option Lexer :=
  lexer.dropStart?.map fun lexer => { lexer.emitAdvance .comma 1 with keyAllowed := true }

/-- Opens a block collection, if none is open, at an indicator that needs the start of a line. -/
def beginEntry? (lexer : Lexer) (token : Token) : Option Lexer :=
  if lexer.bracketed then some lexer
  else if lexer.keyAllowed then
    some (lexer.openBlock lexer.cursor.column lexer.tokens.size token)
  else none

def item? (lexer : Lexer) : Option Lexer := do
  let lexer ← (← lexer.beginEntry? .blockList).dropStart?
  return { lexer.emitAdvance .item 1 with keyAllowed := true }

def key? (lexer : Lexer) : Option Lexer := do
  let lexer ← (← lexer.beginEntry? .blockMap).dropStart?
  return { lexer.emitAdvance .key 1 with keyAllowed := !lexer.bracketed }

/-- Reads the colon before a value. If a key may have started before it, it did start there. -/
def value? (lexer : Lexer) : Option Lexer :=
  match lexer.start with
  | some start =>
    let lexer := { lexer with
      tokens := lexer.tokens.insertIdxIfInBounds start.place .key
      start := none
      keyAllowed := false }
    some ((lexer.openBlock start.column start.place .blockMap).emitAdvance .value 1)
  | none => do
    let lexer ← lexer.beginEntry? .blockMap
    return { lexer.emitAdvance .value 1 with keyAllowed := !lexer.bracketed }

def anchor? (lexer : Lexer) (token : String → Token) : Option Lexer := do
  let lexer ← lexer.beginNode?
  let (name, cursor) ← Property.anchorName? lexer.cursor
  return { lexer.emit (token name) with cursor }

def tag? (lexer : Lexer) : Option Lexer := do
  let lexer ← lexer.beginNode?
  let (token, cursor) ← Property.tag? lexer.bracketed lexer.cursor
  return { lexer.emit token with cursor }

def quoted? (lexer : Lexer) (double : Bool) : Option Lexer := do
  let lexer ← lexer.beginNode?
  let (text, cursor) ← Scalar.quoted? double lexer.cursor
  let style := if double then Style.doubleQuoted else Style.singleQuoted
  return { lexer.emit (.scalar text style) with cursor }

def plain? (lexer : Lexer) : Option Lexer := do
  let lexer ← lexer.beginNode?
  let (text, brokeLine, cursor) ←
    Scalar.plain? lexer.bracketed lexer.leastColumn lexer.cursor
  return { lexer.emit (.scalar text .plain) with cursor, keyAllowed := brokeLine }

def block? (lexer : Lexer) (folds : Bool) : Option Lexer := do
  let lexer ← lexer.dropStart?
  let (text, cursor) ← Scalar.block? folds lexer.indents.head? lexer.cursor
  let style := if folds then Style.folded else Style.literal
  return { lexer.emit (.scalar text style) with cursor, keyAllowed := true }

def directive? (lexer : Lexer) : Option Lexer := do
  let lexer ← lexer.endAll?
  let (token, cursor) ← Property.directive? lexer.cursor
  return { lexer.emit token with cursor }

def documentMark? (lexer : Lexer) (token : Token) : Option Lexer :=
  lexer.endAll?.map fun lexer => lexer.emitAdvance token 3

/-- Whether a plain scalar may start at the cursor with the character. -/
def startsPlain (lexer : Lexer) (char : Char) : Bool :=
  if char = '-' then !lexer.cursor.rest[1]?.any isBlank
  else if char = '?' || char = ':' then !lexer.bracketed && !lexer.cursor.gapAt 1
  else !isGap char && char ∉ ",[]\x7b\x7d#&*!|>'\"%@\x60".toList

/-- Reads the token that starts with the character at the cursor. -/
def token? (lexer : Lexer) (char : Char) : Option Lexer :=
  let indicates := lexer.bracketed || lexer.cursor.gapAt 1
  if char = '%' && lexer.cursor.column = 0 then lexer.directive?
  else if lexer.cursor.atMark '-' then lexer.documentMark? .documentStart
  else if lexer.cursor.atMark '.' then lexer.documentMark? .documentEnd
  else if char = '[' then lexer.openBracket? .listOpen
  else if char = '\x7b' then lexer.openBracket? .mapOpen
  else if char = ']' then lexer.closeBracket? .listClose
  else if char = '\x7d' then lexer.closeBracket? .mapClose
  else if char = ',' then lexer.comma?
  else if char = '-' && lexer.cursor.gapAt 1 then lexer.item?
  else if char = '?' && indicates then lexer.key?
  else if char = ':' && indicates then lexer.value?
  else if char = '*' then lexer.anchor? .alias
  else if char = '&' then lexer.anchor? .anchor
  else if char = '!' then lexer.tag?
  else if char = '|' && !lexer.bracketed then lexer.block? false
  else if char = '>' && !lexer.bracketed then lexer.block? true
  else if char = '\'' then lexer.quoted? false
  else if char = '"' then lexer.quoted? true
  else if lexer.startsPlain char then lexer.plain?
  else none

/-- Reads all tokens from the cursor on. -/
def finish? : Nat → Lexer → Option (List Token)
  | 0, _ => none
  | fuel + 1, lexer => do
    let lexer ← (skipGap lexer.cursor.bound lexer).dropStale?
    match lexer.cursor.rest with
    | [] =>
      let lexer ← lexer.endAll?
      return lexer.tokens.toList
    | char :: _ =>
      let column := lexer.cursor.column
      finish? fuel (← (lexer.closeBlocks fun indent => indent ≤ column).token? char)

end Lexer

/-- The tokens of a text. -/
def Token.ofText? (text : String) : Option (List Token) := do
  let cursor ← Cursor.ofText? text
  Lexer.finish? cursor.bound { cursor }

end Tiling.Yaml
