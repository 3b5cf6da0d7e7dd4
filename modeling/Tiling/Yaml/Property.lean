import Tiling.Yaml.Scalar

/-!
The properties of nodes, which are anchors and tags, and the directives that declare tag handles
and the version of a document. A tag is a text of octets, each of which is held as the character
of its number, and ends before the first null among them.
-/

namespace Tiling.Yaml.Property

/-- Whether a tag may hold the character as it stands. Commas and square brackets are allowed only
between angle brackets and in what a handle stands for. -/
def isTagChar (verbatim : Bool) (char : Char) : Bool :=
  isWord char || char ∈ ";/?:@&=+$.!~*'()".toList || (verbatim && char ∈ ",[]".toList)

/-- The next octet, written as a percent sign and two hexadecimal digits. -/
def octet? : List Char → Option (Nat × List Char)
  | '%' :: rest => do
    let digits := rest.take 2
    if digits.length < 2 then none else return (← Scalar.ofHex? digits, rest.drop 2)
  | _ => none

/-- How many octets follow the first one of a character. -/
def following? (octet : Nat) : Option Nat :=
  if octet < 0x80 then some 0
  else if 0xC0 ≤ octet ∧ octet < 0xE0 then some 1
  else if 0xE0 ≤ octet ∧ octet < 0xF0 then some 2
  else if 0xF0 ≤ octet ∧ octet < 0xF8 then some 3
  else none

/-- Reads the octets that continue a character. -/
def continued? : Nat → List Char → Option (List Char × List Char)
  | 0, rest => some ([], rest)
  | count + 1, rest => do
    let (octet, rest) ← octet? rest
    if 0x80 ≤ octet ∧ octet < 0xC0 then
      let (more, rest) ← continued? count rest
      return (Char.ofNat octet :: more, rest)
    else none

/-- Reads the octets of a character. Whether they are the shortest that stand for one, and for
which, does not matter. -/
def encoded? (rest : List Char) : Option (List Char × List Char) := do
  let (octet, rest) ← octet? rest
  let (more, rest) ← continued? (← following? octet) rest
  return (Char.ofNat octet :: more, rest)

/-- Reads on in a tag as far as its characters go; the text so far is held in reverse. -/
def tagFrom (verbatim : Bool) : Nat → List Char → List Char → Option (List Char × List Char)
  | 0, _, _ => none
  | fuel + 1, text, rest =>
    match rest with
    | [] => some (text.reverse, [])
    | char :: more =>
      if char = '%' then do
        let (octets, rest) ← encoded? rest
        tagFrom verbatim fuel (octets.reverse ++ text) rest
      else if isTagChar verbatim char then tagFrom verbatim fuel (char :: text) more
      else some (text.reverse, rest)

/-- Reads a tag, or a part of one. -/
def tagText? (verbatim : Bool) (cursor : Cursor) : Option (List Char × Cursor) := do
  let (text, rest) ← tagFrom verbatim cursor.bound [] cursor.rest
  return (text, cursor.advance (cursor.rest.length - rest.length))

/-- The text that octets spell. -/
def spelled (octets : List Char) : String := String.ofList (octets.takeWhile (· ≠ '\x00'))

/-- Reads an exclamation mark with the word after it and the mark that may close it. -/
def handle? (cursor : Cursor) : Option (List Char × Cursor) :=
  if cursor.startsWith '!' then
    let (word, cursor) := (cursor.advance 1).takeWhile isWord
    if cursor.startsWith '!' then some ('!' :: word ++ ['!'], cursor.advance 1)
    else some ('!' :: word, cursor)
  else none

/-- Whether a handle is closed by a mark of its own. -/
def isClosed (handle : List Char) : Bool := handle.length ≥ 2 && handle.getLast? = some '!'

/-- Reads a tag as its handle and its suffix. A tag in angle brackets has no handle, and neither
has the lone mark. -/
def tagParts? (cursor : Cursor) : Option (String × String × Cursor) :=
  if cursor.rest[1]? = some '<' then do
    let (suffix, cursor) ← tagText? true (cursor.advance 2)
    if suffix.isEmpty || !cursor.startsWith '>' then none
    else return ("", spelled suffix, cursor.advance 1)
  else do
    let (handle, cursor) ← handle? cursor
    let (rest, cursor) ← tagText? false cursor
    if isClosed handle then
      if rest.isEmpty then none
      else return (String.ofList handle, spelled rest, cursor)
    else
      match spelled (handle.drop 1 ++ rest) with
      | "" => return ("", "!", cursor)
      | suffix => return ("!", suffix, cursor)

/-- Reads a tag, which a gap must follow or, within brackets, a comma. -/
def tag? (bracketed : Bool) (cursor : Cursor) : Option (Token × Cursor) := do
  let (handle, suffix, cursor) ← tagParts? cursor
  if cursor.gapAt 0 || (bracketed && cursor.startsWith ',') then
    return (.tag handle suffix, cursor)
  else none

/-- Reads the name of an anchor behind its mark. -/
def anchorName? (cursor : Cursor) : Option (String × Cursor) :=
  let (name, cursor) := (cursor.advance 1).takeWhile isWord
  let ends := cursor.rest.head?.all fun char => isGap char || char ∈ "?:,]\x7d%@\x60".toList
  if name.isEmpty || !ends then none else some (String.ofList name, cursor)

/-- Reads a part of a version number, of at most nine digits. -/
def versionPart? (cursor : Cursor) : Option (Nat × Cursor) :=
  let (digits, cursor) := cursor.takeWhile Char.isDigit
  if digits.isEmpty || digits.length > 9 then none
  else some (digits.foldl (fun value digit => 10 * value + (digit.toNat - '0'.toNat)) 0, cursor)

/-- Reads the version behind the name of its directive. -/
def version? (cursor : Cursor) : Option (Token × Cursor) := do
  let (major, cursor) ← versionPart? (cursor.skipWhile isBlank)
  if cursor.startsWith '.' then
    let (minor, cursor) ← versionPart? (cursor.advance 1)
    return (.version major minor, cursor)
  else none

/-- Reads a handle and what it stands for behind the name of their directive. -/
def handleMeaning? (cursor : Cursor) : Option (Token × Cursor) := do
  let (handle, cursor) ← handle? (cursor.skipWhile isBlank)
  if !(handle = ['!'] || isClosed handle) || !cursor.rest.head?.any isBlank then none
  else
    let (meaning, cursor) ← tagText? true (cursor.skipWhile isBlank)
    if meaning.isEmpty || !cursor.gapAt 0 then none
    else return (.handle (String.ofList handle) (spelled meaning), cursor)

/-- Reads a directive, which takes up a line. There are two kinds, and no other name is known. -/
def directive? (cursor : Cursor) : Option (Token × Cursor) := do
  let (name, cursor) := (cursor.advance 1).takeWhile isWord
  if !cursor.gapAt 0 then none
  else
    let (token, cursor) ←
      match String.ofList name with
      | "YAML" => version? cursor
      | "TAG" => handleMeaning? cursor
      | _ => none
    return (token, ← cursor.finishLine?)

end Tiling.Yaml.Property
