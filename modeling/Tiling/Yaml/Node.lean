import Tiling.Yaml.Lexer

/-!
Documents as nodes. A node may have an anchor, and an alias stands for the node of an anchor; an
alias may lie within the very node that it stands for, so aliases are kept as references and
followed only where their node is asked for. What an anchor refers by is the number of names that
were in use before it. A name that is used again may thus share its number with the next new name,
and an alias of that number stands for the last node that got it, in all of the document.
-/

namespace Tiling.Yaml

/-- A node of a document. -/
inductive Node where
  /-- A text with its tag, if it has one. -/
  | scalar (text : String) (style : Style) (tag : Option String)
  | list (items : List Node)
  | map (entries : List (Node × Node))
  /-- The last node with the number. -/
  | alias (number : Nat)
deriving Inhabited

namespace Node

/-- What stands where a node is left out. -/
def empty : Node := .scalar "" .plain none

mutual

/-- How many parts a node has: every scalar and alias in it, and both ends of every list and map. -/
def parts : Node → Nat
  | .scalar .. => 1
  | .list items => 2 + itemParts items
  | .map entries => 2 + entryParts entries
  | .alias _ => 1

def itemParts : List Node → Nat
  | [] => 0
  | item :: rest => parts item + itemParts rest

def entryParts : List (Node × Node) → Nat
  | [] => 0
  | (key, value) :: rest => parts key + parts value + entryParts rest

end

end Node

/-- A document with its anchored nodes in the order in which they start, and for each number the
place in that order of the last node that got it. -/
structure Document where
  root : Node
  anchored : Array Node
  places : Array Nat
deriving Inhabited

/-- A document partly read from its tokens. -/
structure NodeReader where
  tokens : List Token
  /-- What the declared tag handles stand for. -/
  handles : List (String × String)
  anchored : Array Node := #[]
  places : Array Nat := #[]
  /-- The names in use for anchors, with their numbers. -/
  numbers : List (String × Nat) := []

/-- A reading that takes tokens from the front. -/
abbrev Reading (α : Type) := StateT NodeReader Option α

namespace NodeReader

def peek? : Reading (Option Token) := return (← get).tokens.head?

def skip : Reading Unit := modify fun reader => { reader with tokens := reader.tokens.drop 1 }

/-- Takes the token if it is next, and says whether it was. -/
def takes (token : Token) : Reading Bool := do
  if (← peek?) = some token then
    skip
    return true
  else return false

/-- Takes the token, which must be next. -/
def expect (token : Token) : Reading Unit := do
  unless ← takes token do failure

/-- Whether the next token is one of these. -/
def isNext (tokens : List Token) : Reading Bool :=
  return (← peek?).any fun token => token ∈ tokens

/-- What a tag stands for. -/
def meaning? (handle suffix : String) : Reading String := do
  if handle.isEmpty then return suffix
  else
    let (_, meaning) ← (← get).handles.find? fun (name, _) => name = handle
    return meaning ++ suffix

def tag? : Reading (Option String) := do
  match ← peek? with
  | some (.tag handle suffix) =>
    skip
    return some (← meaning? handle suffix)
  | _ => return none

def anchor? : Reading (Option String) := do
  match ← peek? with
  | some (.anchor name) =>
    skip
    return some name
  | _ => return none

/-- An anchor and a tag, either of which may be left out, in either order. -/
def properties : Reading (Option String × Option String) := do
  match ← anchor? with
  | some anchor => return (some anchor, ← tag?)
  | none =>
    let tag ← tag?
    return (← anchor?, tag)

/-- Gives a number to an anchor and a place to the node that follows. -/
def place (name : String) : Reading Nat := do
  let { anchored, places, numbers, .. } ← get
  let number := numbers.length
  modify fun reader => { reader with
    anchored := anchored.push .empty
    places :=
      if number < places.size then places.setIfInBounds number anchored.size
      else places.push anchored.size
    numbers := (name, number) :: numbers.filter fun (known, _) => known ≠ name }
  return anchored.size

def fill (place : Nat) (node : Node) : Reading Unit :=
  modify fun reader => { reader with anchored := reader.anchored.setIfInBounds place node }

/-- The node that stands for an alias; its name must be in use. -/
def alias? (name : String) : Reading Node := do
  let (_, number) ← (← get).numbers.find? fun (known, _) => known = name
  return .alias number

end NodeReader

open NodeReader

/-- Where a node stands, which decides what it may be. -/
inductive Place where
  | bracketed
  | block
  /-- In a block map, where a list need not be indented. -/
  | entry
deriving DecidableEq

mutual

/-- Reads a node. -/
def readNode (place : Place) : Nat → Reading Node
  | 0 => failure
  | fuel + 1 => do
    if let some (.alias name) ← peek? then
      skip
      return ← alias? name
    let (anchor, tag) ← properties
    match anchor with
    | none => readContent place tag (tag.isSome) fuel
    | some name =>
      let slot ← NodeReader.place name
      let node ← readContent place tag true fuel
      fill slot node
      return node

/-- Reads a node behind its properties. It may be left out if it has any. -/
def readContent (place : Place) (tag : Option String) (marked : Bool) : Nat → Reading Node
  | 0 => failure
  | fuel + 1 => do
    match ← peek? with
    | some (.scalar text style) =>
      skip
      return .scalar text style tag
    | some .listOpen =>
      skip
      return .list (← readBracketedItems true fuel)
    | some .mapOpen =>
      skip
      return .map (← readBracketedEntries true fuel)
    | some .item =>
      if place = .entry then return .list (← readItems fuel)
      else if marked then return .scalar "" .plain tag
      else failure
    | some .blockList =>
      if place = .bracketed then failure
      skip
      let items ← readItems fuel
      expect .blockEnd
      return .list items
    | some .blockMap =>
      if place = .bracketed then failure
      skip
      return .map (← readEntries fuel)
    | _ => if marked then return .scalar "" .plain tag else failure

/-- Reads a node, or the lack of one before one of the tokens that may follow it. -/
def readUnless (ends : List Token) (place : Place) : Nat → Reading Node
  | 0 => failure
  | fuel + 1 => do
    if ← isNext ends then return .empty else readNode place fuel

/-- Reads the items of a block list. -/
def readItems : Nat → Reading (List Node)
  | 0 => failure
  | fuel + 1 => do
    if ← takes .item then
      let item ← readUnless [.item, .key, .value, .blockEnd] .block fuel
      return item :: (← readItems fuel)
    else return []

/-- Reads the entries of a block map, and its end. -/
def readEntries : Nat → Reading (List (Node × Node))
  | 0 => failure
  | fuel + 1 => do
    if ← takes .blockEnd then return []
    expect .key
    let key ← readUnless [.key, .value, .blockEnd] .entry fuel
    let value ←
      if ← takes .value then readUnless [.key, .value, .blockEnd] .entry fuel
      else pure .empty
    return (key, value) :: (← readEntries fuel)

/-- Reads the items of a bracketed list, and its end. -/
def readBracketedItems (first : Bool) : Nat → Reading (List Node)
  | 0 => failure
  | fuel + 1 => do
    if ← takes .listClose then return []
    unless first do expect .comma
    if ← takes .listClose then return []
    let item ←
      if ← takes .key then readPair fuel else readNode .bracketed fuel
    return item :: (← readBracketedItems false fuel)

/-- Reads a map of one entry that stands in a bracketed list without brackets of its own. A key
that is left out takes the token after it along. -/
def readPair : Nat → Reading Node
  | 0 => failure
  | fuel + 1 => do
    let key ←
      if ← isNext [.value, .comma, .listClose] then
        skip
        pure Node.empty
      else readNode .bracketed fuel
    let value ←
      if ← takes .value then readUnless [.comma, .listClose] .bracketed fuel
      else pure .empty
    return .map [(key, value)]

/-- Reads the entries of a bracketed map, and its end. -/
def readBracketedEntries (first : Bool) : Nat → Reading (List (Node × Node))
  | 0 => failure
  | fuel + 1 => do
    if ← takes .mapClose then return []
    unless first do expect .comma
    if ← takes .mapClose then return []
    let entry ←
      if ← takes .key then
        let key ← readUnless [.value, .comma, .mapClose] .bracketed fuel
        let value ←
          if ← takes .value then readUnless [.comma, .mapClose] .bracketed fuel
          else pure .empty
        pure (key, value)
      else pure (← readNode .bracketed fuel, .empty)
    return entry :: (← readBracketedEntries false fuel)

end

namespace Document

/-- Reads the directives before a document: at most one of a version, which must be known, and at
most one for each handle. -/
def directives? (version : Bool) (handles : List (String × String)) :
    List Token → Option (List (String × String) × List Token)
  | .version major minor :: rest =>
    if version || !(major = 1 && (minor = 1 || minor = 2)) then none
    else directives? true handles rest
  | .handle name meaning :: rest =>
    if handles.any fun (known, _) => known = name then none
    else directives? version ((name, meaning) :: handles) rest
  | rest => some (handles, rest)

/-- The handles that need no directive. -/
def knownHandles : List (String × String) := [("!", "!"), ("!!", "tag:yaml.org,2002:")]

/-- The document that tokens stand for, which must be the only one. Its start must be marked if
directives come before it. -/
def ofTokens? (tokens : List Token) : Option Document := do
  let (handles, rest) ← directives? false [] tokens
  let (isMarked, rest) ←
    match rest with
    | [] => none
    | .documentStart :: rest => some (true, rest)
    | rest => if rest.length = tokens.length then some (false, rest) else none
  let isEmpty := isMarked && match rest with
    | [] | .documentStart :: _ | .documentEnd :: _ | .version .. :: _ | .handle .. :: _ => true
    | _ => false
  let reading := if isEmpty then pure Node.empty else readNode .block (4 * rest.length + 4)
  let (root, reader) ← reading.run { tokens := rest, handles := handles ++ knownHandles }
  let { tokens, anchored, places, .. } := reader
  if tokens.all (· = .documentEnd) then return { root, anchored, places } else none

/-- The document that a text holds, which must be the only one. -/
def ofText? (text : String) : Option Document := do ofTokens? (← Token.ofText? text)

/-- The last node with a number. -/
def numbered (document : Document) (number : Nat) : Node :=
  ((document.places[number]?).bind fun place => document.anchored[place]?).getD .empty

end Document

end Tiling.Yaml
