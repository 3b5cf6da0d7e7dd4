import Tiling.Draws

/-!
Seeded draws. The seed is stretched to a key of eight words, and the draws are read off the key
stream of the ChaCha cipher with twelve rounds, two words to a draw. Any draw can be computed by
itself, from the block of the stream in which its words lie.
-/

namespace Tiling.Draws

/-- The state of the generator that stretches a seed. -/
def stretchStep (state : UInt64) : UInt64 :=
  state * 6364136223846793005 + 11634580027462260723

/-- A state's output: its high bits folded into one word and turned by the highest five bits. -/
def stretchOutput (state : UInt64) : UInt32 :=
  let folded := (((state >>> 18) ^^^ state) >>> 27).toUInt32
  let turn := (state >>> 59).toUInt32
  (folded >>> turn) ||| (folded <<< ((32 - turn) % 32))

/-- The key of a seed, from the `count` outputs that follow a state. -/
def stretch (state : UInt64) : Nat → List UInt32
  | 0 => []
  | count + 1 =>
    let next := stretchStep state
    stretchOutput next :: stretch next count

/-- Sixteen words of cipher state. -/
abbrev Block : Type := Vector UInt32 16

namespace Block

def rotateLeft (word count : UInt32) : UInt32 := (word <<< count) ||| (word >>> (32 - count))

/-- Mixes four words of a block. -/
def quarter (block : Block) (a b c d : Fin 16) : Block :=
  let wa := block[a] + block[b]
  let wd := rotateLeft (block[d] ^^^ wa) 16
  let wc := block[c] + wd
  let wb := rotateLeft (block[b] ^^^ wc) 12
  let wa := wa + wb
  let wd := rotateLeft (wd ^^^ wa) 8
  let wc := wc + wd
  let wb := rotateLeft (wb ^^^ wc) 7
  (((block.set a wa).set b wb).set c wc).set d wd

/-- One round on the columns and one on the diagonals. -/
def doubleRound (block : Block) : Block :=
  ((((((((block.quarter 0 4 8 12).quarter 1 5 9 13).quarter 2 6 10 14).quarter 3 7 11 15).quarter
    0 5 10 15).quarter 1 6 11 12).quarter 2 7 8 13).quarter 3 4 9 14)

/-- The block that a key and a counter start from. -/
def start (key : Vector UInt32 8) (counter : UInt64) : Block :=
  let constants : Vector UInt32 4 := #v[0x61707865, 0x3320646e, 0x79622d32, 0x6b206574]
  let place : Vector UInt32 4 := #v[counter.toUInt32, (counter >>> 32).toUInt32, 0, 0]
  constants ++ key ++ place

/-- A block of the key stream: six double rounds, added to where they started. -/
def stream (key : Vector UInt32 8) (counter : UInt64) : Block :=
  let first := start key counter
  let mixed := Nat.repeat doubleRound 6 first
  first.zipWith (· + ·) mixed

end Block

/-- The draws of a seed. -/
def seeded (seed : UInt64) : Draws :=
  let words := (stretch seed 8).toArray
  let key : Vector UInt32 8 := Vector.ofFn fun place => words.getD place 0
  fun position =>
    let block := Block.stream key (position / 8).toUInt64
    let low := block.toArray.getD (2 * (position % 8)) 0
    let high := block.toArray.getD (2 * (position % 8) + 1) 0
    ofWord (low.toUInt64 ||| (high.toUInt64 <<< 32))

end Tiling.Draws
