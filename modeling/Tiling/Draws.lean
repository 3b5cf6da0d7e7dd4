/-!
Draws: endless sequences of random numbers, each given by its position. Which draws a computation
takes is then a matter of positions, and taking one changes nothing.
-/

namespace Tiling

/-- An endless sequence of random draws, by position. A draw need not be a number; but only one
`Float` is none, so that the sign of such a draw is not kept. -/
abbrev Draws : Type := Nat → Float

namespace Draws

/-- The draws of a list, then zeros. -/
def ofList (values : Array Float) : Draws := fun position => values.getD position 0

/-- The draws of a list over and over; zeros if there are none. -/
def cycle (values : Array Float) : Draws := fun position =>
  values.getD (position % values.size) 0

/-- A number from zero up to one, from the 53 high bits of a word. -/
def ofWord (word : UInt64) : Float := (word >>> 11).toFloat / 9007199254740992

/-- The draws of a list of words, then zeros. -/
def ofWords (words : Array UInt64) : Draws := fun position => ofWord (words.getD position 0)

end Draws

end Tiling
