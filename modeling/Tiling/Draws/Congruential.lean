import Tiling.Draws

/-!
Linear congruential draws. Each state of the generator is an affine function of the one before,
modulo a power of two, so the state at any position is reached by squaring that function.
-/

namespace Tiling.Draws

/-- An affine function on words. -/
structure Affine where
  scale : UInt64
  shift : UInt64
deriving DecidableEq

namespace Affine

def apply (step : Affine) (word : UInt64) : UInt64 := step.scale * word + step.shift

/-- The first function, then the second. -/
def andThen (first second : Affine) : Affine :=
  ⟨second.scale * first.scale, second.scale * first.shift + second.shift⟩

/-- The function applied `times` times over. -/
def iterate (step : Affine) (times : Nat) : Affine :=
  if times = 0 then ⟨1, 0⟩
  else
    let half := step.iterate (times / 2)
    let even := half.andThen half
    if times % 2 = 0 then even else even.andThen step
termination_by times
decreasing_by exact Nat.div_lt_self (Nat.pos_of_ne_zero ‹_›) (by decide)

end Affine

/-- The step of the generator. -/
def congruentialStep : Affine := ⟨6364136223846793005, 1442695040888963407⟩

/-- The draws of the generator after a starting state. -/
def congruential (start : UInt64) : Draws := fun position =>
  ofWord ((congruentialStep.iterate (position + 1)).apply start)

end Tiling.Draws
