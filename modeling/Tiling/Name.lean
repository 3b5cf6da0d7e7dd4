import Tiling.Key

/-!
Names as a problem's author writes them: whole numbers and texts. All numbers come before all
texts; numbers are ordered by value and texts by code points.
-/

namespace Tiling

/-- A name given to a cell, a tile, a slot or a socket. -/
inductive Name where
  | number (value : Int)
  | text (value : String)
deriving DecidableEq, Inhabited

namespace Name

protected def compare : Name → Name → Ordering
  | number first, number second => compare first second
  | number _, text _ => .lt
  | text _, number _ => .gt
  | text first, text second => compare first second

instance : Ord Name := ⟨Name.compare⟩

instance : Std.TransOrd Name where
  eq_swap := fun {first second} =>
    match first, second with
    | number _, number _ => (inferInstance : Std.TransOrd Int).eq_swap
    | number _, text _ => rfl
    | text _, number _ => rfl
    | text _, text _ => (inferInstance : Std.TransOrd String).eq_swap
  isLE_trans := fun {first second third} below above =>
    match first, second, third, below, above with
    | number _, number _, number _, below, above =>
      (inferInstance : Std.TransOrd Int).isLE_trans below above
    | number _, _, text _, _, _ => rfl
    | text _, text _, text _, below, above =>
      (inferInstance : Std.TransOrd String).isLE_trans below above

instance : Std.LawfulEqOrd Name where
  compare_self := fun {name} =>
    match name with
    | number _ => (inferInstance : Std.LawfulEqOrd Int).compare_self
    | text _ => (inferInstance : Std.LawfulEqOrd String).compare_self
  eq_of_compare := fun {first second} same =>
    match first, second, same with
    | number _, number _, same =>
      congrArg number ((inferInstance : Std.LawfulEqOrd Int).eq_of_compare same)
    | text _, text _, same =>
      congrArg text ((inferInstance : Std.LawfulEqOrd String).eq_of_compare same)

instance : Key Name := ⟨inferInstance, inferInstance⟩

end Name

end Tiling
