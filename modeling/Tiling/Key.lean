/-!
Keys: the types whose values may name cells, tiles, slots and sockets. A key type has a total
order that agrees with equality, and nothing else is asked of it.
-/

namespace Tiling

/-- A totally ordered type in which only equal values compare as equal. -/
class Key (α : Type) extends Ord α where
  trans : Std.TransOrd α
  lawful : Std.LawfulEqOrd α

namespace Key

instance (priority := low) toTransOrd {α : Type} [Key α] : Std.TransOrd α := Key.trans
instance (priority := low) toLawfulEqOrd {α : Type} [Key α] : Std.LawfulEqOrd α := Key.lawful

/-- Keys are told apart by their order. -/
instance (priority := low) decidableEq {α : Type} [Key α] : DecidableEq α := fun first second =>
  decidable_of_iff (compare first second = .eq) Std.LawfulEqOrd.compare_eq_iff_eq

end Key

instance : Key Nat := ⟨inferInstance, inferInstance⟩
instance : Key Int := ⟨inferInstance, inferInstance⟩
instance : Key Char := ⟨inferInstance, inferInstance⟩
instance : Key Bool := ⟨inferInstance, inferInstance⟩
instance : Key String := ⟨inferInstance, inferInstance⟩

end Tiling
