import Tiling.Proofs.Support

/-!
What the symmetry check decides. It looks only at slots on which a tile has a plug set; a pairing
that leads back from each slot brings the others in from the far side.
-/

namespace Tiling

variable {τ σ π : Type} [Key σ] [Key π]

namespace Support

theorem across_ok_iff {support : Support σ} {tile : Nat} {slot : σ} {set : Candidates} :
    support.across tile slot = .ok set ↔
      ∃ row, support.rows[tile]? = some row ∧ (slot, set) ∈ row.entries := by
  unfold across
  cases support.rows[tile]? with
  | none => simp
  | some row =>
    simp only [Option.some.injEq, exists_eq_left', ← SortedMap.get?_eq_some_iff]
    cases row.get? slot <;> simp

theorem isSymmetric_eq_true_iff {support : Support σ} {pairing : σ → σ} :
    support.isSymmetric pairing = true ↔
      ∀ tile slot set, support.across tile slot = .ok set → ∀ other < support.size,
        (other ∈ set ↔ support.allows other (pairing slot) tile = true) := by
  unfold isSymmetric
  simp only [List.all_eq_true, Prod.forall, List.mk_mem_zipIdx_iff_getElem?, Array.getElem?_toList,
    List.mem_range, beq_iff_eq, across_ok_iff]
  constructor
  · rintro checked tile slot set ⟨row, found, listed⟩ other below
    simp [← checked row tile found slot set listed other below]
  · intro law row tile found slot set listed other below
    rw [Bool.eq_iff_iff, decide_eq_true_iff]
    exact law tile slot set ⟨row, found, listed⟩ other below

/-- With a pairing that leads back from each slot, the check decides whether support is mutual,
also across slots on which a tile has no plug set. -/
theorem isSymmetric_iff {support : Support σ} {pairing : σ → σ}
    (involutive : ∀ slot, pairing (pairing slot) = slot) :
    support.isSymmetric pairing = true ↔
      ∀ tile < support.size, ∀ other < support.size, ∀ slot,
        (support.allows tile slot other = true ↔
          support.allows other (pairing slot) tile = true) := by
  rw [isSymmetric_eq_true_iff]
  constructor
  · intro checked tile known other below slot
    refine ⟨fun allowed => ?_, fun allowed => ?_⟩
    · obtain ⟨set, supported, listed⟩ := allows_iff.mp allowed
      exact (checked tile slot set supported other below).mp listed
    · obtain ⟨set, supported, listed⟩ := allows_iff.mp allowed
      have back := (checked other (pairing slot) set supported tile known).mp listed
      rwa [involutive] at back
  · intro law tile slot set supported other below
    obtain ⟨row, found, -⟩ := across_ok_iff.mp supported
    have known := (Array.getElem?_eq_some_iff.mp found).1
    rw [← law tile known other below slot, allows_iff, supported]
    simp

/-- Whatever pairing the support of a catalog was made with, the check with one that leads back
from each slot decides the symmetry law among its tiles. -/
theorem isSymmetric_ofCatalog_iff (catalog : Catalog τ σ π) (pairing : σ → σ) {matching : σ → σ}
    (involutive : ∀ slot, matching (matching slot) = slot) :
    (ofCatalog catalog pairing).isSymmetric matching = true ↔
      ∀ tile < catalog.size, ∀ other < catalog.size, ∀ slot,
        ((∃ set, (ofCatalog catalog pairing).across tile slot = .ok set ∧ other ∈ set) ↔
          ∃ set, (ofCatalog catalog pairing).across other (matching slot) = .ok set ∧
            tile ∈ set) := by
  rw [isSymmetric_iff involutive, size_ofCatalog]
  simp only [allows_iff]

/-- Two tiles of which the first accepts the socket of the second, and the second has no plug set
at all. -/
def oneWay : Catalog Nat Bool Nat where
  tiles := [{ id := 0, sockets := .ofList [(true, 5)], plugs := .ofList [(true, .singleton 6)] },
    { id := 1, sockets := .ofList [(false, 6)], plugs := .ofList [] }]
  distinct := by decide

/-- The law fails across a slot on which the second tile has no plug set, and so does the check. -/
theorem isSymmetric_ofCatalog_iff_oneWay :
    (ofCatalog oneWay not).isSymmetric not = false := by
  rw [← Bool.not_eq_true, isSymmetric_ofCatalog_iff oneWay not Bool.not_not]
  intro law
  have accepted : (ofCatalog oneWay not).allows 0 true 1 = true := by decide +kernel
  have back := (law 1 (by decide) 0 (by decide) false).mpr (allows_iff.mp accepted)
  exact absurd (allows_iff.mpr back) (by decide +kernel)

end Support

end Tiling
