import Tiling.Proofs.Support

/-!
Projection: what the tiles that may lie in one cell let lie across a slot of it. A set of tiles is
projected exactly if each of them is in the catalog and has a plug set on the slot, and then onto
the tiles that one of them meets; otherwise its least tile without such a set is reported.
-/

namespace Tiling

variable {τ σ π : Type} [Key σ] [Key π]

/-- Whether an index is that of a tile with a plug set on a slot. -/
def Catalog.plugged (catalog : Catalog τ σ π) (index : Nat) (slot : σ) : Bool :=
  (catalog.tile? index).any fun tile => tile.plugs.contains slot

theorem Catalog.lt_size_of_plugged {catalog : Catalog τ σ π} {index : Nat} {slot : σ}
    (plugged : catalog.plugged index slot = true) : index < catalog.size := by
  obtain ⟨tile, found, -⟩ := (Option.any_eq_true _ _).mp plugged
  exact (List.getElem?_eq_some_iff.mp found).1

namespace Support

variable {support : Support σ} {tiles : Candidates} {slot : σ} {reason : SupportError σ}

private theorem acrossAny_fold_eq_error_iff {tiles : List Nat} {set : Candidates}
    (ascending : tiles.Pairwise (· < ·)) :
    tiles.foldlM (fun set tile => (support.across tile slot).map set.union) set = .error reason ↔
      ∃ index ∈ tiles, support.across index slot = .error reason ∧
        ∀ smaller ∈ tiles, smaller < index → ∃ row, support.across smaller slot = .ok row := by
  induction tiles generalizing set with
  | nil =>
    constructor
    · intro failed
      cases failed
    · rintro ⟨index, listed, -⟩
      cases listed
  | cons head rest ih =>
    obtain ⟨above, ascending⟩ := List.pairwise_cons.mp ascending
    rw [List.foldlM_cons]
    cases row : support.across head slot with
    | error cause =>
      constructor
      · intro failed
        cases failed
        refine ⟨head, List.mem_cons_self, row, fun smaller listed less => ?_⟩
        rcases List.mem_cons.mp listed with rfl | later
        · exact absurd less (Nat.lt_irrefl smaller)
        · exact absurd less (Nat.lt_asymm (above smaller later))
      · rintro ⟨index, listed, failed, least⟩
        rcases List.mem_cons.mp listed with rfl | later
        · rw [row] at failed
          cases failed
          rfl
        · obtain ⟨set, supported⟩ := least head List.mem_cons_self (above index later)
          rw [row] at supported
          cases supported
    | ok supported =>
      refine (ih ascending).trans ⟨?_, ?_⟩
      · rintro ⟨index, later, failed, least⟩
        refine ⟨index, List.mem_cons_of_mem head later, failed, fun smaller listed less => ?_⟩
        rcases List.mem_cons.mp listed with rfl | listed
        · exact ⟨supported, row⟩
        · exact least smaller listed less
      · rintro ⟨index, listed, failed, least⟩
        rcases List.mem_cons.mp listed with rfl | later
        · rw [row] at failed
          cases failed
        · exact ⟨index, later, failed, fun smaller listed =>
            least smaller (List.mem_cons_of_mem head listed)⟩

/-- Tiles support no set together because of the least that supports none, for its reason. -/
theorem acrossAny_eq_error_iff :
    support.acrossAny tiles slot = .error reason ↔
      ∃ index ∈ tiles, support.across index slot = .error reason ∧
        ∀ smaller ∈ tiles, smaller < index → ∃ row, support.across smaller slot = .ok row := by
  refine (acrossAny_fold_eq_error_iff tiles.ascending_toList).trans ?_
  simp only [Candidates.mem_toList]

private theorem across_of_acrossAny_fold {tiles : List Nat} {set result : Candidates}
    (found : tiles.foldlM (fun set tile => (support.across tile slot).map set.union) set =
      .ok result) : ∀ index ∈ tiles, ∃ row, support.across index slot = .ok row := by
  induction tiles generalizing set with
  | nil => simp
  | cons head rest ih =>
    obtain ⟨row, supported, found⟩ := foldlM_across_cons_ok.mp found
    exact List.forall_mem_cons.mpr ⟨⟨row, supported⟩, ih found⟩

/-- Tiles support a set together exactly if each of them supports one. -/
theorem exists_acrossAny_iff :
    (∃ set, support.acrossAny tiles slot = .ok set) ↔
      ∀ index ∈ tiles, ∃ row, support.across index slot = .ok row := by
  refine ⟨?_, exists_acrossAny⟩
  rintro ⟨set, found⟩ index member
  exact across_of_acrossAny_fold found index (Candidates.mem_toList.mpr member)

section Capacity

private theorem capacity_accepted_fold {entries : List (Tile τ σ π × Nat)} {paired : σ}
    {sockets : SortedSet π} {set : Candidates}
    (below : ∀ entry ∈ entries, entry.2 < set.capacity) :
    (entries.foldl (fun set (tile, index) =>
        match tile.socket? paired with
        | some socket => if sockets.contains socket then set.insert index else set
        | none => set) set).capacity = set.capacity := by
  induction entries generalizing set with
  | nil => rfl
  | cons head rest ih =>
    obtain ⟨tile, index⟩ := head
    obtain ⟨first, below⟩ := List.forall_mem_cons.mp below
    have kept : (match tile.socket? paired with
        | some socket => if sockets.contains socket then set.insert index else set
        | none => set).capacity = set.capacity := by
      have inserted : (set.insert index).capacity = set.capacity := Nat.max_eq_left first
      cases tile.socket? paired with
      | none => rfl
      | some socket => by_cases held : sockets.contains socket <;> simp [held, inserted]
    rw [List.foldl_cons, ih (by rwa [kept]), kept]

theorem capacity_accepted (tiles : List (Tile τ σ π)) (paired : σ) (sockets : SortedSet π) :
    (accepted tiles paired sockets).capacity = tiles.length := by
  refine capacity_accepted_fold fun entry listed => ?_
  exact List.snd_lt_of_mem_zipIdx listed

private theorem capacity_acrossAny_fold {tiles : List Nat} {set result : Candidates}
    (rows : ∀ index row, support.across index slot = .ok row → row.capacity = set.capacity)
    (found : tiles.foldlM (fun set tile => (support.across tile slot).map set.union) set =
      .ok result) : result.capacity = set.capacity := by
  induction tiles generalizing set with
  | nil =>
    cases found
    rfl
  | cons head rest ih =>
    obtain ⟨row, supported, found⟩ := foldlM_across_cons_ok.mp found
    have kept : (set.union row).capacity = set.capacity :=
      Nat.max_eq_left (Nat.le_of_eq (rows head row supported))
    rw [ih (by rwa [kept]) found, kept]

end Capacity

section Catalog

variable {catalog : Catalog τ σ π} {pairing : σ → σ} {index : Nat} {row set : Candidates}

theorem exists_across_iff_plugged :
    (∃ row, (ofCatalog catalog pairing).across index slot = .ok row) ↔
      catalog.plugged index slot = true := by
  rw [across_ofCatalog]
  unfold Catalog.plugged SortedMap.contains
  cases catalog.tile? index with
  | none => simp
  | some tile => cases plugs : tile.plugs.get? slot <;> simp [plugs]

theorem across_eq_error_iff :
    (ofCatalog catalog pairing).across index slot = .error reason ↔
      (catalog.size ≤ index ∧ reason = .unknownTile index) ∨
      (index < catalog.size ∧ catalog.plugged index slot = false ∧
        reason = .missingPlug index slot) := by
  rw [across_ofCatalog]
  unfold Catalog.plugged SortedMap.contains
  cases found : catalog.tile? index with
  | none =>
    have beyond : catalog.size ≤ index := List.getElem?_eq_none_iff.mp found
    simp [beyond, Nat.not_lt.mpr beyond, eq_comm]
  | some tile =>
    have below : index < catalog.size := (List.getElem?_eq_some_iff.mp found).1
    cases plugs : tile.plugs.get? slot <;> simp [plugs, below, Nat.not_le.mpr below, eq_comm]

theorem capacity_across (supported : (ofCatalog catalog pairing).across index slot = .ok row) :
    row.capacity = catalog.size := by
  rw [across_ofCatalog] at supported
  split at supported
  · cases supported
  · split at supported
    · cases supported
    · cases supported
      exact capacity_accepted ..

/-- The tiles supported by any of a set of tiles are all that one of these meets. -/
theorem acrossAny_eq_ok_iff :
    (ofCatalog catalog pairing).acrossAny tiles slot = .ok set ↔
      (∀ index ∈ tiles, catalog.plugged index slot = true) ∧ set.capacity = catalog.size ∧
        ∀ other, other ∈ set ↔ ∃ index ∈ tiles, catalog.meets pairing index slot other = true := by
  have capacity : ∀ found, (ofCatalog catalog pairing).acrossAny tiles slot = .ok found →
      found.capacity = catalog.size := by
    intro found supported
    have start : (Candidates.empty (ofCatalog catalog pairing).size).capacity = catalog.size :=
      size_ofCatalog catalog pairing
    rw [← start]
    refine capacity_acrossAny_fold (fun index row supported => ?_) supported
    rw [start, capacity_across supported]
  have exists_iff : (∃ found, (ofCatalog catalog pairing).acrossAny tiles slot = .ok found) ↔
      ∀ index ∈ tiles, catalog.plugged index slot = true := by
    simp only [exists_acrossAny_iff, exists_across_iff_plugged]
  constructor
  · intro supported
    exact ⟨exists_iff.mp ⟨set, supported⟩, capacity set supported,
      mem_acrossAny_ofCatalog supported⟩
  · rintro ⟨plugged, size, members⟩
    obtain ⟨found, supported⟩ := exists_iff.mpr plugged
    have same : found = set := by
      refine Candidates.eq_of_mem_iff ((capacity found supported).trans size.symm) fun other => ?_
      rw [mem_acrossAny_ofCatalog supported, members]
    rw [supported, same]

theorem acrossAny_empty (capacity : Nat) :
    (ofCatalog catalog pairing).acrossAny (.empty capacity) slot = .ok (.empty catalog.size) := by
  rw [acrossAny_eq_ok_iff]
  refine ⟨fun index member => absurd member Candidates.not_mem_empty, rfl, fun other => ?_⟩
  simp

theorem acrossAny_mono {more : Candidates} (within : ∀ index ∈ tiles, index ∈ more)
    (supported : (ofCatalog catalog pairing).acrossAny more slot = .ok set) :
    ∃ part, (ofCatalog catalog pairing).acrossAny tiles slot = .ok part ∧
      ∀ other ∈ part, other ∈ set := by
  obtain ⟨plugged, -, members⟩ := acrossAny_eq_ok_iff.mp supported
  obtain ⟨part, found⟩ : ∃ part, (ofCatalog catalog pairing).acrossAny tiles slot = .ok part :=
    exists_acrossAny fun index member =>
      exists_across_iff_plugged.mpr (plugged index (within index member))
  refine ⟨part, found, fun other member => ?_⟩
  obtain ⟨index, held, meets⟩ := (mem_acrossAny_ofCatalog found other).mp member
  exact (members other).mpr ⟨index, within index held, meets⟩

theorem acrossAny_union_eq_ok_iff {more : Candidates} :
    (ofCatalog catalog pairing).acrossAny (tiles.union more) slot = .ok set ↔
      ∃ first second, (ofCatalog catalog pairing).acrossAny tiles slot = .ok first ∧
        (ofCatalog catalog pairing).acrossAny more slot = .ok second ∧
        set = first.union second := by
  have joined : ∀ first second, (ofCatalog catalog pairing).acrossAny tiles slot = .ok first →
      (ofCatalog catalog pairing).acrossAny more slot = .ok second →
      (ofCatalog catalog pairing).acrossAny (tiles.union more) slot = .ok (first.union second) := by
    intro first second left right
    obtain ⟨plugged, capacity, members⟩ := acrossAny_eq_ok_iff.mp left
    obtain ⟨plugged', capacity', members'⟩ := acrossAny_eq_ok_iff.mp right
    refine acrossAny_eq_ok_iff.mpr ⟨fun index member => ?_, ?_, fun other => ?_⟩
    · exact (Candidates.mem_union.mp member).elim (plugged index) (plugged' index)
    · change max first.capacity second.capacity = catalog.size
      rw [capacity, capacity', Nat.max_self]
    · simp only [Candidates.mem_union, members, members', or_and_right, exists_or]
  constructor
  · intro supported
    obtain ⟨first, left, -⟩ := acrossAny_mono
      (fun index member => Candidates.mem_union.mpr (.inl member)) supported
    obtain ⟨second, right, -⟩ := acrossAny_mono
      (fun index member => Candidates.mem_union.mpr (.inr member)) supported
    have both := joined first second left right
    rw [supported] at both
    exact ⟨first, second, left, right, Except.ok.inj both⟩
  · rintro ⟨first, second, left, right, rfl⟩
    exact joined first second left right

end Catalog

/-- Tiles are projected across a slot exactly if each of them is in the catalog and has a plug set
there, and then onto the tiles that one of them meets; the least tile of another kind is reported.
Where tiles are projected, so are fewer of them, onto no more tiles; no tiles are projected onto
none; and the projection of two sets together is that of each, together. -/
theorem acrossAny_exact (catalog : Catalog τ σ π) (pairing : σ → σ) (tiles : Candidates)
    (slot : σ) :
    ((∃ set, (ofCatalog catalog pairing).acrossAny tiles slot = .ok set) ↔
      ∀ index ∈ tiles, index < catalog.size ∧ catalog.plugged index slot = true) ∧
    (∀ set, (ofCatalog catalog pairing).acrossAny tiles slot = .ok set →
      ∀ other, other ∈ set ↔ ∃ index ∈ tiles, catalog.meets pairing index slot other = true) ∧
    (∀ reason, (ofCatalog catalog pairing).acrossAny tiles slot = .error reason ↔
      ∃ index ∈ tiles,
        ((catalog.size ≤ index ∧ reason = .unknownTile index) ∨
          (index < catalog.size ∧ catalog.plugged index slot = false ∧
            reason = .missingPlug index slot)) ∧
        ∀ smaller ∈ tiles, smaller < index →
          smaller < catalog.size ∧ catalog.plugged smaller slot = true) ∧
    (∀ more set, (∀ index ∈ tiles, index ∈ more) →
      (ofCatalog catalog pairing).acrossAny more slot = .ok set →
      ∃ part, (ofCatalog catalog pairing).acrossAny tiles slot = .ok part ∧
        ∀ other ∈ part, other ∈ set) ∧
    (∀ capacity, (ofCatalog catalog pairing).acrossAny (.empty capacity) slot =
      .ok (.empty catalog.size)) ∧
    ∀ more set, (ofCatalog catalog pairing).acrossAny (tiles.union more) slot = .ok set ↔
      ∃ first second, (ofCatalog catalog pairing).acrossAny tiles slot = .ok first ∧
        (ofCatalog catalog pairing).acrossAny more slot = .ok second ∧
        set = first.union second := by
  have usable : ∀ index, (∃ row, (ofCatalog catalog pairing).across index slot = .ok row) ↔
      index < catalog.size ∧ catalog.plugged index slot = true := by
    intro index
    rw [exists_across_iff_plugged]
    exact ⟨fun plugged => ⟨catalog.lt_size_of_plugged plugged, plugged⟩, fun both => both.2⟩
  refine ⟨?_, fun set => mem_acrossAny_ofCatalog, fun reason => ?_, fun more set => acrossAny_mono,
    acrossAny_empty, fun more set => acrossAny_union_eq_ok_iff⟩
  · simp only [exists_acrossAny_iff, usable]
  · simp only [acrossAny_eq_error_iff, across_eq_error_iff, usable]

/-- Two tiles that differ in the sockets they accept, and one without a plug set. -/
def unlike : Catalog Nat Bool Nat where
  tiles := [{ id := 0, sockets := .ofList [(false, 5)], plugs := .ofList [(true, .singleton 5)] },
    { id := 1, sockets := .ofList [(false, 6)], plugs := .ofList [(true, .ofList [6, 7])] },
    { id := 2, sockets := .ofList [(false, 7)], plugs := .empty }]
  distinct := by decide

/-- The pairing leads both slots to the same one, and the sets are larger than the catalog. -/
example :
    let support := ofCatalog unlike fun _ => false
    support.acrossAny (.ofList 9 [1, 0]) true = .ok (.ofList 3 [0, 1, 2]) ∧
      support.acrossAny (.ofList 9 [7, 2, 1]) true = .error (.missingPlug 2 true) ∧
      support.acrossAny (.ofList 9 [7, 4, 1]) true = .error (.unknownTile 4) :=
  ⟨by cbv, by cbv, by cbv⟩

end Support

end Tiling
