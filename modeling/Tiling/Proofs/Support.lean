import Tiling.Support

/-!
What support means among the tiles of a catalog: tile `other` is supported across a slot exactly
when the tile there accepts the socket that `other` shows on the paired slot.
-/

namespace Tiling

variable {τ σ π : Type} [Key σ] [Key π]

/-- Whether a tile accepts, on a slot, the socket that another tile shows on the paired slot. -/
def Catalog.meets (catalog : Catalog τ σ π) (pairing : σ → σ) (index : Nat) (slot : σ)
    (other : Nat) : Bool :=
  (catalog.tile? index).any fun tile => (catalog.tile? other).any fun facing =>
    (facing.socket? (pairing slot)).any fun socket => tile.accepts slot socket

/-- Whether a tile shows a socket on a slot. -/
def Catalog.shows (catalog : Catalog τ σ π) (index : Nat) (slot : σ) (socket : π) : Bool :=
  (catalog.tile? index).any fun tile => tile.socket? slot = some socket

namespace Support

private theorem mem_accepted_fold (entries : List (Tile τ σ π × Nat)) (paired : σ)
    (sockets : SortedSet π) (set : Candidates) (other : Nat) :
    other ∈ entries.foldl (fun set (tile, index) =>
        match tile.socket? paired with
        | some socket => if sockets.contains socket then set.insert index else set
        | none => set) set ↔
      other ∈ set ∨ ∃ tile, (tile, other) ∈ entries ∧
        (tile.socket? paired).any sockets.contains = true := by
  induction entries generalizing set with
  | nil => simp
  | cons head rest ih =>
    obtain ⟨tile, index⟩ := head
    rw [List.foldl_cons, ih]
    have added : other ∈ (match tile.socket? paired with
          | some socket => if sockets.contains socket then set.insert index else set
          | none => set) ↔
        other ∈ set ∨ other = index ∧ (tile.socket? paired).any sockets.contains = true := by
      cases tile.socket? paired with
      | none => simp
      | some socket => by_cases held : sockets.contains socket <;> simp [held]
    rw [added, or_assoc]
    refine or_congr_right ⟨?_, ?_⟩
    · rintro (⟨rfl, shown⟩ | ⟨later, member, shown⟩)
      · exact ⟨tile, by simp, shown⟩
      · exact ⟨later, List.mem_cons_of_mem _ member, shown⟩
    · rintro ⟨later, member, shown⟩
      rcases List.mem_cons.mp member with same | member
      · cases same
        exact .inl ⟨rfl, shown⟩
      · exact .inr ⟨later, member, shown⟩

theorem mem_accepted {tiles : List (Tile τ σ π)} {paired : σ} {sockets : SortedSet π}
    {other : Nat} :
    other ∈ accepted tiles paired sockets ↔
      ∃ tile, tiles[other]? = some tile ∧ (tile.socket? paired).any sockets.contains = true := by
  refine (mem_accepted_fold tiles.zipIdx paired sockets (.empty tiles.length) other).trans ?_
  simp [List.mk_mem_zipIdx_iff_getElem?]

theorem size_ofCatalog (catalog : Catalog τ σ π) (pairing : σ → σ) :
    (ofCatalog catalog pairing).size = catalog.size := by
  simp [size, ofCatalog, Catalog.size]

theorem across_ofCatalog (catalog : Catalog τ σ π) (pairing : σ → σ) (index : Nat) (slot : σ) :
    (ofCatalog catalog pairing).across index slot =
      match catalog.tile? index with
      | none => .error (.unknownTile index)
      | some tile =>
        match tile.plugs.get? slot with
        | none => .error (.missingPlug index slot)
        | some sockets => .ok (accepted catalog.tiles (pairing slot) sockets) := by
  unfold across ofCatalog Catalog.tile?
  simp only [Array.getElem?_map, List.getElem?_toArray]
  cases catalog.tiles[index]? with
  | none => rfl
  | some tile =>
    simp only [Option.map_some, SortedMap.get?_mapValues]
    cases tile.plugs.get? slot <;> rfl

/-- A tile that meets another one across a slot supports a set there, and the other is in it. -/
theorem across_iff_meets {catalog : Catalog τ σ π} {pairing : σ → σ} {index other : Nat}
    {slot : σ} :
    (∃ set, (ofCatalog catalog pairing).across index slot = .ok set ∧ other ∈ set) ↔
      catalog.meets pairing index slot other = true := by
  rw [across_ofCatalog]
  unfold Catalog.meets Tile.accepts
  cases catalog.tile? index with
  | none => simp
  | some tile =>
    cases plugged : tile.plugs.get? slot with
    | none => simp [plugged]
    | some sockets =>
      simp only [plugged, Except.ok.injEq, exists_eq_left', mem_accepted, Option.any_some,
        Option.any_eq_true, Catalog.tile?]

theorem foldlM_across_cons_ok {support : Support σ} {slot : σ} {head : Nat} {rest : List Nat}
    {set result : Candidates} :
    (head :: rest).foldlM (fun set tile => (support.across tile slot).map set.union) set =
        .ok result ↔
      ∃ row, support.across head slot = .ok row ∧
        rest.foldlM (fun set tile => (support.across tile slot).map set.union) (set.union row) =
          .ok result := by
  rw [List.foldlM_cons]
  cases support.across head slot with
  | error reason =>
    constructor
    · intro found
      cases found
    · rintro ⟨row, supported, -⟩
      cases supported
  | ok row =>
    simp only [Except.ok.injEq, exists_eq_left']
    rfl

private theorem mem_acrossAny_fold {support : Support σ} {slot : σ} {tiles : List Nat}
    {set result : Candidates}
    (found : tiles.foldlM (fun set tile => (support.across tile slot).map set.union) set =
      .ok result) (other : Nat) :
    other ∈ result ↔ other ∈ set ∨
      ∃ index ∈ tiles, ∃ row, support.across index slot = .ok row ∧ other ∈ row := by
  induction tiles generalizing set with
  | nil =>
    cases found
    simp
  | cons index rest ih =>
    obtain ⟨row, supported, found⟩ := foldlM_across_cons_ok.mp found
    rw [ih found, Candidates.mem_union, or_assoc]
    simp [supported]

/-- What several tiles support together is what one of them supports. -/
theorem mem_acrossAny {support : Support σ} {tiles set : Candidates} {slot : σ}
    (found : support.acrossAny tiles slot = .ok set) (other : Nat) :
    other ∈ set ↔ ∃ index ∈ tiles, ∃ row, support.across index slot = .ok row ∧ other ∈ row := by
  rw [mem_acrossAny_fold found]
  simp

private theorem exists_acrossAny_fold {support : Support σ} {slot : σ} {tiles : List Nat}
    {set : Candidates} (each : ∀ index ∈ tiles, ∃ row, support.across index slot = .ok row) :
    ∃ result, tiles.foldlM (fun set tile => (support.across tile slot).map set.union) set =
      .ok result := by
  induction tiles generalizing set with
  | nil => exact ⟨set, rfl⟩
  | cons index rest ih =>
    obtain ⟨row, supported⟩ := each index List.mem_cons_self
    obtain ⟨result, found⟩ := ih fun other listed => each other (List.mem_cons_of_mem index listed)
    exact ⟨result, foldlM_across_cons_ok.mpr ⟨row, supported, found⟩⟩

theorem exists_acrossAny {support : Support σ} {tiles : Candidates} {slot : σ}
    (each : ∀ index ∈ tiles, ∃ row, support.across index slot = .ok row) :
    ∃ set, support.acrossAny tiles slot = .ok set :=
  exists_acrossAny_fold fun index listed => each index (Candidates.mem_toList.mp listed)

theorem allows_iff {support : Support σ} {tile other : Nat} {slot : σ} :
    support.allows tile slot other = true ↔
      ∃ set, support.across tile slot = .ok set ∧ other ∈ set := by
  unfold allows
  cases support.across tile slot <;> simp

theorem mem_acrossAny_iff_allows {support : Support σ} {tiles set : Candidates} {slot : σ}
    (found : support.acrossAny tiles slot = .ok set) (other : Nat) :
    other ∈ set ↔ ∃ index ∈ tiles, support.allows index slot other = true := by
  simp only [mem_acrossAny found, allows_iff]

theorem mem_acrossAny_ofCatalog {catalog : Catalog τ σ π} {pairing : σ → σ}
    {tiles set : Candidates} {slot : σ}
    (found : (ofCatalog catalog pairing).acrossAny tiles slot = .ok set) (other : Nat) :
    other ∈ set ↔ ∃ index ∈ tiles, catalog.meets pairing index slot other = true := by
  simp only [mem_acrossAny found, across_iff_meets]

end Support

end Tiling
