import Tiling.Catalog

/-!
Making catalogs. A list of tiles is a catalog just when no name occurs in it twice, and otherwise
the first name that does is reported. The names and the places of a catalog determine each other.
-/

namespace Tiling

/-- In list order, the name is the first one that stands earlier in the list already. -/
def FirstRepeat {τ : Type} (ids : List τ) (id : τ) : Prop :=
  ∃ before after, ids = before ++ id :: after ∧ before.Nodup ∧ id ∈ before

theorem FirstRepeat.not_nodup {τ : Type} {ids : List τ} {id : τ} (repeats : FirstRepeat ids id) :
    ¬ ids.Nodup := by
  obtain ⟨before, after, rfl, -, known⟩ := repeats
  intro nodup
  obtain ⟨-, -, apart⟩ := List.nodup_append.mp nodup
  exact apart id known id List.mem_cons_self rfl

namespace Catalog

variable {τ σ π : Type} [Key σ] [Key π] [DecidableEq τ]

theorem firstRepeat?_eq_some_iff {seen ids : List τ} {id : τ} :
    firstRepeat? seen ids = some id ↔ ∃ before after, ids = before ++ id :: after ∧
      before.Nodup ∧ (∀ other ∈ before, other ∉ seen) ∧ (id ∈ seen ∨ id ∈ before) := by
  induction ids generalizing seen with
  | nil => simp [firstRepeat?]
  | cons head rest ih =>
    unfold firstRepeat?
    by_cases known : head ∈ seen
    · rw [if_pos known]
      constructor
      · rintro ⟨⟩
        exact ⟨[], rest, rfl, .nil, nofun, .inl known⟩
      · rintro ⟨_ | ⟨first, before⟩, after, split, -, fresh, -⟩
        · cases split
          rfl
        · cases split
          exact absurd known (fresh _ List.mem_cons_self)
    · rw [if_neg known, ih]
      constructor
      · rintro ⟨before, after, rfl, nodup, fresh, repeats⟩
        refine ⟨head :: before, after, rfl, ?_, ?_, ?_⟩
        · refine List.nodup_cons.mpr ⟨fun listed => ?_, nodup⟩
          exact fresh head listed List.mem_cons_self
        · rintro other listed seen
          rcases List.mem_cons.mp listed with rfl | listed
          · exact known seen
          · exact fresh other listed (List.mem_cons_of_mem _ seen)
        · rcases repeats with seen | listed
          · rcases List.mem_cons.mp seen with rfl | seen
            · exact .inr List.mem_cons_self
            · exact .inl seen
          · exact .inr (List.mem_cons_of_mem _ listed)
      · rintro ⟨_ | ⟨first, before⟩, after, split, nodup, fresh, repeats⟩
        · cases split
          exact absurd (repeats.resolve_right List.not_mem_nil) known
        · cases split
          obtain ⟨absent, nodup⟩ := List.nodup_cons.mp nodup
          refine ⟨before, after, rfl, nodup, fun other listed seen => ?_, ?_⟩
          · rcases List.mem_cons.mp seen with rfl | seen
            · exact absent listed
            · exact fresh other (List.mem_cons_of_mem _ listed) seen
          · rcases repeats with seen | listed
            · exact .inl (List.mem_cons_of_mem _ seen)
            · rcases List.mem_cons.mp listed with rfl | listed
              · exact .inl List.mem_cons_self
              · exact .inr listed

theorem firstRepeat?_iff {ids : List τ} {id : τ} :
    firstRepeat? [] ids = some id ↔ FirstRepeat ids id := by
  rw [firstRepeat?_eq_some_iff]
  simp [FirstRepeat]

theorem firstRepeat_unique {ids : List τ} {id other : τ} (repeats : FirstRepeat ids id)
    (repeats' : FirstRepeat ids other) : id = other :=
  Option.some.inj ((firstRepeat?_iff.mpr repeats).symm.trans (firstRepeat?_iff.mpr repeats'))

theorem ofTiles_ok_iff {tiles : List (Tile τ σ π)} {catalog : Catalog τ σ π} :
    ofTiles tiles = .ok catalog ↔ catalog.tiles = tiles := by
  unfold ofTiles
  split
  · rename_i id repeated
    refine ⟨nofun, ?_⟩
    rintro rfl
    exact absurd catalog.distinct (firstRepeat?_iff.mp repeated).not_nodup
  · constructor
    · rintro ⟨⟩
      rfl
    · rintro rfl
      rfl

/-- What keeps tiles from being a catalog is the first repeated name. -/
theorem ofTiles_error_iff {tiles : List (Tile τ σ π)} {reason : CatalogError τ} :
    ofTiles tiles = .error reason ↔
      ∃ id, FirstRepeat (tiles.map (·.id)) id ∧ reason = .duplicateTile id := by
  simp only [← firstRepeat?_iff]
  unfold ofTiles
  split
  · rename_i id repeated
    simp [repeated, eq_comm]
  · rename_i none
    simp [none]

theorem ofTiles_of_nodup {tiles : List (Tile τ σ π)} (nodup : (tiles.map (·.id)).Nodup) :
    ofTiles tiles = .ok ⟨tiles, nodup⟩ :=
  ofTiles_ok_iff.mpr rfl

omit [DecidableEq τ] in
theorem idOf_ok_iff {catalog : Catalog τ σ π} {index : Nat} {id : τ} :
    catalog.idOf index = .ok id ↔ ∃ tile, catalog.tile? index = some tile ∧ tile.id = id := by
  unfold idOf tile
  cases catalog.tile? index <;> simp [Except.map]

theorem indexOf?_eq_some_iff {catalog : Catalog τ σ π} {id : τ} {index : Nat} :
    catalog.indexOf? id = some index ↔ catalog.idOf index = .ok id := by
  rw [idOf_ok_iff, indexOf?, List.findIdx?_eq_some_iff_getElem]
  simp only [decide_eq_true_eq, tile?, List.getElem?_eq_some_iff]
  constructor
  · rintro ⟨below, named, -⟩
    exact ⟨_, ⟨below, rfl⟩, named⟩
  · rintro ⟨_, ⟨below, rfl⟩, named⟩
    refine ⟨below, named, fun place earlier same => ?_⟩
    have places := List.pairwise_iff_getElem.mp catalog.distinct place index
      (by rw [List.length_map]; omega) (by rwa [List.length_map]) earlier
    simp only [List.getElem_map] at places
    exact places (same.trans named.symm)

end Catalog

end Tiling
