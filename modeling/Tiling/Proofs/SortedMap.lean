import Mathlib.Data.List.Nodup
import Tiling.Order.SortedMap

/-!
More on finite maps. A map is what it holds; changing its values and laying values along keys are
given by what is found afterwards.
-/

namespace Tiling

namespace SortedMap

variable {κ α : Type} [Key κ]

private theorem get?_foldl_insert_of_not_mem {entries : List (κ × α)} {key : κ}
    (absent : key ∉ entries.map (·.1)) (map : SortedMap κ α) :
    (entries.foldl (fun map entry => map.insert entry.1 entry.2) map).get? key = map.get? key := by
  induction entries generalizing map with
  | nil => rfl
  | cons head rest ih =>
    obtain ⟨differ, absent⟩ : key ≠ head.1 ∧ key ∉ rest.map (·.1) := by simpa using absent
    rw [List.foldl_cons, ih absent, get?_insert, if_neg (Ne.symm differ)]

private theorem get?_foldl_insert {entries : List (κ × α)} (nodup : (entries.map (·.1)).Nodup)
    {key : κ} {value : α} (listed : (key, value) ∈ entries) (map : SortedMap κ α) :
    (entries.foldl (fun map entry => map.insert entry.1 entry.2) map).get? key = some value := by
  induction entries generalizing map with
  | nil => cases listed
  | cons head rest ih =>
    obtain ⟨absent, nodup⟩ := List.nodup_cons.mp nodup
    rw [List.foldl_cons]
    rcases List.mem_cons.mp listed with rfl | listed
    · rw [get?_foldl_insert_of_not_mem absent, get?_insert, if_pos rfl]
    · exact ih nodup listed _

theorem get?_ofList_zip {keys : List κ} {values : List α} (nodup : keys.Nodup)
    (length : values.length = keys.length) {place : Nat} {key : κ}
    (found : keys[place]? = some key) : (ofList (keys.zip values)).get? key = values[place]? := by
  obtain ⟨below, -⟩ := List.getElem?_eq_some_iff.mp found
  have value : values[place]? = some values[place] := List.getElem?_eq_getElem (length ▸ below)
  have listed : (key, values[place]) ∈ keys.zip values :=
    List.mem_of_getElem? (List.getElem?_zip_eq_some.mpr ⟨found, value⟩)
  have distinct : ((keys.zip values).map (·.1)).Nodup := by
    rwa [List.map_fst_zip (Nat.le_of_eq length.symm)]
  rw [value]
  exact get?_foldl_insert distinct listed _

theorem get?_ofList_zip_of_not_mem {keys : List κ} {values : List α} {key : κ}
    (absent : key ∉ keys) : (ofList (keys.zip values)).get? key = none := by
  refine get?_foldl_insert_of_not_mem (fun listed => absent ?_) _
  obtain ⟨⟨_, value⟩, member, rfl⟩ := List.mem_map.mp listed
  exact (List.of_mem_zip member).1

/-- Two maps that hold the same are the same. -/
theorem eq_of_get?_eq {first second : SortedMap κ α}
    (same : ∀ key, first.get? key = second.get? key) : first = second := by
  have nodup : ∀ map : SortedMap κ α, map.entries.Nodup := fun map =>
    List.Nodup.of_map Prod.fst map.nodup_keys
  have listed : ∀ (map : SortedMap κ α) entry,
      entry ∈ map.entries ↔ map.get? entry.1 = some entry.2 := fun _ _ => get?_eq_some_iff.symm
  have perm : first.entries.Perm second.entries := by
    refine (List.perm_ext_iff_of_nodup (nodup first) (nodup second)).mpr fun entry => ?_
    rw [listed, listed, same]
  have entries : first.entries = second.entries := by
    refine perm.eq_of_pairwise (fun one other _ _ less greater => ?_) first.ascending
      second.ascending
    exact absurd less (Std.OrientedCmp.not_lt_of_lt greater)
  cases first
  cases second
  cases entries
  rfl

theorem insert_eq_modify {map : SortedMap κ α} {key : κ} {old : α}
    (found : map.get? key = some old) (value : α) :
    map.insert key value = map.modify key fun _ => value := by
  refine eq_of_get?_eq fun wanted => ?_
  rw [get?_insert, get?_modify]
  by_cases hit : key = wanted
  · subst hit
    simp [found]
  · simp [hit]

theorem keys_insert_of_mem {map : SortedMap κ α} {key : κ} (listed : key ∈ map.keys) (value : α) :
    (map.insert key value).keys = map.keys := by
  obtain ⟨old, found⟩ := mem_keys_iff.mp listed
  rw [insert_eq_modify found, keys_modify]

variable {β : Type}

theorem mapValues_insert (map : SortedMap κ α) (key : κ) (value : α) (change : κ → α → β) :
    (map.insert key value).mapValues change =
      (map.mapValues change).insert key (change key value) := by
  refine eq_of_get?_eq fun wanted => ?_
  by_cases hit : key = wanted
  · subst hit
    simp
  · simp [hit]

theorem mapValues_ofList (entries : List (κ × α)) (change : κ → α → β) :
    (ofList entries).mapValues change =
      ofList (entries.map fun entry => (entry.1, change entry.1 entry.2)) := by
  unfold ofList
  rw [List.foldl_map]
  exact (List.foldl_hom (mapValues · change)
    fun map entry => (mapValues_insert map entry.1 entry.2 change).symm).symm

theorem mapValues_congr {map : SortedMap κ α} {one other : κ → α → β}
    (same : ∀ key ∈ map.keys, one key = other key) : map.mapValues one = map.mapValues other := by
  refine eq_of_get?_eq fun key => ?_
  rw [get?_mapValues, get?_mapValues]
  cases found : map.get? key with
  | none => rfl
  | some value => rw [same key (mem_keys_iff.mpr ⟨value, found⟩)]

theorem contains_iff {map : SortedMap κ α} {key : κ} :
    map.contains key = true ↔ ∃ value, map.get? key = some value :=
  Option.isSome_iff_exists

end SortedMap

theorem SortedSet.contains_singleton {α : Type} [Key α] {member other : α} :
    SortedMap.contains (SortedSet.singleton member) other = true ↔ member = other := by
  simp [SortedMap.contains, SortedSet.singleton, SortedSet.ofList, SortedMap.ofList,
    SortedMap.empty, SortedMap.get?, SortedMap.insert, SortedMap.insertEntry, SortedMap.lookup]

end Tiling
