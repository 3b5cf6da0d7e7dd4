import Tiling.Key

/-!
Finite maps kept as lists of entries in ascending key order. Two maps with the same entries are
equal, and walking a map visits its keys from the least to the greatest. The view of a map is
`get?`; `get?_insert` and `get?_modify` say what the two writers do to it.
-/

namespace Tiling

/-- A finite map whose entries are listed by strictly ascending key. -/
structure SortedMap (κ α : Type) [Key κ] where
  entries : List (κ × α)
  ascending : entries.Pairwise fun first second => compare first.1 second.1 = .lt

namespace SortedMap

variable {κ α β : Type} [Key κ]

instance [DecidableEq α] : DecidableEq (SortedMap κ α) := fun first second =>
  decidable_of_iff (first.entries = second.entries) (by
    cases first; cases second; simp)

def empty : SortedMap κ α := ⟨[], .nil⟩

instance : Inhabited (SortedMap κ α) := ⟨empty⟩

def size (map : SortedMap κ α) : Nat := map.entries.length

def isEmpty (map : SortedMap κ α) : Bool := map.entries.isEmpty

def keys (map : SortedMap κ α) : List κ := map.entries.map (·.1)

def values (map : SortedMap κ α) : List α := map.entries.map (·.2)

/-- The value of the first entry with the key. -/
def lookup (key : κ) : List (κ × α) → Option α
  | [] => none
  | (other, value) :: rest => if compare other key = .eq then some value else lookup key rest

def get? (map : SortedMap κ α) (key : κ) : Option α := lookup key map.entries

def contains (map : SortedMap κ α) (key : κ) : Bool := (map.get? key).isSome

/-- Puts an entry at its place, over any entry with the same key. -/
def insertEntry (key : κ) (value : α) : List (κ × α) → List (κ × α)
  | [] => [(key, value)]
  | (other, old) :: rest =>
    match compare key other with
    | .lt => (key, value) :: (other, old) :: rest
    | .eq => (key, value) :: rest
    | .gt => (other, old) :: insertEntry key value rest

/-- Changes the value of the first entry with the key. -/
def modifyEntry (key : κ) (change : α → α) : List (κ × α) → List (κ × α)
  | [] => []
  | (other, old) :: rest =>
    if compare other key = .eq then (other, change old) :: rest
    else (other, old) :: modifyEntry key change rest

theorem mem_insertEntry {key : κ} {value : α} {entry : κ × α} {entries : List (κ × α)}
    (member : entry ∈ insertEntry key value entries) :
    entry = (key, value) ∨ entry ∈ entries := by
  induction entries with
  | nil => simpa [insertEntry] using member
  | cons head rest ih =>
    unfold insertEntry at member
    split at member
    · simpa using member
    · rcases List.mem_cons.mp member with same | member
      · exact .inl same
      · exact .inr (List.mem_cons_of_mem _ member)
    · rcases List.mem_cons.mp member with same | member
      · exact .inr (by simp [same])
      · exact (ih member).imp_right (List.mem_cons_of_mem _)

theorem insertEntry_ascending (key : κ) (value : α) {entries : List (κ × α)}
    (ascending : entries.Pairwise fun first second => compare first.1 second.1 = .lt) :
    (insertEntry key value entries).Pairwise
      fun first second => compare first.1 second.1 = .lt := by
  induction entries with
  | nil => simp [insertEntry]
  | cons head rest ih =>
    obtain ⟨other, old⟩ := head
    have ⟨above, tail⟩ := List.pairwise_cons.mp ascending
    unfold insertEntry
    split
    · rename_i below
      refine .cons (fun entry member => ?_) ascending
      rcases List.mem_cons.mp member with same | member
      · rw [same]; exact below
      · exact Std.TransCmp.lt_trans below (above entry member)
    · rename_i same
      have same : key = other := Std.LawfulEqOrd.compare_eq_iff_eq.mp same
      subst key
      exact .cons above tail
    · rename_i greater
      refine .cons (fun entry member => ?_) (ih tail)
      rcases mem_insertEntry member with same | member
      · rw [same]; exact Std.OrientedCmp.lt_of_gt greater
      · exact above entry member

theorem keys_modifyEntry (key : κ) (change : α → α) (entries : List (κ × α)) :
    (modifyEntry key change entries).map (·.1) = entries.map (·.1) := by
  induction entries with
  | nil => rfl
  | cons head rest ih =>
    unfold modifyEntry
    split <;> simp [ih]

theorem modifyEntry_ascending (key : κ) (change : α → α) {entries : List (κ × α)}
    (ascending : entries.Pairwise fun first second => compare first.1 second.1 = .lt) :
    (modifyEntry key change entries).Pairwise
      fun first second => compare first.1 second.1 = .lt := by
  have byKeys : (entries.map (·.1)).Pairwise fun first second => compare first second = .lt :=
    List.pairwise_map.mpr ascending
  rw [← keys_modifyEntry key change] at byKeys
  exact List.pairwise_map.mp byKeys

def insert (map : SortedMap κ α) (key : κ) (value : α) : SortedMap κ α :=
  ⟨insertEntry key value map.entries, insertEntry_ascending key value map.ascending⟩

/-- Changes the value at a key; a missing key is left missing. -/
def modify (map : SortedMap κ α) (key : κ) (change : α → α) : SortedMap κ α :=
  ⟨modifyEntry key change map.entries, modifyEntry_ascending key change map.ascending⟩

/-- The map of a list of entries, in which a later entry takes the place of an earlier one with
the same key. -/
def ofList (entries : List (κ × α)) : SortedMap κ α :=
  entries.foldl (fun map entry => map.insert entry.1 entry.2) empty

/-- Changes every value, with its key at hand. -/
def mapValues (map : SortedMap κ α) (change : κ → α → β) : SortedMap κ β :=
  ⟨map.entries.map fun entry => (entry.1, change entry.1 entry.2),
    List.pairwise_map.mpr map.ascending⟩

theorem lookup_insertEntry (key wanted : κ) (value : α) (entries : List (κ × α)) :
    lookup wanted (insertEntry key value entries) =
      if key = wanted then some value else lookup wanted entries := by
  induction entries with
  | nil => simp [insertEntry, lookup]
  | cons head rest ih =>
    obtain ⟨other, old⟩ := head
    unfold insertEntry
    split
    · simp [lookup]
    · rename_i same
      have same : key = other := Std.LawfulEqOrd.compare_eq_iff_eq.mp same
      subst key
      by_cases hit : other = wanted <;> simp [lookup, hit]
    · rename_i greater
      have differ : key ≠ other := by
        intro same
        subst key
        simp [Std.ReflCmp.compare_self] at greater
      by_cases hit : other = wanted
      · subst other
        simp [lookup, differ]
      · simp [lookup, hit, ih]

theorem lookup_modifyEntry (key wanted : κ) (change : α → α) (entries : List (κ × α)) :
    lookup wanted (modifyEntry key change entries) =
      if key = wanted then (lookup wanted entries).map change else lookup wanted entries := by
  induction entries with
  | nil => simp [modifyEntry, lookup]
  | cons head rest ih =>
    obtain ⟨other, old⟩ := head
    unfold modifyEntry
    split
    · rename_i same
      have same : other = key := Std.LawfulEqOrd.compare_eq_iff_eq.mp same
      subst other
      by_cases hit : key = wanted <;> simp [lookup, hit]
    · rename_i differ
      have differ : other ≠ key := fun same =>
        differ (Std.LawfulEqOrd.compare_eq_iff_eq.mpr same)
      by_cases hit : other = wanted
      · subst other
        simp [lookup, Ne.symm differ]
      · simp [lookup, hit, ih]

@[simp] theorem get?_insert (map : SortedMap κ α) (key wanted : κ) (value : α) :
    (map.insert key value).get? wanted = if key = wanted then some value else map.get? wanted :=
  lookup_insertEntry key wanted value map.entries

@[simp] theorem get?_modify (map : SortedMap κ α) (key wanted : κ) (change : α → α) :
    (map.modify key change).get? wanted =
      if key = wanted then (map.get? wanted).map change else map.get? wanted :=
  lookup_modifyEntry key wanted change map.entries

@[simp] theorem keys_modify (map : SortedMap κ α) (key : κ) (change : α → α) :
    (map.modify key change).keys = map.keys :=
  keys_modifyEntry key change map.entries

theorem lookup_eq_some_iff {key : κ} {value : α} {entries : List (κ × α)}
    (ascending : entries.Pairwise fun first second => compare first.1 second.1 = .lt) :
    lookup key entries = some value ↔ (key, value) ∈ entries := by
  induction entries with
  | nil => simp [lookup]
  | cons head rest ih =>
    obtain ⟨other, old⟩ := head
    have ⟨above, tail⟩ := List.pairwise_cons.mp ascending
    by_cases hit : other = key
    · subst other
      have absent : (key, value) ∉ rest := fun member => by
        have less := above _ member
        simp [Std.ReflCmp.compare_self] at less
      simp [lookup, absent, eq_comm]
    · simp [lookup, hit, ih tail, Ne.symm hit]

/-- The entries of a map are just what it holds. -/
theorem get?_eq_some_iff {map : SortedMap κ α} {key : κ} {value : α} :
    map.get? key = some value ↔ (key, value) ∈ map.entries :=
  lookup_eq_some_iff map.ascending

theorem mem_keys_iff {map : SortedMap κ α} {key : κ} :
    key ∈ map.keys ↔ ∃ value, map.get? key = some value := by
  simp only [keys, List.mem_map, get?_eq_some_iff]
  constructor
  · rintro ⟨entry, member, same⟩
    exact ⟨entry.2, by simpa [← same] using member⟩
  · rintro ⟨value, member⟩
    exact ⟨_, member, rfl⟩

theorem length_keys (map : SortedMap κ α) : map.keys.length = map.size :=
  List.length_map _

theorem ascending_keys (map : SortedMap κ α) :
    map.keys.Pairwise fun first second => compare first second = .lt :=
  List.pairwise_map.mpr map.ascending

theorem nodup_keys (map : SortedMap κ α) : map.keys.Nodup := by
  refine map.ascending_keys.imp fun less same => ?_
  simp [same, Std.ReflCmp.compare_self] at less

theorem lookup_map (key : κ) (change : κ → α → β) (entries : List (κ × α)) :
    lookup key (entries.map fun entry => (entry.1, change entry.1 entry.2)) =
      (lookup key entries).map (change key) := by
  induction entries with
  | nil => rfl
  | cons head rest ih =>
    by_cases hit : head.1 = key
    · simp [lookup, hit]
    · simpa [lookup, hit] using ih

@[simp] theorem get?_mapValues (map : SortedMap κ α) (key : κ) (change : κ → α → β) :
    (map.mapValues change).get? key = (map.get? key).map (change key) :=
  lookup_map key change map.entries

end SortedMap

/-- A finite set, listed in ascending order. -/
abbrev SortedSet (α : Type) [Key α] : Type := SortedMap α Unit

namespace SortedSet

variable {α : Type} [Key α]

def ofList (members : List α) : SortedSet α :=
  SortedMap.ofList (members.map fun member => (member, ()))

def singleton (member : α) : SortedSet α := ofList [member]

/-- The members in ascending order. -/
def toList (set : SortedSet α) : List α := SortedMap.keys set

end SortedSet

end Tiling
