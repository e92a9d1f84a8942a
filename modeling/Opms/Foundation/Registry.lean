import Mathlib.Algebra.BigOperators.Group.List.Basic
import Mathlib.Algebra.Order.BigOperators.Group.List
import Mathlib.Data.List.Nodup
import Mathlib.Algebra.BigOperators.Group.Finset.Basic
import Mathlib.Tactic.Abel

/-! # Insertion-ordered dictionaries

A registry lists its entries in insertion order under distinct keys. Assigning
to a present key keeps the key's position. Totals over a registry change only
by the entry an update touches, which is what conservation arguments need.
-/

namespace Foundation

universe u v w

/-- A finite dictionary: the entries in insertion order, no key twice. -/
structure Registry (Key : Type u) (Value : Type v) where
  entries : List (Key × Value)
  nodup : (entries.map Prod.fst).Nodup

namespace Registry

variable {Key : Type u} {Value : Type v} {Image : Type w}

/-- The dictionary without entries. -/
def empty : Registry Key Value := ⟨[], List.nodup_nil⟩

/-- The keys in insertion order. -/
def keys (registry : Registry Key Value) : List Key := registry.entries.map Prod.fst

/-- Replace the entries' values, keeping every key. -/
def mapEntries (registry : Registry Key Value) (change : Key → Value → Image) :
    Registry Key Image where
  entries := registry.entries.map fun entry => (entry.1, change entry.1 entry.2)
  nodup := by simpa [Function.comp_def] using registry.nodup

theorem ext_entries {first second : Registry Key Value}
    (hentries : first.entries = second.entries) : first = second := by
  cases first
  cases second
  congr

@[simp] theorem keys_mapEntries (registry : Registry Key Value)
    (change : Key → Value → Image) : (registry.mapEntries change).keys = registry.keys := by
  simp [keys, mapEntries, Function.comp_def]

section Total

variable {Sum : Type*} [AddCommMonoid Sum]

/-- The sum of a weight over all entries. -/
def total (registry : Registry Key Value) (weight : Key → Value → Sum) : Sum :=
  (registry.entries.map fun entry => weight entry.1 entry.2).sum

theorem total_const_zero (registry : Registry Key Value) :
    (registry.total fun _ _ => (0 : Sum)) = 0 := by
  simp [total]

theorem total_mapEntries (registry : Registry Key Value) (change : Key → Value → Image)
    (weight : Key → Image → Sum) : (registry.mapEntries change).total weight =
      registry.total fun key value => weight key (change key value) := by
  simp [total, mapEntries, Function.comp_def]

/-- Totals of finitely many weights add up to the total of their sum. -/
theorem sum_total {Index : Type*} (indices : Finset Index) (registry : Registry Key Value)
    (weight : Index → Key → Value → Sum) :
    ∑ i ∈ indices, registry.total (weight i) =
      registry.total fun key value => ∑ i ∈ indices, weight i key value := by
  simp only [total]
  induction registry.entries with
  | nil => simp
  | cons entry rest ih => simp only [List.map_cons, List.sum_cons, Finset.sum_add_distrib, ih]

theorem total_add (registry : Registry Key Value) (first second : Key → Value → Sum) :
    registry.total (fun key value => first key value + second key value) =
      registry.total first + registry.total second :=
  List.sum_map_add

end Total

variable [DecidableEq Key]

/-- The value stored under a key. -/
def lookup (registry : Registry Key Value) (key : Key) : Option Value :=
  (registry.entries.find? (fun entry => entry.1 = key)).map Prod.snd

/-- Update the value under a key; nothing happens when the key is absent. -/
def modify (registry : Registry Key Value) (key : Key) (change : Value → Value) :
    Registry Key Value :=
  registry.mapEntries fun k value => if k = key then change value else value

@[simp] theorem keys_modify (registry : Registry Key Value) (key : Key)
    (change : Value → Value) : (registry.modify key change).keys = registry.keys :=
  registry.keys_mapEntries _

/-- Assign a value: a present key keeps its position, a new one goes last. -/
def set (registry : Registry Key Value) (key : Key) (value : Value) : Registry Key Value :=
  if h : key ∈ registry.keys then registry.modify key fun _ => value
  else ⟨registry.entries ++ [(key, value)], by
    rw [List.map_append, List.map_cons, List.map_nil, List.nodup_append]
    refine ⟨registry.nodup, List.nodup_singleton key, ?_⟩
    rintro k hk _ hnew rfl
    rw [List.mem_singleton] at hnew
    exact h (hnew ▸ hk :)⟩

/-! ## Lookups -/

theorem mem_entries_iff (registry : Registry Key Value) (key : Key) (value : Value) :
    (key, value) ∈ registry.entries ↔ registry.lookup key = some value := by
  obtain ⟨entries, hnodup⟩ := registry
  simp only [lookup]
  induction entries with
  | nil => simp
  | cons entry rest ih =>
      obtain ⟨k, v⟩ := entry
      simp only [List.map_cons, List.nodup_cons] at hnodup
      by_cases hk : k = key
      · subst hk
        have hnot : (k, value) ∉ rest := fun hmem =>
          hnodup.1 (List.mem_map_of_mem (f := Prod.fst) hmem)
        simp [hnot, eq_comm]
      · simpa [List.find?_cons, hk, Ne.symm hk] using ih hnodup.2

theorem lookup_eq_none_iff (registry : Registry Key Value) (key : Key) :
    registry.lookup key = none ↔ key ∉ registry.keys := by
  simp only [lookup, keys, Option.map_eq_none_iff, List.find?_eq_none, decide_eq_true_eq,
    List.mem_map, not_exists, not_and]

theorem mem_keys_of_lookup (registry : Registry Key Value) {key : Key} {value : Value}
    (hlook : registry.lookup key = some value) : key ∈ registry.keys := by
  by_contra hnot
  rw [← lookup_eq_none_iff, hlook] at hnot
  cases hnot

@[simp] theorem lookup_empty (key : Key) :
    (empty : Registry Key Value).lookup key = none := rfl

theorem lookup_mapEntries (registry : Registry Key Value) (change : Key → Value → Image)
    (key : Key) : (registry.mapEntries change).lookup key =
      (registry.lookup key).map (change key) := by
  cases hlook : registry.lookup key with
  | none =>
      rw [lookup_eq_none_iff] at hlook
      simpa [lookup_eq_none_iff] using hlook
  | some value =>
      rw [← mem_entries_iff] at hlook
      simp only [Option.map_some]
      rw [← mem_entries_iff]
      exact List.mem_map.mpr ⟨(key, value), hlook, rfl⟩

@[simp] theorem lookup_modify_self (registry : Registry Key Value) (key : Key)
    (change : Value → Value) :
    (registry.modify key change).lookup key = (registry.lookup key).map change := by
  rw [modify, lookup_mapEntries]
  simp

theorem lookup_modify_ne (registry : Registry Key Value) {key other : Key} (hne : other ≠ key)
    (change : Value → Value) :
    (registry.modify key change).lookup other = registry.lookup other := by
  rw [modify, lookup_mapEntries]
  simp [hne]

theorem lookup_modify (registry : Registry Key Value) (key other : Key)
    (change : Value → Value) : (registry.modify key change).lookup other =
      if other = key then (registry.lookup other).map change else registry.lookup other := by
  split
  next heq => rw [heq, lookup_modify_self]
  next hne => exact registry.lookup_modify_ne hne change

theorem modify_eq_self (registry : Registry Key Value) {key : Key} {change : Value → Value}
    (hkeep : ∀ value, registry.lookup key = some value → change value = value) :
    registry.modify key change = registry := by
  apply ext_entries
  refine (List.map_congr_left ?_).trans (List.map_id _)
  intro entry hentry
  obtain ⟨k, value⟩ := entry
  dsimp only [id_eq]
  split
  next heq =>
    subst heq
    rw [hkeep value ((mem_entries_iff registry k value).mp hentry)]
  next => rfl

theorem modify_of_absent (registry : Registry Key Value) {key : Key}
    (habsent : registry.lookup key = none) (change : Value → Value) :
    registry.modify key change = registry :=
  registry.modify_eq_self fun value hvalue => by simp [habsent] at hvalue

theorem modify_modify (registry : Registry Key Value) (key : Key)
    (first second : Value → Value) :
    (registry.modify key first).modify key second =
      registry.modify key fun value => second (first value) := by
  apply ext_entries
  simp only [modify, mapEntries, List.map_map]
  apply List.map_congr_left
  intro entry _
  simp only [Function.comp_apply]
  split <;> rfl

theorem set_of_absent_entries (registry : Registry Key Value) {key : Key}
    (habsent : registry.lookup key = none) (value : Value) :
    (registry.set key value).entries = registry.entries ++ [(key, value)] := by
  rw [lookup_eq_none_iff] at habsent
  simp [set, habsent]

theorem lookup_set (registry : Registry Key Value) (key other : Key) (value : Value) :
    (registry.set key value).lookup other =
      if other = key then some value else registry.lookup other := by
  by_cases hkey : key ∈ registry.keys
  · rw [set, dif_pos hkey, lookup_modify]
    split
    next heq =>
      subst heq
      cases hlook : registry.lookup other with
      | none => exact absurd hkey ((lookup_eq_none_iff registry other).mp hlook)
      | some _ => rfl
    next => rfl
  · have habsent := (lookup_eq_none_iff registry key).mpr hkey
    simp only [lookup, set_of_absent_entries registry habsent, List.find?_append]
    split
    next heq =>
      subst heq
      have hfind : registry.entries.find? (fun entry => entry.1 = other) = none := by
        simpa [lookup] using habsent
      simp [hfind]
    next hne => simp [Ne.symm hne]

/-! ## Totals -/

section Total

variable {Sum : Type*} [AddCommMonoid Sum]

theorem total_set_of_absent (registry : Registry Key Value) {key : Key}
    (habsent : registry.lookup key = none) (value : Value) (weight : Key → Value → Sum) :
    (registry.set key value).total weight = registry.total weight + weight key value := by
  simp [total, set_of_absent_entries registry habsent]

/-- An update moves a total by exactly the touched entry's change of weight. -/
theorem total_modify (registry : Registry Key Value) {key : Key} {value : Value}
    (hlook : registry.lookup key = some value) (change : Value → Value)
    (weight : Key → Value → Sum) :
    (registry.modify key change).total weight + weight key value =
      registry.total weight + weight key (change value) := by
  rw [modify, total_mapEntries]
  obtain ⟨entries, hnodup⟩ := registry
  rw [← mem_entries_iff] at hlook
  simp only [total] at hlook ⊢
  induction entries with
  | nil => simp at hlook
  | cons entry rest ih =>
      obtain ⟨k, v⟩ := entry
      simp only [List.map_cons, List.nodup_cons] at hnodup
      simp only [List.map_cons, List.sum_cons]
      rcases List.mem_cons.mp hlook with heq | hmem
      · cases heq
        -- the keys are distinct, so the tail does not hold the touched one
        have hrest : rest.map (fun entry =>
            weight entry.1 (if entry.1 = key then change entry.2 else entry.2)) =
            rest.map fun entry => weight entry.1 entry.2 := by
          apply List.map_congr_left
          intro entry hentry
          have hne : entry.1 ≠ key := fun heq =>
            hnodup.1 (heq ▸ List.mem_map_of_mem (f := Prod.fst) hentry)
          simp [hne]
        rw [hrest]
        simp only [↓reduceIte]
        abel
      · have hne : k ≠ key := fun heq =>
          hnodup.1 (heq ▸ List.mem_map_of_mem (f := Prod.fst) hmem)
        simp only [hne, ↓reduceIte]
        rw [add_assoc, ih hnodup.2 hmem, add_assoc]

end Total

theorem total_nonneg {Sum : Type*} [AddCommMonoid Sum] [PartialOrder Sum]
    [IsOrderedAddMonoid Sum] (registry : Registry Key Value) {weight : Key → Value → Sum}
    (hweight : ∀ key value, registry.lookup key = some value → 0 ≤ weight key value) :
    0 ≤ registry.total weight := by
  apply List.sum_nonneg
  intro x hx
  obtain ⟨⟨key, value⟩, hentry, rfl⟩ := List.mem_map.mp hx
  exact hweight key value ((mem_entries_iff registry key value).mp hentry)

theorem total_le_total {Sum : Type*} [AddCommMonoid Sum] [PartialOrder Sum]
    [IsOrderedAddMonoid Sum] (registry : Registry Key Value)
    {first second : Key → Value → Sum}
    (hle : ∀ key value, registry.lookup key = some value → first key value ≤ second key value) :
    registry.total first ≤ registry.total second := by
  apply List.sum_le_sum
  rintro ⟨key, value⟩ hentry
  exact hle key value ((mem_entries_iff registry key value).mp hentry)

/-- A total of weights without negative ones vanishes iff every weight does. -/
theorem total_eq_zero_iff {Sum : Type*} [AddCommMonoid Sum] [PartialOrder Sum]
    [IsOrderedAddMonoid Sum] (registry : Registry Key Value) {weight : Key → Value → Sum}
    (hweight : ∀ key value, 0 ≤ weight key value) :
    registry.total weight = 0 ↔
      ∀ key value, registry.lookup key = some value → weight key value = 0 := by
  constructor
  · intro hzero key value hlook
    have hnonneg : ∀ x ∈ registry.entries.map fun entry => weight entry.1 entry.2, 0 ≤ x := by
      intro x hx
      obtain ⟨entry, -, rfl⟩ := List.mem_map.mp hx
      exact hweight entry.1 entry.2
    refine List.all_zero_of_le_zero_le_of_sum_eq_zero hnonneg hzero ?_
    exact List.mem_map.mpr ⟨(key, value), (mem_entries_iff registry key value).mpr hlook, rfl⟩
  · intro hall
    rw [← registry.total_const_zero]
    unfold total
    congr 1
    apply List.map_congr_left
    rintro ⟨key, value⟩ hentry
    exact hall key value ((mem_entries_iff registry key value).mp hentry)

theorem total_congr {Sum : Type*} [AddCommMonoid Sum] (registry : Registry Key Value)
    {first second : Key → Value → Sum}
    (heq : ∀ key value, registry.lookup key = some value → first key value = second key value) :
    registry.total first = registry.total second := by
  unfold total
  congr 1
  apply List.map_congr_left
  rintro ⟨key, value⟩ hentry
  exact heq key value ((mem_entries_iff registry key value).mp hentry)

/-- An update that keeps the touched entry's weight keeps the total. -/
theorem total_modify_of_keep {Sum : Type*} [AddCommMonoid Sum] (registry : Registry Key Value)
    {key : Key} {change : Value → Value} {weight : Key → Value → Sum}
    (hkeep : ∀ value, registry.lookup key = some value →
      weight key (change value) = weight key value) :
    (registry.modify key change).total weight = registry.total weight := by
  rw [modify, total_mapEntries]
  apply total_congr
  intro k value hlook
  split
  next heq =>
    subst heq
    exact hkeep value hlook
  next => rfl

theorem sum_map_single {Item : Type*} {Sum : Type*} [AddCommMonoid Sum] {items : List Item}
    (hnodup : items.Nodup) {item : Item} (hmem : item ∈ items) {weight : Item → Sum}
    (hzero : ∀ other, other ≠ item → other ∈ items → weight other = 0) :
    (items.map weight).sum = weight item := by
  classical
  rw [List.sum_map_eq_nsmul_single item weight hzero, List.count_eq_one_of_mem hnodup hmem,
    one_nsmul]

/-- A weight of one key alone. -/
theorem total_single {Sum : Type*} [AddCommMonoid Sum] (registry : Registry Key Value) {key : Key}
    {value : Value} (hlook : registry.lookup key = some value) (weight : Value → Sum) :
    (registry.total fun k v => if k = key then weight v else 0) = weight value := by
  have hmem := (registry.mem_entries_iff key value).mpr hlook
  refine (sum_map_single registry.nodup.of_map hmem ?_).trans (if_pos rfl)
  rintro ⟨k, v⟩ hne hentry
  apply if_neg
  rintro rfl
  rw [mem_entries_iff, hlook] at hentry
  cases hentry
  exact hne rfl

/-- Counting one more key in adds its weight. -/
theorem total_insert {Sum : Type*} [AddCommMonoid Sum] (registry : Registry Key Value) {key : Key}
    {value : Value} (hlook : registry.lookup key = some value) {keys : Finset Key}
    (hnew : key ∉ keys) (weight : Value → Sum) :
    (registry.total fun k v => if k ∈ insert key keys then weight v else 0) =
      (registry.total fun k v => if k ∈ keys then weight v else 0) + weight value := by
  rw [← registry.total_single hlook weight, ← total_add]
  apply total_congr
  intro k v _
  by_cases heq : k = key
  · rw [heq, if_pos (Finset.mem_insert_self key keys), if_neg hnew, if_pos rfl, zero_add]
  · simp [heq]

/-- Mapping commutes with an update that the map turns into another update. -/
theorem mapEntries_modify (registry : Registry Key Value) (key : Key)
    (view : Value → Image) (change : Value → Value) (change' : Image → Image)
    (hview : ∀ value, registry.lookup key = some value →
      view (change value) = change' (view value)) :
    (registry.modify key change).mapEntries (fun _ => view) =
      (registry.mapEntries fun _ => view).modify key change' := by
  apply ext_entries
  simp only [modify, mapEntries, List.map_map]
  apply List.map_congr_left
  rintro ⟨k, value⟩ hentry
  simp only [Function.comp_apply]
  split
  next heq =>
    subst heq
    rw [hview value ((mem_entries_iff registry k value).mp hentry)]
  next => rfl

/-- An update the map does not see. -/
theorem mapEntries_modify_of_keep (registry : Registry Key Value) (key : Key)
    (view : Value → Image) {change : Value → Value}
    (hkeep : ∀ value, view (change value) = view value) :
    (registry.modify key change).mapEntries (fun _ => view) =
      registry.mapEntries fun _ => view := by
  rw [registry.mapEntries_modify key view change id fun value _ => hkeep value]
  exact modify_eq_self _ fun _ _ => rfl

theorem mapEntries_set_of_absent (registry : Registry Key Value) {key : Key}
    (habsent : registry.lookup key = none) (value : Value) (view : Value → Image) :
    (registry.set key value).mapEntries (fun _ => view) =
      (registry.mapEntries fun _ => view).set key (view value) := by
  have habsent' : (registry.mapEntries fun _ => view).lookup key = none := by
    rw [lookup_mapEntries, habsent]
    rfl
  apply ext_entries
  rw [set_of_absent_entries _ habsent']
  simp [mapEntries, set_of_absent_entries registry habsent]

/-- The entries that pass a test. -/
def filter (registry : Registry Key Value) (test : Key → Value → Bool) : Registry Key Value where
  entries := registry.entries.filter fun entry => test entry.1 entry.2
  nodup := registry.nodup.sublist (List.filter_sublist.map _)

theorem lookup_filter (registry : Registry Key Value) (test : Key → Value → Bool) (key : Key) :
    (registry.filter test).lookup key = (registry.lookup key).filter (test key) := by
  refine Option.ext fun value => ?_
  rw [← mem_entries_iff, filter, List.mem_filter, mem_entries_iff, Option.filter_eq_some_iff]

theorem filter_eq_self_iff (registry : Registry Key Value) (test : Key → Value → Bool) :
    registry.filter test = registry ↔
      ∀ key value, registry.lookup key = some value → test key value = true := by
  constructor
  · intro heq key value hlook
    have hmem := (registry.mem_entries_iff key value).mpr hlook
    rw [← heq] at hmem
    exact (List.mem_filter.mp hmem).2
  · intro hall
    apply ext_entries
    apply List.filter_eq_self.mpr
    rintro ⟨key, value⟩ hentry
    exact hall key value ((registry.mem_entries_iff key value).mp hentry)

/-- As many entries pass as there are keys to pass, iff every such key does. -/
theorem length_filter_eq_card_iff (registry : Registry Key Value) {test : Key → Value → Bool}
    {keys : Finset Key} (hkeys : ∀ key value, test key value = true → key ∈ keys) :
    (registry.filter test).entries.length = keys.card ↔
      ∀ key ∈ keys, ((registry.lookup key).filter (test key)).isSome := by
  have hsubset : (registry.filter test).keys.toFinset ⊆ keys := by
    intro key hkey
    obtain ⟨⟨_, value⟩, hentry, rfl⟩ := List.mem_map.mp (List.mem_toFinset.mp hkey)
    exact hkeys _ _ (List.mem_filter.mp hentry).2
  have hcard : (registry.filter test).keys.toFinset.card =
      (registry.filter test).entries.length :=
    (List.toFinset_card_of_nodup (registry.filter test).nodup).trans (List.length_map _)
  have hmem : ∀ key, key ∈ (registry.filter test).keys.toFinset ↔
      ((registry.lookup key).filter (test key)).isSome := by
    intro key
    rw [List.mem_toFinset, ← lookup_filter, Option.isSome_iff_ne_none, ne_eq,
      lookup_eq_none_iff, not_not]
  constructor
  · intro hlength key hkey
    rw [← hmem, Finset.eq_of_subset_of_card_le hsubset (by rw [hcard, hlength])]
    exact hkey
  · intro hall
    rw [← hcard]
    congr 1
    exact Finset.Subset.antisymm hsubset fun key hkey => (hmem key).mpr (hall key hkey)

/-! ## Insertions -/

/-- Insert new entries in their order, or say which key was already there. -/
def insertAll : Registry Key Value → List (Key × Value) → Except Key (Registry Key Value)
  | registry, [] => .ok registry
  | registry, (key, value) :: rest =>
      if key ∈ registry.keys then .error key else insertAll (registry.set key value) rest

theorem entries_insertAll {registry extended : Registry Key Value}
    {additions : List (Key × Value)} (h : registry.insertAll additions = .ok extended) :
    extended.entries = registry.entries ++ additions := by
  induction additions generalizing registry with
  | nil =>
      obtain rfl := Except.ok.inj h
      rw [List.append_nil]
  | cons addition rest ih =>
      obtain ⟨key, value⟩ := addition
      rw [insertAll] at h
      split at h
      next => cases h
      next habsent =>
        rw [ih h, set_of_absent_entries registry ((registry.lookup_eq_none_iff key).mpr habsent),
          List.append_assoc]
        rfl

/-- The same values under the same keys, in any order. -/
def agrees [DecidableEq Value] (first second : Registry Key Value) : Bool :=
  (first.keys ++ second.keys).all fun key => first.lookup key = second.lookup key

theorem agrees_iff [DecidableEq Value] (first second : Registry Key Value) :
    first.agrees second = true ↔ ∀ key, first.lookup key = second.lookup key := by
  rw [agrees, List.all_eq_true]
  constructor
  · intro hall key
    by_cases hkey : key ∈ first.keys ++ second.keys
    · exact of_decide_eq_true (hall key hkey)
    · rw [List.mem_append, not_or] at hkey
      rw [(first.lookup_eq_none_iff key).mpr hkey.1, (second.lookup_eq_none_iff key).mpr hkey.2]
  · intro hall key _
    exact decide_eq_true (hall key)

end Registry

end Foundation
