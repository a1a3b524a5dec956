/-
  Hash maps with string keys, as association lists without duplicate keys, and the stable sort
  by a key.

  The entries of the list are not the order in which a hash map is iterated: that order is an
  `IterationOrder`, any permutation of the entries, which the functions that iterate take as a
  parameter. What a map holds is said by `lookup`, and by `mem_values` for its iteration.
-/
import Mathlib.Data.List.AList
import Mathlib.Data.List.Induction
import Mathlib.Data.List.Sort

namespace GoudaMatrix.Lib

abbrev HashMap (V : Type) := AList fun _ : String => V

/-- The order in which hash maps are iterated. -/
structure IterationOrder where
  order : {V : Type} → List (Sigma fun _ : String => V) → List (Sigma fun _ : String => V)
  perm : ∀ {V : Type} (entries : List (Sigma fun _ : String => V)), (order entries).Perm entries

/-- Iteration in the order of the list of entries. -/
def IterationOrder.entries : IterationOrder := ⟨id, fun _ => List.Perm.refl _⟩

namespace HashMap

variable {V : Type}

/-- The entries with the key, of which there is at most one. -/
theorem filter_key {entries : List (Sigma fun _ : String => V)} (h : entries.NodupKeys)
    (key : String) : (entries.filter fun entry => entry.1 = key)
      = ((entries.dlookup key).map (Sigma.mk key)).toList := by
  induction entries with
  | nil => rfl
  | cons entry entries ih =>
    obtain ⟨k, v⟩ := entry
    obtain ⟨hk, hentries⟩ := List.nodupKeys_cons.mp h
    rw [List.filter_cons, ih hentries]
    by_cases hkey : k = key
    · subst hkey
      simp [List.dlookup_eq_none.mpr hk]
    · rw [if_neg (by simpa using hkey), List.dlookup_cons_ne _ _ (Ne.symm hkey)]

/-- `values()`. -/
def values (o : IterationOrder) (m : HashMap V) : List V := (o.order m.entries).map Sigma.snd

/-- `entry(key).or_default()`, followed by a change of the value. -/
def modifyEntry (m : HashMap V) (key : String) (default : V) (f : V → V) : HashMap V :=
  m.insert key (f ((m.lookup key).getD default))

theorem values_perm (o : IterationOrder) (m : HashMap V) :
    (m.values o).Perm (m.entries.map Sigma.snd) := by
  unfold values
  exact (o.perm m.entries).map _

/-- The iteration goes through the entries. -/
theorem mem_order {o : IterationOrder} {m : HashMap V} {entry : Sigma fun _ : String => V} :
    entry ∈ o.order m.entries ↔ m.lookup entry.1 = some entry.2 := by
  rw [(o.perm m.entries).mem_iff]
  exact (List.mem_dlookup_iff m.nodupKeys).symm

theorem mem_values {o : IterationOrder} {m : HashMap V} {v : V} :
    v ∈ m.values o ↔ ∃ key, m.lookup key = some v := by
  unfold values
  rw [List.mem_map]
  constructor
  · rintro ⟨⟨key, w⟩, hmem, rfl⟩
    exact ⟨key, mem_order.mp hmem⟩
  · rintro ⟨key, h⟩
    exact ⟨⟨key, v⟩, mem_order.mpr h, rfl⟩

theorem isEmpty_values (o : IterationOrder) (m : HashMap V) :
    (m.values o).isEmpty = m.entries.isEmpty := by
  have hlength := (values_perm o m).length_eq
  rw [List.length_map] at hlength
  rw [Bool.eq_iff_iff, List.isEmpty_iff_length_eq_zero, List.isEmpty_iff_length_eq_zero, hlength]

theorem lookup_insert_cases (m : HashMap V) (key k : String) (v : V) :
    AList.lookup k (m.insert key v) = if k = key then some v else m.lookup k := by
  split
  · next h =>
    subst h
    exact AList.lookup_insert m
  · next h => exact AList.lookup_insert_ne h

theorem lookup_modifyEntry (m : HashMap V) (key k : String) (default : V) (f : V → V) :
    AList.lookup k (m.modifyEntry key default f)
      = if k = key then some (f ((m.lookup key).getD default)) else m.lookup k :=
  lookup_insert_cases m key k _

/-- The entries, inserted one after another. -/
def ofEntries (entries : List (String × V)) : HashMap V :=
  entries.foldl (fun m entry => m.insert entry.1 entry.2) ∅

theorem ofEntries_append (entries entries' : List (String × V)) :
    ofEntries (entries ++ entries')
      = entries'.foldl (fun m entry => m.insert entry.1 entry.2) (ofEntries entries) := by
  simp [ofEntries]

/-- What is held has been inserted. -/
theorem mem_of_lookup_ofEntries {entries : List (String × V)} {key : String} {v : V}
    (h : (ofEntries entries).lookup key = some v) : (key, v) ∈ entries := by
  induction entries using List.reverseRecOn with
  | nil => cases h
  | append_singleton entries entry ih =>
    rw [ofEntries_append, List.foldl_cons, List.foldl_nil, lookup_insert_cases] at h
    obtain ⟨k, w⟩ := entry
    split at h
    · next hkey =>
      rw [hkey, ← Option.some.inj h]
      exact List.mem_append_right _ List.mem_cons_self
    · exact List.mem_append_left _ (ih h)

/-- Entries with different keys are all held. -/
theorem entries_ofEntries_perm {entries : List (String × V)} (h : (entries.map Prod.fst).Nodup) :
    ((ofEntries entries).entries.map Sigma.snd).Perm (entries.map Prod.snd) := by
  induction entries using List.reverseRecOn with
  | nil => exact List.Perm.refl _
  | append_singleton entries entry ih =>
    rw [List.map_append, List.nodup_append] at h
    obtain ⟨hentries, -, hnew⟩ := h
    have hkey : entry.1 ∉ ofEntries entries := by
      intro hmem
      obtain ⟨v, hv⟩ := Option.isSome_iff_exists.mp (AList.lookup_isSome.mpr hmem)
      exact hnew _ (List.mem_map.mpr ⟨_, mem_of_lookup_ofEntries hv, rfl⟩) _ List.mem_cons_self rfl
    rw [ofEntries_append, List.foldl_cons, List.foldl_nil, AList.entries_insert_of_notMem hkey,
      List.map_append]
    exact ((ih hentries).cons _).trans (List.perm_append_singleton _ _).symm

theorem isEmpty_ofEntries (entries : List (String × V)) :
    (ofEntries entries).entries.isEmpty = entries.isEmpty := by
  induction entries using List.reverseRecOn with
  | nil => rfl
  | append_singleton entries entry ih =>
    rw [ofEntries_append, List.foldl_cons, List.foldl_nil, AList.entries_insert]
    simp

/-- `retain`: the entries with the property. -/
def retain (m : HashMap V) (p : String → V → Bool) : HashMap V :=
  ⟨m.entries.filter fun entry => p entry.1 entry.2, m.nodupKeys.sublist List.filter_sublist⟩

/-- `extract_if`: the entries with the property in the order of the iteration, and the others. -/
def extractIf (o : IterationOrder) (m : HashMap V) (p : String → V → Bool) :
    List (Sigma fun _ : String => V) × HashMap V :=
  ((o.order m.entries).filter fun entry => p entry.1 entry.2, m.retain fun key v => !p key v)

theorem lookup_eq_some_retain {m : HashMap V} {p : String → V → Bool} {key : String} {v : V} :
    (m.retain p).lookup key = some v ↔ m.lookup key = some v ∧ p key v = true := by
  refine (List.mem_dlookup_iff (m.retain p).nodupKeys).trans ?_
  exact List.mem_filter.trans (and_congr_left' (List.mem_dlookup_iff m.nodupKeys).symm)

theorem mem_extractIf {o : IterationOrder} {m : HashMap V} {p : String → V → Bool} {key : String}
    {v : V} : ⟨key, v⟩ ∈ (m.extractIf o p).1 ↔ m.lookup key = some v ∧ p key v = true :=
  List.mem_filter.trans (and_congr_left' mem_order)

/-- A change of every value. -/
def mapValues {W : Type} (f : V → W) (m : HashMap V) : HashMap W :=
  ⟨m.entries.map (Sigma.map id fun _ => f), List.NodupKeys.map₂ (fun _ => f) _ m.nodupKeys⟩

theorem lookup_mapValues {W : Type} (f : V → W) (m : HashMap V) (key : String) :
    (m.mapValues f).lookup key = (m.lookup key).map f :=
  List.dlookup_map₂ (f := fun _ => f) key

end HashMap

/-! ## Sorting by a key -/

section Sorting

variable {α : Type}

/-- `sort_by_key`, which is stable. -/
def sortByKey (key : α → Nat) (xs : List α) : List α := xs.insertionSort fun a b => key a ≤ key b

theorem sortByKey_perm (key : α → Nat) (xs : List α) : (sortByKey key xs).Perm xs :=
  List.perm_insertionSort _ xs

theorem mem_sortByKey {key : α → Nat} {xs : List α} {x : α} : x ∈ sortByKey key xs ↔ x ∈ xs :=
  (sortByKey_perm key xs).mem_iff

theorem sortByKey_pairwise (key : α → Nat) (xs : List α) :
    (sortByKey key xs).Pairwise fun a b => key a ≤ key b := by
  have : Std.Total fun a b : α => key a ≤ key b := ⟨fun a b => Nat.le_total _ _⟩
  have : IsTrans α fun a b : α => key a ≤ key b := ⟨fun a b c => Nat.le_trans⟩
  exact List.pairwise_insertionSort _ xs

theorem map_sortByKey {β : Type} (key : β → Nat) (f : α → β) (xs : List α) :
    (sortByKey (fun x => key (f x)) xs).map f = sortByKey key (xs.map f) := by
  unfold sortByKey
  exact List.map_insertionSort _ _ f xs fun a _ b _ => Iff.rfl

/-- Elements with different keys are sorted in one way. -/
theorem sortByKey_eq_of_perm {key : α → Nat} {xs ys : List α} (h : xs.Perm ys)
    (hkey : ∀ a ∈ xs, ∀ b ∈ xs, key a = key b → a = b) : sortByKey key xs = sortByKey key ys := by
  have hperm := ((sortByKey_perm key xs).trans h).trans (sortByKey_perm key ys).symm
  refine hperm.eq_of_pairwise (fun a b ha hb hab hba => ?_) (sortByKey_pairwise key xs)
    (sortByKey_pairwise key ys)
  exact hkey a (mem_sortByKey.mp ha) b (h.mem_iff.mpr (mem_sortByKey.mp hb))
    (Nat.le_antisymm hab hba)

theorem sortByKey_of_pairwise {key : α → Nat} {xs : List α}
    (h : xs.Pairwise fun a b => key a ≤ key b) : sortByKey key xs = xs :=
  h.insertionSort_eq

/-- The last element of the sorted list has a maximal key. -/
theorem getLast?_sortByKey {key : α → Nat} {xs : List α} {x : α}
    (h : (sortByKey key xs).getLast? = some x) : x ∈ xs ∧ ∀ y ∈ xs, key y ≤ key x := by
  obtain ⟨ys, hys⟩ := List.getLast?_eq_some_iff.mp h
  have hsorted := sortByKey_pairwise key xs
  rw [hys, List.pairwise_append] at hsorted
  refine ⟨mem_sortByKey.mp (by rw [hys]; simp), fun y hy => ?_⟩
  have hmem : y ∈ ys ++ [x] := hys ▸ mem_sortByKey.mpr hy
  rcases List.mem_append.mp hmem with hmem | hmem
  · exact hsorted.2.2 y hmem x List.mem_cons_self
  · rw [List.mem_singleton.mp hmem]

/-- The elements with the property that have the greatest key. -/
def Newest (key : α → Nat) (p : α → Prop) (x : α) : Prop := p x ∧ ∀ y, p y → key y ≤ key x

theorem getLast?_sortByKey_eq_none {key : α → Nat} {xs : List α} :
    (sortByKey key xs).getLast? = none ↔ xs = [] := by
  rw [List.getLast?_eq_none_iff]
  constructor
  · intro h
    have hperm := sortByKey_perm key xs
    rw [h] at hperm
    exact hperm.symm.eq_nil
  · rintro rfl
    rfl

end Sorting

namespace HashMap

variable {V : Type}

/-- The key of the last of the entries, sorted by a key of their values. -/
def latestKey (o : IterationOrder) (key : V → Nat) (m : HashMap V) : Option String :=
  ((sortByKey (fun entry => key entry.2) (o.order m.entries)).getLast?).map Sigma.fst

/-- The last of the sorted values is the one at that key. -/
theorem getLast?_values (o : IterationOrder) (key : V → Nat) (m : HashMap V) :
    (sortByKey key (m.values o)).getLast? = (m.latestKey o key).bind m.lookup := by
  unfold values latestKey
  rw [← map_sortByKey, List.getLast?_map]
  cases hlast : (sortByKey (fun entry => key entry.2) (o.order m.entries)).getLast? with
  | none => rfl
  | some entry => exact (mem_order.mp (getLast?_sortByKey hlast).1).symm

/-- The map without regard to the value at the key. -/
def SameOff (key : String) (m m' : HashMap V) : Prop := ∀ k, k ≠ key → m.lookup k = m'.lookup k

theorem SameOff.insert {key : String} {m m' : HashMap V} (h : SameOff key m m') (k : String)
    (v : V) :
    SameOff key (m.insert k v) (m'.insert k v) := by
  intro k' hk'
  rw [lookup_insert_cases, lookup_insert_cases, h k' hk']

/-- The value at the key is newer than all others. -/
def IsNewest (ts : V → Nat) (m : HashMap V) (key : String) : Prop :=
  ∃ v, m.lookup key = some v ∧ ∀ k w, m.lookup k = some w → k ≠ key → ts w < ts v

/-- Such a value is the last one, however the map is iterated. -/
theorem getLast?_of_isNewest {ts : V → Nat} {m : HashMap V} {key : String} (h : IsNewest ts m key)
    (o : IterationOrder) : (sortByKey ts (m.values o)).getLast? = m.lookup key := by
  obtain ⟨v, hkey, hnewer⟩ := h
  have hmem : v ∈ m.values o := mem_values.mpr ⟨key, hkey⟩
  cases hlast : (sortByKey ts (m.values o)).getLast? with
  | none =>
    rw [getLast?_sortByKey_eq_none.mp hlast] at hmem
    cases hmem
  | some w =>
    obtain ⟨hw, hmax⟩ := getLast?_sortByKey hlast
    obtain ⟨k, hk⟩ := mem_values.mp hw
    by_cases hne : k = key
    · rw [← hk, hne]
    · exact absurd (hnewer k w hk hne) (Nat.not_lt_of_le (hmax v hmem))

/-- It stays the last one where an older value is missing. -/
theorem getLast?_of_sameOff {ts : V → Nat} {m m' : HashMap V} {key shown : String}
    (h : SameOff key m m') (hshown : shown ≠ key) (hnewest : IsNewest ts m shown)
    (hremoved : m'.lookup key = none) (o : IterationOrder) :
    (sortByKey ts (m.values o)).getLast? = (sortByKey ts (m'.values o)).getLast? := by
  have hnewest' : IsNewest ts m' shown := by
    obtain ⟨v, hlookup, hnewer⟩ := hnewest
    refine ⟨v, (h shown hshown).symm.trans hlookup, fun k w hk hne => hnewer k w ?_ hne⟩
    rwa [h k fun hkey => by rw [hkey, hremoved] at hk; cases hk]
  rw [getLast?_of_isNewest hnewest, getLast?_of_isNewest hnewest', h shown hshown]

theorem mem_of_latestKey {o : IterationOrder} {key : V → Nat} {m : HashMap V} {k : String}
    (h : m.latestKey o key = some k) : k ∈ m := by
  obtain ⟨entry, hlast, rfl⟩ := Option.map_eq_some_iff.mp h
  have hmem := (o.perm m.entries).mem_iff.mp (getLast?_sortByKey hlast).1
  exact List.mem_map.mpr ⟨entry, hmem, rfl⟩

theorem mem_keys_order {o : IterationOrder} {m : HashMap V} {k : String} :
    k ∈ (o.order m.entries).map Sigma.fst ↔ k ∈ m := by
  rw [((o.perm m.entries).map Sigma.fst).mem_iff]
  rfl

/-- The values are those of the keys. -/
theorem values_eq_filterMap (o : IterationOrder) (m : HashMap V) :
    m.values o = ((o.order m.entries).map Sigma.fst).filterMap m.lookup := by
  have hentries : ∀ xs : List (Sigma fun _ : String => V),
      (∀ entry ∈ xs, m.lookup entry.1 = some entry.2) →
      xs.map Sigma.snd = (xs.map Sigma.fst).filterMap m.lookup := by
    intro xs
    induction xs with
    | nil => exact fun _ => rfl
    | cons entry xs ih =>
      intro hmem
      obtain ⟨hlookup, hrest⟩ := List.forall_mem_cons.mp hmem
      rw [List.map_cons, List.map_cons, List.filterMap_cons, hlookup, ih hrest]
  exact hentries _ fun entry hmem => mem_order.mp hmem

end HashMap

end GoudaMatrix.Lib
