/-
  `utils.rs`: `merge_hash_map_max`, on finite maps from user ids to timestamps, and
  `compare_lists`.

  `lookup_mergeHashMapMax` says what the merged map holds for every key, so that the order in which
  the source iterates over the second map does not matter. `compareLists_of_keys` says what the
  three groups are for lists of entries with distinct keys, whatever their order.
-/
import Mathlib.Data.Finmap

namespace GoudaMatrix

/-- User ids to timestamps. -/
abbrev ReadMarkers := Finmap fun _ : String => Nat

/-- One iteration of `merge_hash_map_max`. -/
def insertMax (a : ReadMarkers) (key : String) (value : Nat) : ReadMarkers :=
  match a.lookup key with
  | some old => if value > old then a.insert key value else a
  | none => a.insert key value

theorem lookup_insertMax (a : ReadMarkers) (key : String) (value : Nat) (k : String) :
    (insertMax a key value).lookup k
      = if k = key then some (max ((a.lookup key).getD 0) value) else a.lookup k := by
  unfold insertMax
  by_cases hk : k = key
  · subst hk
    rw [if_pos rfl]
    cases h : a.lookup k with
    | none => simp
    | some old =>
      dsimp only [Option.getD_some]
      split
      · rw [Finmap.lookup_insert, Nat.max_eq_right (by omega)]
      · rw [h, Nat.max_eq_left (by omega)]
  · rw [if_neg hk]
    cases h : a.lookup key with
    | none => exact Finmap.lookup_insert_of_ne _ hk
    | some old =>
      dsimp only
      split
      · exact Finmap.lookup_insert_of_ne _ hk
      · rfl

theorem insertMax_comm (a : ReadMarkers) (k₁ : String) (v₁ : Nat) (k₂ : String) (v₂ : Nat) :
    insertMax (insertMax a k₁ v₁) k₂ v₂ = insertMax (insertMax a k₂ v₂) k₁ v₁ := by
  apply Finmap.ext_lookup
  intro k
  simp only [lookup_insertMax]
  by_cases h₁ : k = k₁
  · by_cases h₂ : k = k₂
    · subst h₁ h₂
      simp only [if_true, Option.getD_some, Nat.max_right_comm]
    · subst h₁
      simp [h₂]
  · by_cases h₂ : k = k₂
    · subst h₂
      simp [h₁]
    · simp [h₁, h₂]

/-- `merge_hash_map_max(&mut a, b)`. -/
def mergeHashMapMax (a b : ReadMarkers) : ReadMarkers := b.foldl insertMax insertMax_comm a

theorem lookup_foldl_insertMax (entries : List (Sigma fun _ : String => Nat))
    (hn : entries.NodupKeys) (a : ReadMarkers) (k : String) :
    (entries.foldl (fun m e => insertMax m e.1 e.2) a).lookup k
      = match entries.dlookup k with
        | none => a.lookup k
        | some value => some (max ((a.lookup k).getD 0) value) := by
  induction entries generalizing a with
  | nil => rfl
  | cons e es ih =>
    obtain ⟨key, value⟩ := e
    obtain ⟨hkey, hes⟩ := List.nodupKeys_cons.mp hn
    rw [List.foldl_cons, ih hes, lookup_insertMax]
    by_cases hk : k = key
    · subst hk
      have hnone : es.dlookup k = none := List.dlookup_eq_none.mpr hkey
      simp [hnone]
    · rw [List.dlookup_cons_ne _ _ hk, if_neg hk]

theorem lookup_mergeHashMapMax (a b : ReadMarkers) (k : String) :
    (mergeHashMapMax a b).lookup k
      = match b.lookup k with
        | none => a.lookup k
        | some value => some (max ((a.lookup k).getD 0) value) := by
  induction b using Finmap.induction_on with
  | H b => exact lookup_foldl_insertMax b.entries b.nodupKeys a k

/-! ## The difference of two lists -/

structure ComparisonResult (α : Type) where
  new : List α
  /-- The old and the new item. -/
  updated : List (α × α)
  deleted : List α

section CompareLists

variable {α : Type} (old new : List α) (sameItem dataMatches : α → α → Bool)

/-- The first old item that is the same item, with its index. -/
def firstMatch (newItem : α) : Option (α × Nat) :=
  old.zipIdx.find? fun entry => sameItem entry.1 newItem

/-- One iteration of the loop over the new items. The indices are those of matched old items. -/
def compareNewItem (state : ComparisonResult α × List Nat) (newItem : α) :
    ComparisonResult α × List Nat :=
  match firstMatch old sameItem newItem with
  | some (oldItem, oldIndex) =>
    (if dataMatches oldItem newItem then state.1
      else { state.1 with updated := state.1.updated ++ [(oldItem, newItem)] },
      state.2 ++ [oldIndex])
  | none => ({ state.1 with new := state.1.new ++ [newItem] }, state.2)

def compareLists : ComparisonResult α :=
  let (result, matchedOldIndices) :=
    new.foldl (compareNewItem old sameItem dataMatches) (⟨[], [], []⟩, [])
  let unmatched := old.zipIdx.filter fun entry => !matchedOldIndices.contains entry.2
  { result with deleted := result.deleted ++ unmatched.map Prod.fst }

theorem foldl_compareNewItem :
    new.foldl (compareNewItem old sameItem dataMatches) (⟨[], [], []⟩, [])
      = (⟨new.filter fun newItem => (firstMatch old sameItem newItem).isNone,
          new.filterMap fun newItem => (firstMatch old sameItem newItem).bind fun entry =>
            if dataMatches entry.1 newItem then none else some (entry.1, newItem), []⟩,
        new.filterMap fun newItem => (firstMatch old sameItem newItem).map Prod.snd) := by
  induction new using List.reverseRecOn with
  | nil => rfl
  | append_singleton new newItem ih =>
    rw [List.foldl_append, ih, List.foldl_cons, List.foldl_nil, compareNewItem]
    cases h : firstMatch old sameItem newItem with
    | none => simp [h]
    | some entry => by_cases hdata : dataMatches entry.1 newItem <;> simp [h, hdata]

end CompareLists

section Keys

variable {V : Type} {old new : List (Sigma fun _ : String => V)}

theorem mem_of_firstMatch {newItem oldItem : Sigma fun _ : String => V} {i : Nat}
    (h : firstMatch old (fun a b => a.1 = b.1) newItem = some (oldItem, i)) :
    old[i]? = some oldItem ∧ oldItem.1 = newItem.1 := by
  have hkey := List.find?_some h
  exact ⟨List.mk_mem_zipIdx_iff_getElem?.mp (List.mem_of_find?_eq_some h), of_decide_eq_true hkey⟩

theorem map_fst_firstMatch (hold : old.NodupKeys) (newItem : Sigma fun _ : String => V) :
    (firstMatch old (fun a b => a.1 = b.1) newItem).map Prod.fst
      = (old.dlookup newItem.1).map (Sigma.mk newItem.1) := by
  cases h : firstMatch old (fun a b => a.1 = b.1) newItem with
  | none =>
    have hnone : old.dlookup newItem.1 = none := by
      refine List.dlookup_eq_none.mpr fun hmem => ?_
      obtain ⟨oldItem, hmem, hkey⟩ := List.mem_map.mp hmem
      obtain ⟨i, hi⟩ := List.mem_iff_getElem?.mp hmem
      have hfalse := List.find?_eq_none.mp h (oldItem, i) (List.mk_mem_zipIdx_iff_getElem?.mpr hi)
      exact hfalse (decide_eq_true hkey)
    rw [hnone]
    rfl
  | some entry =>
    obtain ⟨⟨key, v⟩, i⟩ := entry
    obtain ⟨hi, hkey⟩ := mem_of_firstMatch h
    obtain rfl : key = newItem.1 := hkey
    rw [List.mem_dlookup hold (List.mem_of_getElem? hi)]
    rfl

/-- The index of a matched old item is that of the entry with the key. -/
theorem mem_matched_iff (hold : old.NodupKeys) {oldItem : Sigma fun _ : String => V} {i : Nat}
    (hi : old[i]? = some oldItem) :
    (∃ newItem ∈ new, (firstMatch old (fun a b => a.1 = b.1) newItem).map Prod.snd = some i) ↔
      oldItem.1 ∈ new.keys := by
  constructor
  · rintro ⟨newItem, hmem, hmatch⟩
    obtain ⟨⟨oldItem', j⟩, hfirst, rfl⟩ := Option.map_eq_some_iff.mp hmatch
    obtain ⟨hj, hkey⟩ := mem_of_firstMatch hfirst
    rw [hi] at hj
    obtain rfl := Option.some.inj hj
    exact hkey ▸ List.mem_keys_of_mem hmem
  · intro hmem
    obtain ⟨newItem, hnew, hkey⟩ := List.mem_map.mp hmem
    refine ⟨newItem, hnew, ?_⟩
    have hlookup : old.dlookup newItem.1 = some oldItem.2 := by
      rw [hkey]
      exact List.mem_dlookup hold (List.mem_of_getElem? hi)
    have hfst := map_fst_firstMatch hold newItem
    rw [hlookup] at hfst
    obtain ⟨⟨oldItem', j⟩, hfirst, -⟩ := Option.map_eq_some_iff.mp hfst
    obtain ⟨hj, hkey'⟩ := mem_of_firstMatch hfirst
    rw [hfirst]
    -- both places hold the key
    have hplace : old.keys[i]? = old.keys[j]? := by
      simp [List.keys, hi, hj, hkey, hkey']
    have hlt : i < old.keys.length := by
      rw [List.keys, List.length_map]
      exact (List.getElem?_eq_some_iff.mp hi).1
    exact congrArg some ((List.getElem?_inj hlt hold).mp hplace).symm

theorem new_of_keys [DecidableEq V] (hold : old.NodupKeys) :
    (compareLists old new (fun a b => a.1 = b.1) fun a b => a.2 = b.2).new
      = new.filter fun entry => (old.dlookup entry.1).isNone := by
  simp only [compareLists, foldl_compareNewItem]
  refine List.filter_congr fun entry _ => ?_
  have h := congrArg Option.isNone (map_fst_firstMatch hold entry)
  rwa [Option.isNone_map, Option.isNone_map] at h

theorem updated_of_keys [DecidableEq V] (hold : old.NodupKeys) :
    (compareLists old new (fun a b => a.1 = b.1) fun a b => a.2 = b.2).updated.map Prod.snd
      = new.filter fun entry => (old.dlookup entry.1).any fun v => v ≠ entry.2 := by
  simp only [compareLists, foldl_compareNewItem]
  rw [List.map_filterMap, ← List.filterMap_eq_filter]
  refine List.filterMap_congr fun entry _ => ?_
  have h := map_fst_firstMatch hold entry
  cases hmatch : firstMatch old (fun a b => a.1 = b.1) entry with
  | none =>
    rw [hmatch, Option.map_none, eq_comm, Option.map_eq_none_iff] at h
    simp [h, Option.guard]
  | some found =>
    rw [hmatch, Option.map_some, eq_comm, Option.map_eq_some_iff] at h
    obtain ⟨v, hlookup, hfound⟩ := h
    rw [Option.bind_some, ← hfound]
    by_cases hdata : v = entry.2 <;> simp [hdata, hlookup, Option.guard]

theorem deleted_of_keys [DecidableEq V] (hold : old.NodupKeys) :
    (compareLists old new (fun a b => a.1 = b.1) fun a b => a.2 = b.2).deleted
      = old.filter fun entry => (new.dlookup entry.1).isNone := by
  simp only [compareLists, foldl_compareNewItem, List.nil_append]
  have hunmatched : ∀ entry ∈ old.zipIdx, (!(new.filterMap fun newItem =>
      (firstMatch old (fun a b => a.1 = b.1) newItem).map Prod.snd).contains entry.2)
        = (new.dlookup entry.1.1).isNone := by
    rintro ⟨oldItem, i⟩ hmem
    have hi := List.mk_mem_zipIdx_iff_getElem?.mp hmem
    rw [Bool.eq_iff_iff, Bool.not_eq_true', Bool.eq_false_iff, ne_eq, List.contains_iff_mem,
      List.mem_filterMap, mem_matched_iff hold hi, Option.isNone_iff_eq_none, List.dlookup_eq_none]
  calc (old.zipIdx.filter _).map Prod.fst
      = (old.zipIdx.filter fun entry => (new.dlookup entry.1.1).isNone).map Prod.fst := by
        rw [List.filter_congr hunmatched]
    _ = (old.zipIdx.map Prod.fst).filter fun entry => (new.dlookup entry.1).isNone := by
        rw [List.filter_map]
        rfl
    _ = old.filter fun entry => (new.dlookup entry.1).isNone := by
        rw [List.zipIdx_map_fst]

end Keys

end GoudaMatrix
