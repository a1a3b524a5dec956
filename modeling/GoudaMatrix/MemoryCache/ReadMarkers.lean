/-
  The read markers that a `CachedRoom` keeps (`memory_cache.rs`: `cache_read_marker`) and the
  change that the receipts of a sync make of them (`events.rs`: `process_receipts`,
  `get_read_marker`).

  `raised_getReadMarker` is the contract of `get_read_marker`: the returned map holds exactly
  the users whose cached marker has been raised, each with its new marker.
-/
import GoudaMatrix.Utils

namespace GoudaMatrix.MemoryCache

/-- `cache_read_marker`: whether the marker has been updated, and the cached markers. -/
def cacheReadMarker (markers : ReadMarkers) (userId : String) (timestamp : Nat) :
    Bool × ReadMarkers :=
  match markers.lookup userId with
  | some old =>
    if old ≥ timestamp then (false, markers) else (true, markers.insert userId timestamp)
  | none => (true, markers.insert userId timestamp)

/-- The ephemeral events of a `JoinedRoomUpdate`. A receipt event maps event ids to receipts;
    `none` stands for an event without read receipts, a receipt may come without timestamp. -/
inductive EphemeralEvent where
  | malformed
  | typing (userIds : List String)
  | receipt (content : List (Option (List (String × Option Nat))))
  | other
deriving DecidableEq, Repr

/-- One receipt of `process_receipts`, on the result so far and the cached markers. -/
def processReceipt (acc : ReadMarkers × ReadMarkers) (receipt : String × Option Nat) :
    ReadMarkers × ReadMarkers :=
  match receipt.2 with
  | none => acc
  | some ts =>
    let (changed, cached) := cacheReadMarker acc.2 receipt.1 ts
    (if changed then acc.1.insert receipt.1 ts else acc.1, cached)

def processReceipts (cached : ReadMarkers) (content : List (Option (List (String × Option Nat)))) :
    ReadMarkers × ReadMarkers :=
  content.foldl (fun acc receipts => (receipts.getD []).foldl processReceipt acc) (∅, cached)

/-- The loop of `get_read_marker`. -/
def mergeReceipts (acc : ReadMarkers × ReadMarkers) : EphemeralEvent → ReadMarkers × ReadMarkers
  | .receipt content =>
    let (new, cached) := processReceipts acc.2 content
    (mergeHashMapMax acc.1 new, cached)
  | _ => acc

def getReadMarker (cached : ReadMarkers) (ephemeral : List EphemeralEvent) :
    Option ReadMarkers × ReadMarkers :=
  let (result, cached) := ephemeral.foldl mergeReceipts (∅, cached)
  (if result = ∅ then none else some result, cached)

def getUserTypingList (ephemeral : List EphemeralEvent) : Option (List String) :=
  ephemeral.foldl (fun result event =>
    match event with
    | .typing userIds => some userIds
    | _ => result) none

/-! ## Markers only grow -/

/-- Every marker of `a` is in `b`, with the same or a newer timestamp. -/
def Below (a b : ReadMarkers) : Prop :=
  ∀ u ts, a.lookup u = some ts → ∃ ts', b.lookup u = some ts' ∧ ts ≤ ts'

theorem Below.refl (a : ReadMarkers) : Below a a := fun _ ts h => ⟨ts, h, Nat.le_refl ts⟩

theorem Below.trans {a b c : ReadMarkers} (hab : Below a b) (hbc : Below b c) : Below a c := by
  intro u ts h
  obtain ⟨ts', h', hle⟩ := hab u ts h
  obtain ⟨ts'', h'', hle'⟩ := hbc u ts' h'
  exact ⟨ts'', h'', Nat.le_trans hle hle'⟩

/-- The marker is reported as changed, and cached, when it is newer than the cached one. -/
theorem cacheReadMarker_of_newer {markers : ReadMarkers} {userId : String} {ts : Nat}
    (h : ∀ old, markers.lookup userId = some old → old < ts) :
    cacheReadMarker markers userId ts = (true, markers.insert userId ts) := by
  unfold cacheReadMarker
  cases hold : markers.lookup userId with
  | none => rfl
  | some old =>
    have hlt := h old hold
    dsimp only
    rw [if_neg (by omega)]

theorem cacheReadMarker_of_older {markers : ReadMarkers} {userId : String} {ts old : Nat}
    (hold : markers.lookup userId = some old) (hle : ts ≤ old) :
    cacheReadMarker markers userId ts = (false, markers) := by
  simp only [cacheReadMarker, hold]
  rw [if_pos hle]

theorem below_insert {markers : ReadMarkers} {userId : String} {ts : Nat}
    (h : ∀ old, markers.lookup userId = some old → old < ts) :
    Below markers (markers.insert userId ts) := by
  intro u old hu
  by_cases huser : u = userId
  · subst huser
    have hlt := h old hu
    exact ⟨ts, Finmap.lookup_insert _, by omega⟩
  · exact ⟨old, (Finmap.lookup_insert_of_ne _ huser).trans hu, Nat.le_refl old⟩

theorem below_cacheReadMarker (markers : ReadMarkers) (userId : String) (ts : Nat) :
    Below markers (cacheReadMarker markers userId ts).2 := by
  by_cases h : ∀ old, markers.lookup userId = some old → old < ts
  · rw [cacheReadMarker_of_newer h]
    exact below_insert h
  · push Not at h
    obtain ⟨old, hold, hle⟩ := h
    rw [cacheReadMarker_of_older hold hle]
    exact Below.refl markers

theorem cacheReadMarker_snd (markers : ReadMarkers) (userId : String) (ts : Nat) :
    (cacheReadMarker markers userId ts).2 = insertMax markers userId ts := by
  unfold cacheReadMarker insertMax
  cases markers.lookup userId with
  | none => rfl
  | some old =>
    dsimp only
    by_cases h : ts ≤ old
    · rw [if_pos h, if_neg (by omega)]
    · rw [if_neg h, if_pos (by omega)]

/-- `cache_read_markers`, in any order of the users. -/
def cacheReadMarkers (markers new : ReadMarkers) : ReadMarkers :=
  new.foldl (fun markers userId ts => (cacheReadMarker markers userId ts).2)
    (fun m u₁ ts₁ u₂ ts₂ => by simp only [cacheReadMarker_snd, insertMax_comm m u₁ ts₁ u₂ ts₂])
    markers

/-! ## The users whose marker has been raised -/

/-- `result` holds the users whose marker is newer in `cached` than in `before`. -/
structure Raised (before result cached : ReadMarkers) : Prop where
  below : Below before cached
  raised : ∀ u ts, result.lookup u = some ts →
    cached.lookup u = some ts ∧ ∀ old, before.lookup u = some old → old < ts
  kept : ∀ u, result.lookup u = none → cached.lookup u = before.lookup u

theorem Raised.refl (markers : ReadMarkers) : Raised markers ∅ markers where
  below := Below.refl markers
  raised := by
    intro u ts h
    rw [Finmap.lookup_empty] at h
    cases h
  kept := fun _ _ => rfl

/-- The raised markers are the cached ones. -/
theorem Raised.below_result {before result cached : ReadMarkers} (h : Raised before result cached) :
    Below result cached :=
  fun u ts hu => ⟨ts, (h.raised u ts hu).1, Nat.le_refl ts⟩

theorem Raised.insert {before result cached : ReadMarkers} (h : Raised before result cached)
    {userId : String} {ts : Nat} (hnew : ∀ old, cached.lookup userId = some old → old < ts) :
    Raised before (result.insert userId ts) (cached.insert userId ts) where
  below := h.below.trans (below_insert hnew)
  raised := by
    intro u ts' hu
    by_cases huser : u = userId
    · subst huser
      rw [Finmap.lookup_insert, Option.some.injEq] at hu
      subst hu
      refine ⟨Finmap.lookup_insert _, fun old hold => ?_⟩
      obtain ⟨old', hold', hle⟩ := h.below u old hold
      have hlt := hnew old' hold'
      omega
    · rw [Finmap.lookup_insert_of_ne _ huser] at hu
      rw [Finmap.lookup_insert_of_ne _ huser]
      exact h.raised u ts' hu
  kept := by
    intro u hu
    by_cases huser : u = userId
    · subst huser
      rw [Finmap.lookup_insert] at hu
      cases hu
    · rw [Finmap.lookup_insert_of_ne _ huser] at hu
      rw [Finmap.lookup_insert_of_ne _ huser]
      exact h.kept u hu

theorem raised_processReceipt {before : ReadMarkers} {acc : ReadMarkers × ReadMarkers}
    (h : Raised before acc.1 acc.2) (receipt : String × Option Nat) :
    Raised before (processReceipt acc receipt).1 (processReceipt acc receipt).2 := by
  obtain ⟨userId, ts⟩ := receipt
  cases ts with
  | none => exact h
  | some ts =>
    simp only [processReceipt]
    by_cases hnew : ∀ old, acc.2.lookup userId = some old → old < ts
    · rw [cacheReadMarker_of_newer hnew]
      exact h.insert hnew
    · push Not at hnew
      obtain ⟨old, hold, hle⟩ := hnew
      rw [cacheReadMarker_of_older hold hle]
      exact h

theorem raised_foldl_processReceipt {before : ReadMarkers} {acc : ReadMarkers × ReadMarkers}
    (h : Raised before acc.1 acc.2) (receipts : List (String × Option Nat)) :
    Raised before (receipts.foldl processReceipt acc).1 (receipts.foldl processReceipt acc).2 := by
  induction receipts generalizing acc with
  | nil => exact h
  | cons r rs ih => exact ih (raised_processReceipt h r)

theorem raised_processReceipts (cached : ReadMarkers)
    (content : List (Option (List (String × Option Nat)))) :
    Raised cached (processReceipts cached content).1 (processReceipts cached content).2 := by
  have hfold : ∀ acc : ReadMarkers × ReadMarkers, Raised cached acc.1 acc.2 →
      Raised cached
        (content.foldl (fun acc rs => (rs.getD []).foldl processReceipt acc) acc).1
        (content.foldl (fun acc rs => (rs.getD []).foldl processReceipt acc) acc).2 := by
    induction content with
    | nil => exact fun acc h => h
    | cons rs content ih => exact fun acc h => ih _ (raised_foldl_processReceipt h _)
  exact hfold (∅, cached) (Raised.refl cached)

/-- What a later change raised, merged into what an earlier one raised. -/
theorem Raised.merge {before mid after a b : ReadMarkers} (ha : Raised before a mid)
    (hb : Raised mid b after) : Raised before (mergeHashMapMax a b) after where
  below := ha.below.trans hb.below
  raised := by
    intro u ts hu
    rw [lookup_mergeHashMapMax] at hu
    cases hnew : b.lookup u with
    | none =>
      rw [hnew] at hu
      obtain ⟨hmid, hold⟩ := ha.raised u ts hu
      exact ⟨(hb.kept u hnew).trans hmid, hold⟩
    | some value =>
      obtain ⟨hafter, hmid⟩ := hb.raised u value hnew
      -- a marker that `a` raised before is in `mid`, so the new one is the maximum
      have hmax : max ((a.lookup u).getD 0) value = value := by
        cases hua : a.lookup u with
        | none => exact Nat.max_eq_right (Nat.zero_le value)
        | some ts' =>
          have hlt := hmid ts' (ha.raised u ts' hua).1
          exact Nat.max_eq_right (Nat.le_of_lt hlt)
      rw [hnew] at hu
      dsimp only at hu
      rw [hmax, Option.some.injEq] at hu
      subst hu
      refine ⟨hafter, fun old hold => ?_⟩
      obtain ⟨old', hold', hle⟩ := ha.below u old hold
      have hlt := hmid old' hold'
      omega
  kept := by
    intro u hu
    rw [lookup_mergeHashMapMax] at hu
    cases hnew : b.lookup u with
    | none =>
      rw [hnew] at hu
      exact (hb.kept u hnew).trans (ha.kept u hu)
    | some value =>
      rw [hnew] at hu
      cases hu

/-- The contract of `get_read_marker`. -/
theorem raised_getReadMarker (cached : ReadMarkers) (ephemeral : List EphemeralEvent) :
    Raised cached ((getReadMarker cached ephemeral).1.getD ∅)
      (getReadMarker cached ephemeral).2 := by
  have hfold : ∀ acc : ReadMarkers × ReadMarkers, Raised cached acc.1 acc.2 →
      Raised cached (ephemeral.foldl mergeReceipts acc).1
        (ephemeral.foldl mergeReceipts acc).2 := by
    induction ephemeral with
    | nil => exact fun acc h => h
    | cons event ephemeral ih =>
      intro acc h
      refine ih _ ?_
      cases event with
      | receipt content => exact h.merge (raised_processReceipts acc.2 content)
      | malformed | typing | other => exact h
  have h := hfold (∅, cached) (Raised.refl cached)
  unfold getReadMarker
  dsimp only
  split
  · next hempty => rwa [hempty] at h
  · exact h

theorem getReadMarker_ne_empty {cached markers : ReadMarkers} {ephemeral : List EphemeralEvent}
    (h : (getReadMarker cached ephemeral).1 = some markers) : markers ≠ ∅ := by
  unfold getReadMarker at h
  dsimp only at h
  split at h
  · cases h
  · next hne =>
    rw [Option.some.injEq] at h
    exact h ▸ hne

end GoudaMatrix.MemoryCache
