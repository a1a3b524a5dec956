/-
  Sequences of `set_read_marker`, `cache_read_markers` and `process_receipts` calls on one room.

  A call folds `insertMax` over the timestamps it supplies, so a cached marker is the maximum of
  all that were supplied (`lookup_runCalls`). What `get_read_marker` reports is determined by the
  cached markers before and after the update (`lookup_getReadMarker`), so that the order of the
  receipts in the update does not matter (`getReadMarker_perm`). `markerCalls_report_maxima` puts
  the parts together.
-/
import GoudaMatrix.MemoryCache.ReadMarkers

namespace GoudaMatrix.MemoryCache

/-! ## Calls -/

/-- The calls that change the read markers of a room. -/
inductive MarkerCall where
  | setReadMarker (userId : String) (timestamp : Nat)
  | cacheReadMarkers (new : ReadMarkers)
  | processReceipts (content : List (Option (List (String × Option Nat))))

/-- The read receipts with a timestamp of a receipt event. -/
def datedReceipts (content : List (Option (List (String × Option Nat)))) : List (String × Nat) :=
  content.flatMap fun receipts =>
    (receipts.getD []).filterMap fun receipt => receipt.2.map fun ts => (receipt.1, ts)

/-- The timestamps of a user among dated receipts. -/
def timestampsOf (userId : String) (receipts : List (String × Nat)) : List Nat :=
  receipts.filterMap fun receipt => if receipt.1 = userId then some receipt.2 else none

namespace MarkerCall

/-- The cached markers after the call. -/
def run (cached : ReadMarkers) : MarkerCall → ReadMarkers
  | setReadMarker userId timestamp => (cacheReadMarker cached userId timestamp).2
  | cacheReadMarkers new => MemoryCache.cacheReadMarkers cached new
  | processReceipts content => (MemoryCache.processReceipts cached content).2

/-- The timestamps that the call supplies for a user. -/
def timestamps (u : String) : MarkerCall → List Nat
  | setReadMarker userId timestamp => timestampsOf u [(userId, timestamp)]
  | cacheReadMarkers new => (new.lookup u).toList
  | processReceipts content => timestampsOf u (datedReceipts content)

end MarkerCall

/-- The cached markers of a room after the calls, from an empty cache on. -/
def runCalls (calls : List MarkerCall) : ReadMarkers := calls.foldl MarkerCall.run ∅

def suppliedTimestamps (u : String) (calls : List MarkerCall) : List Nat :=
  calls.flatMap (MarkerCall.timestamps u)

/-- The calls that `get_read_marker` makes for an update. -/
def receiptCalls (ephemeral : List EphemeralEvent) : List MarkerCall :=
  ephemeral.filterMap fun event =>
    match event with
    | .receipt content => some (.processReceipts content)
    | _ => none

/-- The dated receipts of an update. -/
def updateReceipts (ephemeral : List EphemeralEvent) : List (String × Nat) :=
  ephemeral.flatMap fun event =>
    match event with
    | .receipt content => datedReceipts content
    | _ => []

/-- The marker of `u` is newer in `after` than in `before`, with the value `ts`. -/
def RaisedTo (before after : ReadMarkers) (u : String) (ts : Nat) : Prop :=
  after.lookup u = some ts ∧ ∀ old, before.lookup u = some old → old < ts

/-! ## The maximum of the supplied timestamps -/

/-- What `insertMax` does to the marker of the user it is called for. -/
def raise (marker : Option Nat) (ts : Nat) : Option Nat := some (max (marker.getD 0) ts)

theorem foldl_raise_some (timestamps : List Nat) (ts : Nat) :
    timestamps.foldl raise (some ts) = some (timestamps.foldl max ts) := by
  induction timestamps generalizing ts with
  | nil => rfl
  | cons x xs ih => exact ih (max ts x)

theorem foldl_raise_none (timestamps : List Nat) :
    timestamps.foldl raise none = timestamps.max? := by
  cases timestamps with
  | nil => rfl
  | cons x xs =>
    rw [List.foldl_cons, List.max?_cons']
    have hfirst : raise none x = some x := by simp [raise]
    rw [hfirst, foldl_raise_some]

theorem lookup_insertMax_eq_raise (markers : ReadMarkers) (receipt : String × Nat) (u : String) :
    (insertMax markers receipt.1 receipt.2).lookup u
      = (timestampsOf u [receipt]).foldl raise (markers.lookup u) := by
  rw [lookup_insertMax]
  by_cases hu : u = receipt.1
  · subst hu
    simp [timestampsOf, raise]
  · simp [timestampsOf, hu, Ne.symm hu]

theorem timestampsOf_cons (u : String) (receipt : String × Nat) (receipts : List (String × Nat)) :
    timestampsOf u (receipt :: receipts) = timestampsOf u [receipt] ++ timestampsOf u receipts :=
  List.filterMap_append (l := [receipt])

/-- The cached markers after dated receipts. -/
def raiseAll (markers : ReadMarkers) (receipts : List (String × Nat)) : ReadMarkers :=
  receipts.foldl (fun markers receipt => insertMax markers receipt.1 receipt.2) markers

theorem lookup_raiseAll (markers : ReadMarkers) (receipts : List (String × Nat)) (u : String) :
    (raiseAll markers receipts).lookup u
      = (timestampsOf u receipts).foldl raise (markers.lookup u) := by
  induction receipts generalizing markers with
  | nil => rfl
  | cons receipt receipts ih =>
    rw [timestampsOf_cons, List.foldl_append, ← lookup_insertMax_eq_raise]
    exact ih (insertMax markers receipt.1 receipt.2)

/-- The receipts in another order leave the same markers. -/
theorem raiseAll_perm (markers : ReadMarkers) {xs ys : List (String × Nat)} (h : xs.Perm ys) :
    raiseAll markers xs = raiseAll markers ys :=
  h.foldl_eq' (fun x _ y _ m => insertMax_comm m x.1 x.2 y.1 y.2) markers

/-! ## Calls are folds over what they supply -/

theorem processReceipt_snd (acc : ReadMarkers × ReadMarkers) (receipt : String × Option Nat) :
    (processReceipt acc receipt).2
      = raiseAll acc.2 ((receipt.2.map fun ts => (receipt.1, ts)).toList) := by
  obtain ⟨userId, ts⟩ := receipt
  cases ts with
  | none => rfl
  | some ts => exact cacheReadMarker_snd acc.2 userId ts

theorem foldl_processReceipt_snd (receipts : List (String × Option Nat))
    (acc : ReadMarkers × ReadMarkers) :
    (receipts.foldl processReceipt acc).2
      = raiseAll acc.2 (receipts.filterMap fun r => r.2.map fun ts => (r.1, ts)) := by
  induction receipts generalizing acc with
  | nil => rfl
  | cons receipt receipts ih =>
    rw [List.foldl_cons, ih, processReceipt_snd]
    cases h : receipt.2 with
    | none => simp [h, raiseAll]
    | some ts => simp [h, raiseAll]

theorem processReceipts_snd (cached : ReadMarkers)
    (content : List (Option (List (String × Option Nat)))) :
    (processReceipts cached content).2 = raiseAll cached (datedReceipts content) := by
  have hfold : ∀ acc : ReadMarkers × ReadMarkers,
      (content.foldl (fun acc rs => (rs.getD []).foldl processReceipt acc) acc).2
        = raiseAll acc.2 (datedReceipts content) := by
    induction content with
    | nil => exact fun _ => rfl
    | cons receipts content ih =>
      intro acc
      rw [List.foldl_cons, ih, foldl_processReceipt_snd, datedReceipts, datedReceipts,
        List.flatMap_cons]
      exact (List.foldl_append).symm
  exact hfold (∅, cached)

theorem getReadMarker_snd (cached : ReadMarkers) (ephemeral : List EphemeralEvent) :
    (getReadMarker cached ephemeral).2 = raiseAll cached (updateReceipts ephemeral) := by
  have hfold : ∀ acc : ReadMarkers × ReadMarkers,
      (ephemeral.foldl mergeReceipts acc).2 = raiseAll acc.2 (updateReceipts ephemeral) := by
    induction ephemeral with
    | nil => exact fun _ => rfl
    | cons event ephemeral ih =>
      intro acc
      rw [List.foldl_cons, ih]
      cases event with
      | receipt content =>
        have hcontent := processReceipts_snd acc.2 content
        rw [show (mergeReceipts acc (.receipt content)).2 = (processReceipts acc.2 content).2
          from rfl, hcontent]
        exact (List.foldl_append).symm
      | malformed | typing | other => rfl
  exact hfold (∅, cached)

/-- `get_read_marker` changes the cache by its `process_receipts` calls. -/
theorem getReadMarker_snd_eq_calls (cached : ReadMarkers) (ephemeral : List EphemeralEvent) :
    (getReadMarker cached ephemeral).2 = (receiptCalls ephemeral).foldl MarkerCall.run cached := by
  rw [getReadMarker_snd]
  induction ephemeral generalizing cached with
  | nil => rfl
  | cons event ephemeral ih =>
    cases event with
    | receipt content =>
      have hcontent := processReceipts_snd cached content
      refine (List.foldl_append).trans ?_
      exact (congrArg (fun m => raiseAll m (updateReceipts ephemeral)) hcontent.symm).trans (ih _)
    | malformed | typing | other => exact ih cached

theorem cacheReadMarkers_eq_merge (markers new : ReadMarkers) :
    cacheReadMarkers markers new = mergeHashMapMax markers new := by
  simp only [cacheReadMarkers, cacheReadMarker_snd, mergeHashMapMax]

theorem lookup_run (cached : ReadMarkers) (call : MarkerCall) (u : String) :
    (call.run cached).lookup u = (call.timestamps u).foldl raise (cached.lookup u) := by
  cases call with
  | setReadMarker userId ts =>
    exact (congrArg (Finmap.lookup u) (cacheReadMarker_snd cached userId ts)).trans
      (lookup_insertMax_eq_raise cached (userId, ts) u)
  | cacheReadMarkers new =>
    rw [MarkerCall.run, cacheReadMarkers_eq_merge, lookup_mergeHashMapMax, MarkerCall.timestamps]
    cases new.lookup u with
    | none => rfl
    | some ts => rfl
  | processReceipts content =>
    exact (congrArg (Finmap.lookup u) (processReceipts_snd cached content)).trans
      (lookup_raiseAll cached (datedReceipts content) u)

/-- Each cached marker is the maximum of the timestamps supplied so far. -/
theorem lookup_runCalls (calls : List MarkerCall) (u : String) :
    (runCalls calls).lookup u = (suppliedTimestamps u calls).max? := by
  have hfold : ∀ cached : ReadMarkers, (calls.foldl MarkerCall.run cached).lookup u
      = (suppliedTimestamps u calls).foldl raise (cached.lookup u) := by
    induction calls with
    | nil => exact fun _ => rfl
    | cons call calls ih =>
      intro cached
      rw [List.foldl_cons, ih, lookup_run]
      exact (List.foldl_append).symm
  rw [runCalls, hfold, Finmap.lookup_empty, foldl_raise_none]

/-! ## What is reported -/

/-- `set_read_marker` returns whether it has raised the marker. -/
theorem cacheReadMarker_fst (cached : ReadMarkers) (userId : String) (ts : Nat) :
    (cacheReadMarker cached userId ts).1 = true
      ↔ RaisedTo cached (cacheReadMarker cached userId ts).2 userId ts := by
  by_cases hnew : ∀ old, cached.lookup userId = some old → old < ts
  · rw [cacheReadMarker_of_newer hnew]
    exact ⟨fun _ => ⟨Finmap.lookup_insert _, hnew⟩, fun _ => rfl⟩
  · push Not at hnew
    obtain ⟨old, hold, hle⟩ := hnew
    rw [cacheReadMarker_of_older hold hle]
    refine ⟨fun h => ?_, fun h => ?_⟩
    · cases h
    · have hlt := h.2 old hold
      omega

theorem Raised.lookup_iff {before result cached : ReadMarkers} (h : Raised before result cached)
    (u : String) (ts : Nat) : result.lookup u = some ts ↔ RaisedTo before cached u ts := by
  refine ⟨h.raised u ts, fun hraised => ?_⟩
  cases hresult : result.lookup u with
  | none =>
    have hlt := hraised.2 ts ((h.kept u hresult).symm.trans hraised.1)
    omega
  | some ts' =>
    exact (h.raised u ts' hresult).1.symm.trans hraised.1

theorem getD_lookup_getReadMarker (cached : ReadMarkers) (ephemeral : List EphemeralEvent)
    (u : String) : ((getReadMarker cached ephemeral).1.getD ∅).lookup u
      = (getReadMarker cached ephemeral).1.bind fun markers => markers.lookup u := by
  cases (getReadMarker cached ephemeral).1 with
  | none => exact Finmap.lookup_empty u
  | some markers => rfl

/-- `get_read_marker` reports exactly the markers that the update has raised. -/
theorem lookup_getReadMarker (cached : ReadMarkers) (ephemeral : List EphemeralEvent) (u : String)
    (ts : Nat) : ((getReadMarker cached ephemeral).1.bind fun markers => markers.lookup u) = some ts
      ↔ RaisedTo cached (getReadMarker cached ephemeral).2 u ts := by
  rw [← getD_lookup_getReadMarker]
  exact (raised_getReadMarker cached ephemeral).lookup_iff u ts

/-- It reports `None` when the update has raised no marker. -/
theorem getReadMarker_eq_none_iff (cached : ReadMarkers) (ephemeral : List EphemeralEvent) :
    (getReadMarker cached ephemeral).1 = none
      ↔ ∀ u ts, ¬ RaisedTo cached (getReadMarker cached ephemeral).2 u ts := by
  constructor
  · intro hnone u ts hraised
    have hsome := (lookup_getReadMarker cached ephemeral u ts).mpr hraised
    rw [hnone] at hsome
    cases hsome
  · intro hraised
    cases hmarkers : (getReadMarker cached ephemeral).1 with
    | none => rfl
    | some markers =>
      refine absurd (Finmap.ext_lookup fun u => ?_) (getReadMarker_ne_empty hmarkers)
      cases hu : markers.lookup u with
      | none => rw [Finmap.lookup_empty]
      | some ts =>
        refine absurd ((lookup_getReadMarker cached ephemeral u ts).mp ?_) (hraised u ts)
        rw [hmarkers]
        exact hu

/-- The map depends on the markers before the update and on those after it. -/
theorem getReadMarker_fst_eq {cached : ReadMarkers} {e₁ e₂ : List EphemeralEvent}
    (h : (getReadMarker cached e₁).2 = (getReadMarker cached e₂).2) :
    (getReadMarker cached e₁).1 = (getReadMarker cached e₂).1 := by
  cases h₁ : (getReadMarker cached e₁).1 with
  | none =>
    rw [getReadMarker_eq_none_iff, h, ← getReadMarker_eq_none_iff] at h₁
    exact h₁.symm
  | some m₁ =>
    cases h₂ : (getReadMarker cached e₂).1 with
    | none =>
      rw [getReadMarker_eq_none_iff, ← h, ← getReadMarker_eq_none_iff, h₁] at h₂
      cases h₂
    | some m₂ =>
      refine congrArg some (Finmap.ext_lookup fun u => Option.ext fun ts => ?_)
      have hm₁ := lookup_getReadMarker cached e₁ u ts
      have hm₂ := lookup_getReadMarker cached e₂ u ts
      rw [h₁, h] at hm₁
      rw [h₂] at hm₂
      exact hm₁.trans hm₂.symm

theorem getReadMarker_perm (cached : ReadMarkers) {e₁ e₂ : List EphemeralEvent}
    (h : (updateReceipts e₁).Perm (updateReceipts e₂)) :
    getReadMarker cached e₁ = getReadMarker cached e₂ := by
  have hcached : (getReadMarker cached e₁).2 = (getReadMarker cached e₂).2 := by
    rw [getReadMarker_snd, getReadMarker_snd, raiseAll_perm cached h]
  exact Prod.ext (getReadMarker_fst_eq hcached) hcached

/-- After any calls, cached markers are maxima, `set_read_marker` reports whether it raised its
    marker, and an update reports exactly the markers it raised, whatever the order of its
    receipts. -/
theorem markerCalls_report_maxima (calls : List MarkerCall) :
    (∀ u, (runCalls calls).lookup u = (suppliedTimestamps u calls).max?)
    ∧ (∀ userId ts, (cacheReadMarker (runCalls calls) userId ts).1 = true
        ↔ RaisedTo (runCalls calls) (runCalls (calls ++ [.setReadMarker userId ts])) userId ts)
    ∧ ∀ ephemeral,
        (getReadMarker (runCalls calls) ephemeral).2 = runCalls (calls ++ receiptCalls ephemeral)
        ∧ (∀ u ts, ((getReadMarker (runCalls calls) ephemeral).1.bind fun m => m.lookup u) = some ts
            ↔ RaisedTo (runCalls calls) (runCalls (calls ++ receiptCalls ephemeral)) u ts)
        ∧ ((getReadMarker (runCalls calls) ephemeral).1 = none
            ↔ ∀ u ts, ¬ RaisedTo (runCalls calls) (runCalls (calls ++ receiptCalls ephemeral)) u ts)
        ∧ ∀ ephemeral', (updateReceipts ephemeral).Perm (updateReceipts ephemeral') →
            getReadMarker (runCalls calls) ephemeral'
              = getReadMarker (runCalls calls) ephemeral := by
  refine ⟨lookup_runCalls calls, fun userId ts => ?_, fun ephemeral => ?_⟩
  · rw [cacheReadMarker_fst, runCalls, runCalls, List.foldl_append]
    rfl
  · have hcalls : runCalls (calls ++ receiptCalls ephemeral)
        = (getReadMarker (runCalls calls) ephemeral).2 := by
      rw [getReadMarker_snd_eq_calls, runCalls, List.foldl_append]
      rfl
    rw [hcalls]
    exact ⟨rfl, lookup_getReadMarker _ ephemeral, getReadMarker_eq_none_iff _ ephemeral,
      fun ephemeral' h => getReadMarker_perm _ h.symm⟩

theorem markerCalls_report_maxima_of_two_events :
    getReadMarker (runCalls [.setReadMarker "@a:x" 5])
        [.receipt [some [("@a:x", some 4), ("@b:x", some 9)]], .receipt [some [("@a:x", some 7)]]]
      = getReadMarker (runCalls [.setReadMarker "@a:x" 5])
        [.receipt [some [("@a:x", some 7)]],
          .receipt [some [("@b:x", some 9), ("@a:x", some 4)]]] :=
  ((markerCalls_report_maxima [.setReadMarker "@a:x" 5]).2.2
    [.receipt [some [("@a:x", some 7)]],
      .receipt [some [("@b:x", some 9), ("@a:x", some 4)]]]).2.2.2
    _ (by decide)

end GoudaMatrix.MemoryCache
