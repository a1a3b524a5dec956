/-
  A view that is kept up by polling. A poll compares what it sees with the base, which the last one
  has seen, and the viewer is told of a difference only. The viewer may be told at any other time
  as well, by somebody who does not touch the base.

  `Follows` is what a poll of the source needs to leave the viewer right: a source that has come
  back to the base is not told again. Polls keep it, whatever they see (`follows_poll`);
  `follows_change`, `follows_tell` and `follows_first` are the exact conditions for the rest.
-/
import Mathlib.Data.Option.Basic

namespace GoudaMatrix.Lib

structure Polled (V : Type) where
  source : V
  /-- What has been seen last, if anything has. -/
  base : Option V
  view : Option V

namespace Polled

variable {V : Type}

/-- The viewer, if told of anything, has the source. -/
def Shows (p : Polled V) : Prop := ∀ w, p.view = some w → w = p.source

def Follows (p : Polled V) : Prop := p.base = some p.source → p.Shows

def change (p : Polled V) (v : V) : Polled V := { p with source := v }

def tell (p : Polled V) (v : V) : Polled V := { p with view := some v }

/-- The viewer is told of a difference to the base, so that the first poll tells nothing. -/
def poll [DecidableEq V] (p : Polled V) (v : V) : Polled V :=
  { p with
    base := some v
    view := if p.base.all (· = v) then p.view else some v }

theorem follows_change (p : Polled V) (v : V) :
    (p.base = some v → ∀ w, p.view = some w → w = v) ↔ (p.change v).Follows := Iff.rfl

theorem follows_tell (p : Polled V) (v : V) :
    (p.base = some p.source → v = p.source) ↔ (p.tell v).Follows := by
  refine forall_congr' fun _ => ⟨fun hv w hw => ?_, fun hshows => hshows v rfl⟩
  obtain rfl := Option.some.inj hw
  exact hv

section Poll

variable [DecidableEq V] {p : Polled V}

theorem follows_first (h : p.base = none) (v : V) :
    (v = p.source → p.Shows) ↔ (p.poll v).Follows := by
  have hview : (p.poll v).view = p.view := by
    unfold poll
    rw [h]
    rfl
  unfold Follows Shows
  rw [hview]
  exact ⟨fun hv heq => hv (Option.some.inj heq), fun hfollows heq => hfollows (congrArg some heq)⟩

theorem view_poll_of_base {v : V} (h : p.base = some v) : (p.poll v).view = p.view := by
  unfold poll
  rw [h, Option.all_some, decide_eq_true rfl, if_pos rfl]

theorem view_poll_of_ne {b v : V} (h : p.base = some b) (hne : b ≠ v) :
    (p.poll v).view = some v := by
  unfold poll
  rw [h, Option.all_some, decide_eq_false hne, if_neg Bool.false_ne_true]

theorem follows_poll (h : p.Follows) {b : V} (hbase : p.base = some b) (v : V) :
    (p.poll v).Follows := by
  intro heq
  obtain rfl : v = p.source := Option.some.inj heq
  intro w hw
  by_cases hb : b = p.source
  · subst hb
    rw [view_poll_of_base hbase] at hw
    exact h hbase w hw
  · rw [view_poll_of_ne hbase hb] at hw
    exact (Option.some.inj hw).symm

end Poll

end Polled

end GoudaMatrix.Lib
