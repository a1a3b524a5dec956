/-
  A bounded channel, as `tokio::sync::mpsc` has it: a sender waits until the buffer has a slot for
  its value, and the senders get their slots in the order in which they have asked for them.

  `contents` is what has been offered and not been received. The operations keep it in order
  (`contents_offer`, `contents_enqueue`, `contents_receive`), the buffer keeps its bound, and a
  channel that holds something can move (`moves_of_contents`).
-/
import Mathlib.Data.List.Basic

namespace GoudaMatrix.Lib

structure Channel (α : Type) where
  /-- The values of the senders that wait, in their order. -/
  waiting : List α
  buffer : List α
deriving DecidableEq

namespace Channel

variable {α : Type}

def empty : Channel α := ⟨[], []⟩

/-- A sender asks for a slot. -/
def offer (c : Channel α) (a : α) : Channel α := { c with waiting := c.waiting ++ [a] }

/-- The first sender that waits gets a slot. -/
def enqueue (capacity : Nat) (c : Channel α) : Option (Channel α) :=
  match c.waiting with
  | a :: waiting => if c.buffer.length < capacity then some ⟨waiting, c.buffer ++ [a]⟩ else none
  | [] => none

def receive (c : Channel α) : Option (α × Channel α) :=
  match c.buffer with
  | a :: buffer => some (a, ⟨c.waiting, buffer⟩)
  | [] => none

/-- What has been offered and not been received. -/
def contents (c : Channel α) : List α := c.buffer ++ c.waiting

variable {c c' : Channel α} {capacity : Nat}

@[simp] theorem contents_offer (c : Channel α) (a : α) : (c.offer a).contents = c.contents ++ [a] :=
  (List.append_assoc ..).symm

theorem enqueue_cases (h : c.enqueue capacity = some c') :
    ∃ a waiting, c.waiting = a :: waiting ∧ c.buffer.length < capacity ∧
      c' = ⟨waiting, c.buffer ++ [a]⟩ := by
  unfold enqueue at h
  split at h
  · next a waiting hwaiting =>
    rw [Option.ite_none_right_eq_some, Option.some.injEq] at h
    exact ⟨a, waiting, hwaiting, h.1, h.2.symm⟩
  · cases h

theorem contents_enqueue (h : c.enqueue capacity = some c') : c'.contents = c.contents := by
  obtain ⟨a, waiting, hwaiting, -, rfl⟩ := enqueue_cases h
  rw [contents, contents, hwaiting, List.append_assoc]
  rfl

theorem receive_cases {a : α} (h : c.receive = some (a, c')) :
    c.buffer = a :: c'.buffer ∧ c'.waiting = c.waiting := by
  unfold receive at h
  split at h
  · next hbuffer =>
    cases h
    exact ⟨hbuffer, rfl⟩
  · cases h

theorem contents_receive {a : α} (h : c.receive = some (a, c')) :
    c.contents = a :: c'.contents := by
  obtain ⟨hbuffer, hwaiting⟩ := receive_cases h
  rw [contents, contents, hbuffer, hwaiting]
  rfl

theorem buffer_enqueue (h : c.enqueue capacity = some c') : c'.buffer.length ≤ capacity := by
  obtain ⟨a, waiting, -, hlt, rfl⟩ := enqueue_cases h
  rw [List.length_append, List.length_singleton]
  omega

theorem buffer_length_enqueue (h : c.enqueue capacity = some c') :
    c'.buffer.length = c.buffer.length + 1 := by
  obtain ⟨a, waiting, -, -, rfl⟩ := enqueue_cases h
  rw [List.length_append, List.length_singleton]

theorem buffer_receive {a : α} (h : c.receive = some (a, c')) :
    c.buffer.length = c'.buffer.length + 1 := by
  rw [(receive_cases h).1, List.length_cons]

theorem waiting_enqueue (h : c.enqueue capacity = some c') :
    c.waiting.length = c'.waiting.length + 1 := by
  obtain ⟨a, waiting, hwaiting, -, rfl⟩ := enqueue_cases h
  rw [hwaiting, List.length_cons]

/-- A channel that holds something can give it out or let a sender in. -/
theorem moves_of_contents (hcapacity : 0 < capacity) (h : c.contents ≠ []) :
    (∃ a c', c.receive = some (a, c')) ∨ ∃ c', c.enqueue capacity = some c' := by
  obtain ⟨waiting, buffer⟩ := c
  cases buffer with
  | cons a buffer => exact .inl ⟨a, _, rfl⟩
  | nil =>
    cases waiting with
    | nil => exact absurd rfl h
    | cons a waiting => exact .inr ⟨_, if_pos hcapacity⟩

end Channel

end GoudaMatrix.Lib
