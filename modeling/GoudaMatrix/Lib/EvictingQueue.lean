/-
  Queues of bounded length. When a queue is full, a new element takes the place of the oldest one.

  After any number of pushes the queue has the last `capacity` elements (`rtake_concat`), where
  `rtake` takes from the end of a list.
-/
import Mathlib.Data.List.DropRight

namespace GoudaMatrix.Lib

variable {α β : Type}

/-- Push at the back; a full queue loses its front. -/
def pushEvicting (capacity : Nat) (queue : List α) (x : α) : List α :=
  (if queue.length ≥ capacity then queue.tail else queue) ++ [x]

theorem length_rtake (xs : List α) (n : Nat) : (xs.rtake n).length = min n xs.length := by
  rw [List.rtake, List.length_drop]
  omega

/-- At most as many elements are taken as there are. -/
theorem rtake_min_length (xs : List α) (n : Nat) : xs.rtake (min n xs.length) = xs.rtake n := by
  rw [List.rtake, List.rtake]
  congr 1
  omega

theorem rtake_concat {capacity : Nat} (h : 0 < capacity) (xs : List α) (x : α) :
    (xs ++ [x]).rtake capacity = pushEvicting capacity (xs.rtake capacity) x := by
  obtain ⟨n, rfl⟩ := Nat.exists_eq_add_one.mpr h
  rw [List.rtake_concat_succ, pushEvicting, length_rtake]
  congr 1
  split
  · next hfull =>
    have hnext : xs.length - n = xs.length - (n + 1) + 1 := by omega
    rw [List.rtake, List.rtake, List.tail_drop, hnext]
  · next hroom =>
    have hnone : xs.length - n = 0 ∧ xs.length - (n + 1) = 0 := by omega
    rw [List.rtake, List.rtake, hnone.1, hnone.2]

theorem getLast?_rtake {n : Nat} (h : 0 < n) (xs : List α) :
    (xs.rtake n).getLast? = xs.getLast? := by
  rw [List.rtake, List.getLast?_drop]
  split
  · next hlen =>
    have hnil : xs = [] := List.length_eq_zero_iff.mp (by omega)
    rw [hnil]
    rfl
  · rfl

theorem map_pushEvicting (f : α → β) (capacity : Nat) (queue : List α) (x : α) :
    (pushEvicting capacity queue x).map f = pushEvicting capacity (queue.map f) (f x) := by
  rw [pushEvicting, pushEvicting, List.map_append, List.length_map, ← List.map_tail,
    ← apply_ite (List.map f)]
  rfl

end GoudaMatrix.Lib
