/-
  `modifyFirst p f xs` applies `f` to the first element of `xs` that satisfies `p`, and is
  `none` when there is none: the list form of a mutable search. `swapRemove` removes an element
  and moves the last one to its place.
-/
import Mathlib.Data.List.Basic
import Mathlib.Data.List.Perm.Basic

namespace GoudaMatrix.Lib

variable {α : Type}

/-- Apply `f` to the first element that satisfies `p`; `none` when no element does. -/
def modifyFirst (p : α → Bool) (f : α → α) : List α → Option (List α)
  | [] => none
  | x :: xs => if p x then some (f x :: xs) else (modifyFirst p f xs).map (x :: ·)

theorem modifyFirst_isSome (p : α → Bool) (f : α → α) (xs : List α) :
    (modifyFirst p f xs).isSome = (xs.find? p).isSome := by
  induction xs with
  | nil => rfl
  | cons x xs ih =>
    rw [List.find?_cons, modifyFirst]
    cases p x with
    | true => rfl
    | false => exact Option.isSome_map.trans ih

/-- What `f` keeps of the elements that it is applied to is kept of the list. -/
theorem map_modifyFirst {β : Type} {p : α → Bool} {f : α → α} {g : α → β}
    (hf : ∀ x, p x = true → g (f x) = g x) {xs ys : List α} (h : modifyFirst p f xs = some ys) :
    ys.map g = xs.map g := by
  induction xs generalizing ys with
  | nil => cases h
  | cons x xs ih =>
    simp only [modifyFirst] at h
    split at h
    · next hp =>
      obtain rfl := Option.some.inj h
      rw [List.map_cons, List.map_cons, hf x hp]
    · obtain ⟨rest, hrest, rfl⟩ := Option.map_eq_some_iff.mp h
      rw [List.map_cons, List.map_cons, ih hrest]

/-- `Vec::swap_remove`. -/
def swapRemove (xs : List α) (i : Nat) : List α :=
  match xs.getLast? with
  | some last => (xs.set i last).dropLast
  | none => []

/-- What is left is a permutation of the rest. -/
theorem perm_swapRemove {xs : List α} {i : Nat} {x : α} (h : xs[i]? = some x) :
    (x :: swapRemove xs i).Perm xs := by
  rcases List.eq_nil_or_concat xs with rfl | ⟨init, last, hxs⟩
  · cases h
  · rw [List.concat_eq_append] at hxs
    subst hxs
    obtain ⟨hlt, hget⟩ := List.getElem?_eq_some_iff.mp h
    have hset : swapRemove (init ++ [last]) i = ((init ++ [last]).set i last).dropLast := by
      simp [swapRemove]
    rw [hset]
    by_cases hi : i < init.length
    · rw [List.set_append_left _ _ hi, List.dropLast_concat]
      rw [List.getElem_append_left hi] at hget
      -- the moved element and the removed one change places
      calc (x :: init.set i last).Perm (x :: last :: init.eraseIdx i) :=
            (List.set_perm_cons_eraseIdx hi last).cons x
        _ |>.Perm (last :: x :: init.eraseIdx i) := List.Perm.swap ..
        _ |>.Perm (last :: init) := by
            rw [← hget]
            exact (List.getElem_cons_eraseIdx_perm hi).cons last
        _ |>.Perm (init ++ [last]) := (List.perm_append_singleton last init).symm
    · have hlast : i = init.length := by
        simp only [List.length_append, List.length_singleton] at hlt
        omega
      subst hlast
      rw [List.getElem_concat_length (by rfl)] at hget
      subst hget
      rw [List.set_append_right _ _ (Nat.le_refl _), Nat.sub_self, List.set_cons_zero,
        List.dropLast_concat]
      exact (List.perm_append_singleton last init).symm

end GoudaMatrix.Lib
