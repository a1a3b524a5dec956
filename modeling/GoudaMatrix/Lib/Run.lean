/-
  Runs of a system with labelled partial steps. `step s a = none` says that the action `a`
  cannot happen in `s`.

  `run` executes a list of actions. `Meets ok s as` says that every action of the run meets
  `ok` in the state in which it is taken; it constrains the actions, not the states reached.
  `inv_of_run` is the invariant rule for runs whose steps meet a condition; with
  `ok := fun _ _ => True` it is the usual one (`inv_of_any_run`). `run_simulates` is the rule for a
  simulation by a total abstract machine. `run_of_project` is the rule
  for history variables: a system that carries extra state and projects step by step has, up
  to the projection, the runs of the plain one. `meets_iff_of_step` is the rule for an exact
  condition: if every step keeps a property exactly when it meets the condition, every run does.
-/
import Mathlib.Data.List.Basic
import Mathlib.Data.Option.Basic

namespace GoudaMatrix.Lib

/-- A transition system with labelled partial steps. -/
structure System (σ α : Type) where
  step : σ → α → Option σ

namespace System

variable {σ α : Type} (S : System σ α)

/-- The state after the actions, or `none` when one of them cannot happen. -/
def run : σ → List α → Option σ
  | s, [] => some s
  | s, a :: as => (S.step s a).bind fun t => run t as

/-- Every action of the run meets `ok` in the state in which it is taken. -/
def Meets (ok : σ → α → Prop) : σ → List α → Prop
  | _, [] => True
  | s, a :: as => ok s a ∧ ∀ t, S.step s a = some t → Meets ok t as

@[simp] theorem run_nil (s : σ) : S.run s [] = some s := rfl

theorem run_cons (s : σ) (a : α) (as : List α) :
    S.run s (a :: as) = (S.step s a).bind fun t => S.run t as := rfl

theorem run_cons_eq_some {s u : σ} {a : α} {as : List α} :
    S.run s (a :: as) = some u ↔ ∃ t, S.step s a = some t ∧ S.run t as = some u := by
  rw [run_cons, Option.bind_eq_some_iff]

theorem run_append (s : σ) (as bs : List α) :
    S.run s (as ++ bs) = (S.run s as).bind fun t => S.run t bs := by
  induction as generalizing s with
  | nil => rfl
  | cons a as ih =>
    rw [List.cons_append, run_cons, run_cons]
    cases S.step s a with
    | none => rfl
    | some t => exact ih t

theorem meets_true (s : σ) (as : List α) : S.Meets (fun _ _ => True) s as := by
  induction as generalizing s with
  | nil => trivial
  | cons a as ih => exact ⟨trivial, fun t _ => ih t⟩

theorem meets_of_forall {P : α → Prop} {as : List α} (h : ∀ a ∈ as, P a) (s : σ) :
    S.Meets (fun _ a => P a) s as := by
  induction as generalizing s with
  | nil => trivial
  | cons a as ih =>
    exact ⟨h a List.mem_cons_self, fun t _ => ih (fun b hb => h b (List.mem_cons_of_mem _ hb)) t⟩

theorem meets_cons_of_step {ok : σ → α → Prop} {s t : σ} {a : α} {as : List α}
    (h : S.step s a = some t) : S.Meets ok s (a :: as) ↔ ok s a ∧ S.Meets ok t as := by
  constructor
  · exact fun hm => ⟨hm.1, hm.2 t h⟩
  · rintro ⟨ha, hm⟩
    exact ⟨ha, fun u hu => by rw [h, Option.some.injEq] at hu; exact hu ▸ hm⟩

theorem meets_cons_of_stuck {ok : σ → α → Prop} {s : σ} {a : α} {as : List α}
    (h : S.step s a = none) : S.Meets ok s (a :: as) ↔ ok s a :=
  ⟨fun hm => hm.1, fun ha => ⟨ha, fun u hu => by rw [h] at hu; cases hu⟩⟩

theorem meets_append {ok : σ → α → Prop} {s t : σ} {as bs : List α} (h : S.Meets ok s as)
    (hrun : S.run s as = some t) (ht : S.Meets ok t bs) : S.Meets ok s (as ++ bs) := by
  induction as generalizing s with
  | nil =>
    rw [run_nil, Option.some.injEq] at hrun
    exact hrun ▸ ht
  | cons a as ih =>
    refine ⟨h.1, fun u hu => ?_⟩
    rw [run_cons, hu] at hrun
    exact ih (h.2 u hu) hrun

theorem meets_take {ok : σ → α → Prop} {s : σ} {as : List α} (h : S.Meets ok s as) (n : Nat) :
    S.Meets ok s (as.take n) := by
  induction as generalizing s n with
  | nil =>
    rw [List.take_nil]
    exact h
  | cons a as ih =>
    cases n with
    | zero => trivial
    | succ n => exact ⟨h.1, fun t ht => ih (h.2 t ht) n⟩

instance decidableMeets (ok : σ → α → Prop) [∀ s a, Decidable (ok s a)] (as : List α) :
    ∀ s, Decidable (S.Meets ok s as) :=
  match as with
  | [] => fun _ => isTrue trivial
  | a :: as => fun s =>
    match h : S.step s a with
    | none => decidable_of_iff _ (S.meets_cons_of_stuck h).symm
    | some t =>
      have := decidableMeets ok as t
      decidable_of_iff _ (S.meets_cons_of_step h).symm

/-- The invariant rule for runs whose steps meet `ok`. -/
theorem inv_of_run {ok : σ → α → Prop} {inv : σ → Prop}
    (hstep : ∀ s a t, inv s → ok s a → S.step s a = some t → inv t)
    {s t : σ} {as : List α} (hs : inv s) (hok : S.Meets ok s as) (hrun : S.run s as = some t) :
    inv t := by
  induction as generalizing s with
  | nil =>
    rw [run_nil, Option.some.injEq] at hrun
    exact hrun ▸ hs
  | cons a as ih =>
    obtain ⟨u, hu, hrun'⟩ := (S.run_cons_eq_some).mp hrun
    exact ih (hstep s a u hs hok.1 hu) (hok.2 u hu) hrun'

/-- The invariant rule for all runs. -/
theorem inv_of_any_run {inv : σ → Prop} (hstep : ∀ s a t, inv s → S.step s a = some t → inv t)
    {s t : σ} {as : List α} (hs : inv s) (hrun : S.run s as = some t) : inv t :=
  S.inv_of_run (fun s a t h _ => hstep s a t h) hs (S.meets_true s as) hrun

/-- The rule for a simulation: if every step that meets `ok` can be taken and does what `apply` does
    to the abstract state, so does every run. -/
theorem run_simulates {τ : Type} {ok : σ → α → Prop} {apply : τ → α → τ} {R : σ → τ → Prop}
    (hstep : ∀ s t a, R s t → ok s a → ∃ s', S.step s a = some s' ∧ R s' (apply t a))
    {s : σ} {t : τ} {as : List α} (h : R s t) (hok : S.Meets ok s as) :
    ∃ s', S.run s as = some s' ∧ R s' (as.foldl apply t) := by
  induction as generalizing s t with
  | nil => exact ⟨s, rfl, h⟩
  | cons a as ih =>
    obtain ⟨u, hu, hR⟩ := hstep s t a h hok.1
    obtain ⟨s', hrun, hR'⟩ := ih hR (hok.2 u hu)
    exact ⟨s', (S.run_cons_eq_some).mpr ⟨u, hu, hrun⟩, hR'⟩

/-- A condition that says for every step whether it keeps `P` says for every run whether all its
    states have `P`. -/
theorem meets_iff_of_step {ok : σ → α → Prop} {inv P : σ → Prop}
    (hinv : ∀ s a t, inv s → S.step s a = some t → inv t)
    (hstep : ∀ s a t, inv s → P s → S.step s a = some t → (ok s a ↔ P t))
    {s t : σ} {as : List α} (hs : inv s) (hP : P s) (hrun : S.run s as = some t) :
    S.Meets ok s as ↔ ∀ n u, S.run s (as.take n) = some u → P u := by
  induction as generalizing s with
  | nil =>
    refine ⟨fun _ n u hu => ?_, fun _ => trivial⟩
    rw [List.take_nil, run_nil, Option.some.injEq] at hu
    exact hu ▸ hP
  | cons a as ih =>
    obtain ⟨v, hv, hrun'⟩ := (S.run_cons_eq_some).mp hrun
    have hiff := hstep s a v hs hP hv
    rw [S.meets_cons_of_step hv]
    constructor
    · rintro ⟨ha, hm⟩ n u hu
      cases n with
      | zero =>
        rw [List.take_zero, run_nil, Option.some.injEq] at hu
        exact hu ▸ hP
      | succ n =>
        rw [List.take_succ_cons, run_cons, hv, Option.bind_some] at hu
        exact (ih (hinv s a v hs hv) (hiff.mp ha) hrun').mp hm n u hu
    · intro hall
      have hPv : P v := by
        refine hall 1 v ?_
        rw [List.take_succ_cons, run_cons, hv]
        rfl
      refine ⟨hiff.mpr hPv, (ih (hinv s a v hs hv) hPv hrun').mpr fun n u hu => ?_⟩
      refine hall (n + 1) u ?_
      rw [List.take_succ_cons, run_cons, hv]
      exact hu

/-- History variables: if every step of `S` projects to a step of `T`, so does every run. -/
theorem run_of_project {τ : Type} (T : System τ α) (f : σ → τ)
    (hstep : ∀ s a, (S.step s a).map f = T.step (f s) a) (s : σ) (as : List α) :
    (S.run s as).map f = T.run (f s) as := by
  induction as generalizing s with
  | nil => rfl
  | cons a as ih =>
    rw [run_cons, run_cons, ← hstep s a]
    cases S.step s a with
    | none => rfl
    | some t => exact ih t

end System

/-! ## Lists of processes -/

/-- How many processes have a property after one of them has moved. -/
theorem countP_set_add {α : Type} {processes : List α} {i : Nat} {a : α}
    (h : processes[i]? = some a) (b : α) (p : α → Bool) :
    (processes.set i b).countP p + (if p a then 1 else 0)
      = processes.countP p + (if p b then 1 else 0) := by
  obtain ⟨hlt, hget⟩ := List.getElem?_eq_some_iff.mp h
  have hpos : p a = true → 1 ≤ processes.countP p := fun hp =>
    List.countP_pos_iff.mpr ⟨a, List.mem_of_getElem? h, hp⟩
  rw [List.countP_set hlt, hget]
  cases hp : p a with
  | true =>
    have hone := hpos hp
    simp only [if_true]
    omega
  | false => simp

/-- Some process still has a property after one of them has moved, which keeps it. -/
theorem exists_mem_set {α : Type} {processes : List α} {i : Nat} {a b : α} {P : α → Prop}
    (h : processes[i]? = some a) (hkeep : P a → P b) (hex : ∃ p ∈ processes, P p) :
    ∃ p ∈ processes.set i b, P p := by
  obtain ⟨hlt, hget⟩ := List.getElem?_eq_some_iff.mp h
  obtain ⟨p, hp, hholds⟩ := hex
  obtain ⟨j, hj, rfl⟩ := List.getElem_of_mem hp
  by_cases hself : j = i
  · subst hself
    rw [hget] at hholds
    exact ⟨b, List.mem_set hlt b, hkeep hholds⟩
  · exact ⟨processes[j], List.mem_iff_getElem.mpr ⟨j, by simpa using hj,
      List.getElem_set_ne (Ne.symm hself) _⟩, hholds⟩

/-- Processes that share a lock: `inside` says that a process holds it. A process moves that enters
    only if the lock is free. -/
theorem holder_set {α : Type} {processes : List α} {inside : α → Bool} {holder : Option Nat}
    (h : ∀ {j c}, processes[j]? = some c → (inside c = true ↔ holder = some j)) {i : Nat} {a b : α}
    (hi : processes[i]? = some a) (henter : inside b = true → inside a = true ∨ holder = none)
    {j : Nat} {c : α} (hj : (processes.set i b)[j]? = some c) :
    inside c = true ↔ (if inside b then some i else if inside a then none else holder)
      = some j := by
  have hinside := h hi
  by_cases hself : j = i
  · subst hself
    rw [List.getElem?_set_self (List.getElem?_eq_some_iff.mp hi).1] at hj
    obtain rfl := Option.some.inj hj
    cases hb : inside b with
    | true => simp
    | false =>
      cases ha : inside a with
      | true => simp
      | false =>
        have hne : holder ≠ some j := fun hholder => by simp [hinside.mpr hholder] at ha
        simpa using hne
  · rw [List.getElem?_set_ne (Ne.symm hself)] at hj
    rw [h hj]
    cases hb : inside b with
    | true =>
      have hne : holder ≠ some j := by
        intro hholder
        rcases henter hb with ha | hfree
        · rw [hinside.mp ha] at hholder
          exact hself (Option.some.inj hholder).symm
        · rw [hfree] at hholder
          cases hholder
      simp [hne, Ne.symm hself]
    | false =>
      cases ha : inside a with
      | true => simp [hinside.mp ha, Ne.symm hself]
      | false => simp

end GoudaMatrix.Lib
