/-
  What the runs of a system show.

  `shows s a` is what an observer sees of the action `a` in `s`, and `trace` is what it sees of a
  run. The rules that carry a fact about one step to every run are
  - `fifo_of_step`: what a buffer gives out and what it still holds are what it held and was given;
  - `accepted_of_step`: a monitor that follows every step accepts what the run shows;
  - `bounded_of_step`: a potential that every step pays for bounds how much a run does.
  `exists_run_to_rest` is the rule for progress: work that can always be lowered can be done, and
  `Rounds.done` the one for attempts that fail as often as a budget allows.
  Each takes an invariant of the system, under which the step is considered.
-/
import GoudaMatrix.Lib.Run

namespace GoudaMatrix.Lib

namespace System

variable {σ α β : Type} (S : System σ α)

/-- What is seen of a run. -/
def trace (shows : σ → α → List β) : σ → List α → List β
  | _, [] => []
  | s, a :: as => shows s a ++ (S.step s a).elim [] fun t => trace shows t as

theorem trace_nil (shows : σ → α → List β) (s : σ) : S.trace shows s [] = [] := rfl

theorem trace_cons {shows : σ → α → List β} {s t : σ} {a : α} (h : S.step s a = some t)
    (as : List α) : S.trace shows s (a :: as) = shows s a ++ S.trace shows t as := by
  rw [trace, h]
  rfl

theorem trace_eq_nil {shows : σ → α → List β} {as : List α} (h : ∀ a ∈ as, ∀ s, shows s a = [])
    (s : σ) : S.trace shows s as = [] := by
  induction as generalizing s with
  | nil => rfl
  | cons a as ih =>
    rw [trace, h a List.mem_cons_self, List.nil_append]
    cases S.step s a with
    | none => rfl
    | some t => exact ih (fun b hb => h b (List.mem_cons_of_mem _ hb)) t

theorem trace_filterMap {γ : Type} (f : β → Option γ) (shows : σ → α → List β) (s : σ)
    (as : List α) :
    S.trace (fun s a => (shows s a).filterMap f) s as = (S.trace shows s as).filterMap f := by
  induction as generalizing s with
  | nil => rfl
  | cons a as ih =>
    rw [trace, trace, List.filterMap_append]
    cases S.step s a with
    | none => rfl
    | some t => exact congrArg _ (ih t)

/-- If the system can move whenever it is not at rest, by an action that leaves it less work and
    keeps `inv`, then it can be run until it is. -/
theorem exists_run_to_rest_of_rel {ω : Type} [WellFoundedRelation ω] (work : σ → ω)
    (rest : σ → Prop) {internal : α → Prop} {inv : σ → Prop}
    (hmove : ∀ s, inv s → ¬ rest s → ∃ a t, internal a ∧ S.step s a = some t ∧ inv t ∧
      WellFoundedRelation.rel (work t) (work s))
    {s : σ} (hs : inv s) :
    ∃ as t, (∀ a ∈ as, internal a) ∧ S.run s as = some t ∧ inv t ∧ rest t := by
  induction hwork : work s using (WellFoundedRelation.wf (α := ω)).induction generalizing s with
  | _ n ih =>
    by_cases hrest : rest s
    · exact ⟨[], s, by simp, rfl, hs, hrest⟩
    · obtain ⟨a, u, ha, hu, hinv, hless⟩ := hmove s hs hrest
      obtain ⟨as, t, has, hrun, hinv', hrest'⟩ := ih (work u) (hwork ▸ hless) hinv rfl
      refine ⟨a :: as, t, ?_, (S.run_cons_eq_some).mpr ⟨u, hu, hrun⟩, hinv', hrest'⟩
      intro b hb
      rcases List.mem_cons.mp hb with rfl | hb
      · exact ha
      · exact has b hb

section

variable {inv : σ → Prop} (hinv : ∀ s a t, inv s → S.step s a = some t → inv t)
include hinv

/-- A buffer that gives out what it is given, in order. -/
theorem fifo_of_step {buffer : σ → List β} {given taken : σ → α → List β}
    (hstep : ∀ s a t, inv s → S.step s a = some t → taken s a ++ buffer t = buffer s ++ given s a)
    {s t : σ} {as : List α} (hs : inv s) (hrun : S.run s as = some t) :
    S.trace taken s as ++ buffer t = buffer s ++ S.trace given s as := by
  induction as generalizing s with
  | nil =>
    rw [run_nil, Option.some.injEq] at hrun
    subst hrun
    simp only [trace_nil, List.nil_append, List.append_nil]
  | cons a as ih =>
    obtain ⟨u, hu, hrun'⟩ := (S.run_cons_eq_some).mp hrun
    have hrest := ih (hinv s a u hs hu) hrun'
    rw [S.trace_cons hu, S.trace_cons hu, List.append_assoc, hrest, ← List.append_assoc,
      hstep s a u hs hu, List.append_assoc]

/-- A log that every step writes at its end. -/
theorem log_of_step {log : σ → List β} {shows : σ → α → List β}
    (hstep : ∀ s a t, inv s → S.step s a = some t → log t = log s ++ shows s a)
    {s t : σ} {as : List α} (hs : inv s) (hrun : S.run s as = some t) :
    log t = log s ++ S.trace shows s as := by
  induction as generalizing s with
  | nil =>
    rw [run_nil, Option.some.injEq] at hrun
    subst hrun
    rw [trace_nil, List.append_nil]
  | cons a as ih =>
    obtain ⟨u, hu, hrun'⟩ := (S.run_cons_eq_some).mp hrun
    rw [ih (hinv s a u hs hu) hrun', hstep s a u hs hu, S.trace_cons hu, List.append_assoc]

/-- A pool to which every step adds what it shows, in any order. -/
theorem pool_of_step {pool : σ → List β} {shows : σ → α → List β}
    (hstep : ∀ s a t, inv s → S.step s a = some t → (pool t).Perm (pool s ++ shows s a))
    {s t : σ} {as : List α} (hs : inv s) (hrun : S.run s as = some t) :
    (pool t).Perm (pool s ++ S.trace shows s as) := by
  induction as generalizing s with
  | nil =>
    rw [run_nil, Option.some.injEq] at hrun
    subst hrun
    rw [trace_nil, List.append_nil]
  | cons a as ih =>
    obtain ⟨u, hu, hrun'⟩ := (S.run_cons_eq_some).mp hrun
    rw [S.trace_cons hu, ← List.append_assoc]
    exact (ih (hinv s a u hs hu) hrun').trans ((hstep s a u hs hu).append_right _)

/-- What an observer sees who sees less of every step is part, in order, of what another sees. -/
theorem trace_sublist {fewer more : σ → α → List β}
    (hstep : ∀ s a t, inv s → S.step s a = some t → (fewer s a).Sublist (more s a))
    {s t : σ} {as : List α} (hs : inv s) (hrun : S.run s as = some t) :
    (S.trace fewer s as).Sublist (S.trace more s as) := by
  induction as generalizing s with
  | nil => exact .slnil
  | cons a as ih =>
    obtain ⟨u, hu, hrun'⟩ := (S.run_cons_eq_some).mp hrun
    rw [S.trace_cons hu, S.trace_cons hu]
    exact (hstep s a u hs hu).append (ih (hinv s a u hs hu) hrun')

/-- The rule for a monitor, a system whose actions are what is seen. -/
theorem accepted_of_step {τ : Type} (M : System τ β) {shows : σ → α → List β} {R : σ → τ → Prop}
    (hstep : ∀ s a t q, inv s → R s q → S.step s a = some t →
      ∃ q', M.run q (shows s a) = some q' ∧ R t q')
    {s t : σ} {q : τ} {as : List α} (hs : inv s) (hR : R s q) (hrun : S.run s as = some t) :
    ∃ q', M.run q (S.trace shows s as) = some q' ∧ R t q' := by
  induction as generalizing s q with
  | nil =>
    rw [run_nil, Option.some.injEq] at hrun
    exact ⟨q, rfl, hrun ▸ hR⟩
  | cons a as ih =>
    obtain ⟨u, hu, hrun'⟩ := (S.run_cons_eq_some).mp hrun
    obtain ⟨q₁, hq₁, hR₁⟩ := hstep s a u q hs hR hu
    obtain ⟨q₂, hq₂, hR₂⟩ := ih (hinv s a u hs hu) hR₁ hrun'
    refine ⟨q₂, ?_, hR₂⟩
    rw [S.trace_cons hu, M.run_append, hq₁]
    exact hq₂

/-- The rule for a potential: what is done is paid for by the potential or by what is fed. -/
theorem bounded_of_step {γ : Type} {potential : σ → Nat} {done : σ → α → List β}
    {fed : σ → α → List γ} {price : Nat}
    (hstep : ∀ s a t, inv s → S.step s a = some t →
      (done s a).length + potential t ≤ potential s + price * (fed s a).length)
    {s t : σ} {as : List α} (hs : inv s) (hrun : S.run s as = some t) :
    (S.trace done s as).length + potential t
      ≤ potential s + price * (S.trace fed s as).length := by
  induction as generalizing s with
  | nil =>
    rw [run_nil, Option.some.injEq] at hrun
    subst hrun
    simp [trace_nil]
  | cons a as ih =>
    obtain ⟨u, hu, hrun'⟩ := (S.run_cons_eq_some).mp hrun
    have hfirst := hstep s a u hs hu
    have hrest := ih (hinv s a u hs hu) hrun'
    rw [S.trace_cons hu, S.trace_cons hu, List.length_append, List.length_append, Nat.mul_add]
    omega

/-- If the system can move whenever it has work, by an action that leaves it less work, then it can
    be run until it has none. -/
theorem exists_run_to_rest {work : σ → Nat} {internal : α → Prop}
    (hmove : ∀ s, inv s → work s ≠ 0 →
      ∃ a t, internal a ∧ S.step s a = some t ∧ work t < work s)
    {s : σ} (hs : inv s) :
    ∃ as t, (∀ a ∈ as, internal a) ∧ S.run s as = some t ∧ work t = 0 := by
  obtain ⟨as, t, has, hrun, -, hrest⟩ :=
    S.exists_run_to_rest_of_rel work (fun s => work s = 0) (fun s h hwork => by
      obtain ⟨a, t, ha, hstep, hless⟩ := hmove s h hwork
      exact ⟨a, t, ha, hstep, hinv s a t h hstep, hless⟩) hs
  exact ⟨as, t, has, hrun, hrest⟩

end

end System

/-! ## Rounds -/

/-- Runs one after the other, each of them a round. -/
inductive Rounds {σ α : Type} (round : σ → List α → σ → Prop) : σ → List (List α) → σ → Prop
  | nil (s : σ) : Rounds round s [] s
  | cons {s t u : σ} {as : List α} {rounds : List (List α)} (first : round s as t)
      (rest : Rounds round t rounds u) : Rounds round s (as :: rounds) u

/-- If each round that does not do it uses up some of a budget, which is fed in between, then enough
    rounds do it. -/
theorem Rounds.done {σ α β : Type} {round : σ → List α → σ → Prop} {waiting done : σ → Prop}
    {budget : σ → Nat} {fed : α → List β}
    (hround : ∀ s as t, waiting s → round s as t →
      done t ∨ waiting t ∧ budget t + 1 ≤ budget s + (as.flatMap fed).length)
    (hdone : ∀ s as t, done s → round s as t → done t)
    {s t : σ} {rounds : List (List α)} (h : Rounds round s rounds t) (hs : done s ∨ waiting s)
    (hlong : budget s + (rounds.flatten.flatMap fed).length < rounds.length) : done t := by
  have hafter : ∀ {s t : σ} {rounds : List (List α)}, Rounds round s rounds t → done s →
    done t := by
    intro s t rounds h
    induction h with
    | nil => exact id
    | cons first rest ih => exact fun hs => ih (hdone _ _ _ hs first)
  induction h with
  | nil => exact absurd hlong (Nat.not_lt_zero _)
  | cons first rest ih =>
    rcases hs with hs | hs
    · exact hafter (.cons first rest) hs
    rcases hround _ _ _ hs first with ht | ⟨ht, hbudget⟩
    · exact hafter rest ht
    · refine ih (.inr ht) ?_
      rw [List.flatten_cons, List.flatMap_append, List.length_append, List.length_cons] at hlong
      omega

end GoudaMatrix.Lib
