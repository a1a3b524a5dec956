/-
  The tally of a poll. Options are compared by their place in the list, since ids need not be
  distinct: an answer counts for the first option with its id.

  `voted_addAnswers`: after any responses to options without voters, a user is a voter of
  an option exactly when the user's last response selects it.
-/
import Mathlib.Data.List.Induction
import GoudaMatrix.Polls.Assemble

namespace GoudaMatrix.Polls

open GoudaMatrix.Lib GoudaMatrix.Ruma

/-- The user is a voter of the option at place `i`. -/
def Voted (options : List PollOption) (userId : String) (i : Nat) : Prop :=
  ∃ option, options[i]? = some option ∧ userId ∈ option.votedUserIds

/-- The answers select the option at place `i`, of those with the given ids. -/
def Selects (ids : List String) (answers : List String) (i : Nat) : Prop :=
  ∃ answer ∈ answers, ids.idxOf? answer = some i

/-- The answers of the user's last response. -/
def lastAnswers (responses : List (String × List String)) (userId : String) :
    Option (List String) :=
  (responses.reverse.find? fun response => response.1 = userId).map Prod.snd

@[simp] theorem voted_cons_zero (option : PollOption) (options : List PollOption)
    (userId : String) : Voted (option :: options) userId 0 ↔ userId ∈ option.votedUserIds := by
  simp [Voted]

@[simp] theorem voted_cons_succ (option : PollOption) (options : List PollOption)
    (userId : String) (i : Nat) :
    Voted (option :: options) userId (i + 1) ↔ Voted options userId i := by
  simp [Voted]

theorem not_voted_of_fresh (answers : List UnstablePollAnswer) (userId : String) (i : Nat) :
    ¬ Voted (answers.map intoChat) userId i := by
  rintro ⟨option, h, hmem⟩
  rw [List.getElem?_map, Option.map_eq_some_iff] at h
  obtain ⟨answer, -, rfl⟩ := h
  exact absurd hmem List.not_mem_nil

/-! ## One vote -/

theorem addVote_cons (userId answer : String) (option : PollOption) (options : List PollOption) :
    addVote userId (option :: options) answer
      = if option.id = answer then
          (if userId ∈ option.votedUserIds then option
           else { option with votedUserIds := option.votedUserIds ++ [userId] }) :: options
        else option :: addVote userId options answer := by
  unfold addVote
  by_cases h : option.id = answer
  · simp [modifyFirst, h]
  · simp only [modifyFirst, h, decide_false, Bool.false_eq_true, if_false]
    cases modifyFirst (fun option => decide (option.id = answer)) _ options <;> rfl

/-- A vote changes neither the ids nor the texts. -/
theorem addVote_label (userId answer : String) (options : List PollOption) :
    (addVote userId options answer).map (fun option => (option.id, option.text))
      = options.map fun option => (option.id, option.text) := by
  unfold addVote
  cases hvoted : modifyFirst (fun option => option.id = answer) _ options with
  | none => rfl
  | some voted =>
    refine map_modifyFirst (fun option _ => ?_) hvoted
    split <;> rfl

theorem voted_addVote (voter answer : String) (options : List PollOption) (userId : String)
    (i : Nat) :
    Voted (addVote voter options answer) userId i ↔
      Voted options userId i ∨
        userId = voter ∧ (options.map PollOption.id).idxOf? answer = some i := by
  induction options generalizing i with
  | nil => simp [addVote, modifyFirst]
  | cons option options ih =>
    rw [addVote_cons]
    by_cases h : option.id = answer
    · rw [if_pos h]
      cases i with
      | zero =>
        have hid : (List.map PollOption.id (option :: options)).idxOf? answer = some 0 := by
          simp [List.idxOf?_cons, h]
        rw [voted_cons_zero, voted_cons_zero, hid]
        split
        · next hmem => simp; rintro rfl; exact hmem
        · simp
      | succ i =>
        have hid : (List.map PollOption.id (option :: options)).idxOf? answer = some 0 := by
          simp [List.idxOf?_cons, h]
        rw [voted_cons_succ, voted_cons_succ, hid]
        simp
    · rw [if_neg h]
      have hid : (List.map PollOption.id (option :: options)).idxOf? answer
          = ((options.map PollOption.id).idxOf? answer).map (· + 1) := by
        simp [List.idxOf?_cons, h]
      cases i with
      | zero =>
        rw [hid]
        simp
      | succ i =>
        rw [voted_cons_succ, voted_cons_succ, ih, hid]
        simp

theorem voted_foldl_addVote (voter : String) (answers : List String) (options : List PollOption)
    (userId : String) (i : Nat) :
    Voted (answers.foldl (addVote voter) options) userId i ↔
      Voted options userId i ∨ userId = voter ∧ Selects (options.map PollOption.id) answers i := by
  induction answers generalizing options with
  | nil => simp [Selects]
  | cons answer answers ih =>
    have hids : (addVote voter options answer).map PollOption.id = options.map PollOption.id := by
      have h := congrArg (List.map Prod.fst) (addVote_label voter answer options)
      simpa [List.map_map, Function.comp_def] using h
    rw [List.foldl_cons, ih, voted_addVote, hids]
    simp only [Selects, List.mem_cons, exists_eq_or_imp]
    tauto

/-! ## One response -/

theorem voted_clearUserAnswers (options : List PollOption) (voter userId : String) (i : Nat) :
    Voted (clearUserAnswers options voter) userId i ↔ Voted options userId i ∧ userId ≠ voter := by
  simp [Voted, clearUserAnswers, List.getElem?_map]
  grind

/-- A response keeps the question, the number of selections and the labels of the options. -/
theorem addAnswer_labels (content : MessageContentPoll) (sender : String)
    (answers : List String) :
    (addAnswer content sender answers).options.map (fun option => (option.id, option.text))
      = content.options.map fun option => (option.id, option.text) := by
  have hfold : ∀ (answers : List String) (options : List PollOption),
      (answers.foldl (addVote sender) options).map (fun option => (option.id, option.text))
        = options.map fun option => (option.id, option.text) := by
    intro answers
    induction answers with
    | nil => exact fun _ => rfl
    | cons answer answers ih => exact fun options => (ih _).trans (addVote_label _ _ _)
  rw [addAnswer, hfold]
  simp [clearUserAnswers, Function.comp_def]

/-- A response replaces the votes of its sender and leaves those of the others. -/
theorem voted_addAnswer (content : MessageContentPoll) (sender : String) (answers : List String)
    (userId : String) (i : Nat) :
    Voted (addAnswer content sender answers).options userId i ↔
      if userId = sender then
        Selects (content.options.map PollOption.id) (answers.take content.maxSelections) i
      else Voted content.options userId i := by
  have hids : (clearUserAnswers content.options sender).map PollOption.id
      = content.options.map PollOption.id := by
    simp [clearUserAnswers, Function.comp_def]
  rw [addAnswer, voted_foldl_addVote, voted_clearUserAnswers, hids]
  split <;> simp [*]

/-! ## All responses -/

theorem lastAnswers_concat (responses : List (String × List String))
    (response : String × List String) (userId : String) :
    lastAnswers (responses ++ [response]) userId
      = if response.1 = userId then some response.2 else lastAnswers responses userId := by
  unfold lastAnswers
  rw [List.reverse_append]
  by_cases h : response.1 = userId <;> simp [h]

/-- Apply the responses in order. -/
def addAnswers (content : MessageContentPoll) (responses : List (String × List String)) :
    MessageContentPoll :=
  responses.foldl (fun content response => addAnswer content response.1 response.2) content

theorem addAnswers_concat (content : MessageContentPoll) (responses : List (String × List String))
    (response : String × List String) :
    addAnswers content (responses ++ [response])
      = addAnswer (addAnswers content responses) response.1 response.2 := by
  simp [addAnswers]

/-- Responses change the options only, and of these only the voters. -/
structure SameButVoters (a b : MessageContentPoll) : Prop where
  type : a.type = b.type
  completed : a.completed = b.completed
  maxSelections : a.maxSelections = b.maxSelections
  question : a.question = b.question
  labels : a.options.map (fun option => (option.id, option.text))
    = b.options.map fun option => (option.id, option.text)

theorem addAnswers_sameButVoters (content : MessageContentPoll)
    (responses : List (String × List String)) :
    SameButVoters (addAnswers content responses) content := by
  induction responses using List.reverseRecOn with
  | nil => exact ⟨rfl, rfl, rfl, rfl, rfl⟩
  | append_singleton responses response ih =>
    rw [addAnswers_concat]
    exact ⟨ih.type, ih.completed, ih.maxSelections, ih.question,
      (addAnswer_labels _ _ _).trans ih.labels⟩

theorem SameButVoters.ids {a b : MessageContentPoll} (h : SameButVoters a b) :
    a.options.map PollOption.id = b.options.map PollOption.id := by
  have hlabels := congrArg (List.map Prod.fst) h.labels
  simpa [List.map_map, Function.comp_def] using hlabels

/-- The tally of responses to a poll without voters. -/
theorem voted_addAnswers {content : MessageContentPoll}
    (hfresh : ∀ userId i, ¬ Voted content.options userId i)
    (responses : List (String × List String)) (userId : String) (i : Nat) :
    Voted (addAnswers content responses).options userId i ↔
      ∃ answers, lastAnswers responses userId = some answers ∧
        Selects (content.options.map PollOption.id) (answers.take content.maxSelections) i := by
  induction responses using List.reverseRecOn with
  | nil => simpa [addAnswers, lastAnswers] using hfresh userId i
  | append_singleton responses response ih =>
    have hsame := addAnswers_sameButVoters content responses
    rw [addAnswers_concat, voted_addAnswer, lastAnswers_concat, hsame.ids, hsame.maxSelections]
    by_cases h : userId = response.1
    · simp [h]
    · rw [if_neg h, if_neg (Ne.symm h), ih]

/-! ## Voters are listed once -/

theorem nodup_addVote (voter answer : String) {options : List PollOption}
    (h : ∀ option ∈ options, option.votedUserIds.Nodup) :
    ∀ option ∈ addVote voter options answer, option.votedUserIds.Nodup := by
  induction options with
  | nil => exact h
  | cons option options ih =>
    rw [List.forall_mem_cons] at h
    rw [addVote_cons]
    split
    · refine List.forall_mem_cons.mpr ⟨?_, h.2⟩
      split
      · exact h.1
      · next hmem =>
        exact List.Nodup.append h.1 (List.nodup_singleton voter)
          (List.disjoint_singleton.mpr hmem)
    · exact List.forall_mem_cons.mpr ⟨h.1, ih h.2⟩

theorem nodup_addAnswers {content : MessageContentPoll}
    (h : ∀ option ∈ content.options, option.votedUserIds.Nodup)
    (responses : List (String × List String)) :
    ∀ option ∈ (addAnswers content responses).options, option.votedUserIds.Nodup := by
  have hfold : ∀ (sender : String) (answers : List String) (options : List PollOption),
      (∀ option ∈ options, option.votedUserIds.Nodup) →
      ∀ option ∈ answers.foldl (addVote sender) options, option.votedUserIds.Nodup := by
    intro sender answers
    induction answers with
    | nil => exact fun options h => h
    | cons answer answers ih => exact fun options h => ih _ (nodup_addVote sender answer h)
  induction responses using List.reverseRecOn with
  | nil => exact h
  | append_singleton responses response ih =>
    rw [addAnswers_concat, addAnswer]
    refine hfold _ _ _ fun option hmem => ?_
    obtain ⟨old, hold, rfl⟩ := List.mem_map.mp hmem
    exact (ih old hold).filter _

/-! ## The last answers of a history -/

section History

variable {α : Type} {sender : α → String} {answers : α → List String}

theorem lastAnswers_of_sorted {key : α → Nat} {xs : List α} {userId : String}
    {selected : List String} (hsorted : xs.Pairwise fun a b => key a ≤ key b)
    (h : lastAnswers (xs.map fun x => (sender x, answers x)) userId = some selected) :
    ∃ x ∈ xs, sender x = userId ∧ answers x = selected ∧
      ∀ y ∈ xs, sender y = userId → key y ≤ key x := by
  induction xs using List.reverseRecOn with
  | nil => cases h
  | append_singleton xs x ih =>
    rw [List.pairwise_append] at hsorted
    rw [List.map_append, List.map_singleton, lastAnswers_concat] at h
    split at h
    · next hsender =>
      refine ⟨x, by simp, hsender, Option.some.inj h, fun y hy _ => ?_⟩
      rcases List.mem_append.mp hy with hy | hy
      · exact hsorted.2.2 y hy x (by simp)
      · rw [List.mem_singleton.mp hy]
    · next hsender =>
      obtain ⟨z, hz, hzsender, hzanswers, hnewest⟩ := ih hsorted.1 h
      refine ⟨z, by simp [hz], hzsender, hzanswers, fun y hy hysender => ?_⟩
      rcases List.mem_append.mp hy with hy | hy
      · exact hnewest y hy hysender
      · rw [List.mem_singleton.mp hy] at hysender
        exact absurd hysender hsender

theorem lastAnswers_eq_none {xs : List α} {userId : String} :
    lastAnswers (xs.map fun x => (sender x, answers x)) userId = none ↔
      ∀ x ∈ xs, sender x ≠ userId := by
  simp [lastAnswers]

end History

end GoudaMatrix.Polls
