/-
  The tally of any responses to a poll without voters, option ids that occur twice included.

  `tally`: a user is a voter of an option exactly if the user has responded, the option is the
  first with its id, and the id is among the answers of the last response that count. Nobody is
  a voter twice or of more options than may be selected, and only the last response of each user
  matters, so that responses of two users may be swapped.
-/
import GoudaMatrix.MemoryCache.Confluence

namespace GoudaMatrix.Polls

open GoudaMatrix.Lib GoudaMatrix.Ruma GoudaMatrix.MemoryCache GoudaMatrix.MemoryCache.RelationSet

/-! ## The first option with an id -/

/-- No option before place `i` has the id of the option at place `i`. -/
def FirstWithId (options : List PollOption) (i : Nat) : Prop :=
  ∀ option, options[i]? = some option → ∀ earlier ∈ options.take i, earlier.id ≠ option.id

theorem idxOf?_ids_iff (options : List PollOption) (answer : String) (i : Nat) :
    (options.map PollOption.id).idxOf? answer = some i ↔
      ∃ option, options[i]? = some option ∧ option.id = answer ∧ FirstWithId options i := by
  rw [List.idxOf?_eq_some_iff]
  constructor
  · rintro ⟨hi, hid, hfirst⟩
    rw [List.length_map] at hi
    rw [List.getElem_map] at hid
    refine ⟨options[i], List.getElem?_eq_getElem hi, hid, fun option hoption earlier hmem => ?_⟩
    obtain ⟨j, hj, rfl⟩ := List.mem_take_iff_getElem.mp hmem
    have hne := hfirst j (by omega)
    rw [List.getElem_map] at hne
    rw [List.getElem?_eq_getElem hi] at hoption
    obtain rfl := Option.some.inj hoption
    rwa [hid]
  · rintro ⟨option, hoption, rfl, hfirst⟩
    obtain ⟨hi, rfl⟩ := List.getElem?_eq_some_iff.mp hoption
    refine ⟨by rwa [List.length_map], by rw [List.getElem_map], fun j hj => ?_⟩
    rw [List.getElem_map]
    exact hfirst _ hoption _ (List.mem_take_iff_getElem.mpr ⟨j, by omega, rfl⟩)

theorem selects_ids_iff {options : List PollOption} {i : Nat} {option : PollOption}
    (hoption : options[i]? = some option) (answers : List String) :
    Selects (options.map PollOption.id) answers i ↔
      FirstWithId options i ∧ option.id ∈ answers := by
  constructor
  · rintro ⟨answer, hmem, hidx⟩
    obtain ⟨found, hfound, rfl, hfirst⟩ := (idxOf?_ids_iff options answer i).mp hidx
    rw [hoption] at hfound
    obtain rfl := Option.some.inj hfound
    exact ⟨hfirst, hmem⟩
  · rintro ⟨hfirst, hmem⟩
    exact ⟨option.id, hmem, (idxOf?_ids_iff options option.id i).mpr ⟨option, hoption, rfl, hfirst⟩⟩

/-! ## The number of votes -/

/-- How many options the user is a voter of. -/
def votes (options : List PollOption) (userId : String) : Nat :=
  options.countP fun option => decide (userId ∈ option.votedUserIds)

theorem votes_addVote_le (voter answer : String) (options : List PollOption) (userId : String) :
    votes (addVote voter options answer) userId
      ≤ votes options userId + if userId = voter then 1 else 0 := by
  induction options with
  | nil => simp [addVote, modifyFirst, votes]
  | cons option options ih =>
    rw [addVote_cons]
    unfold votes at ih ⊢
    split
    · rw [List.countP_cons, List.countP_cons]
      split
      · omega
      · by_cases h : userId = voter
        · simp only [h, if_true]
          split <;> omega
        · simp [h]
    · rw [List.countP_cons, List.countP_cons]
      omega

theorem votes_foldl_addVote_le (voter : String) (answers : List String)
    (options : List PollOption) (userId : String) :
    votes (answers.foldl (addVote voter) options) userId
      ≤ votes options userId + if userId = voter then answers.length else 0 := by
  induction answers generalizing options with
  | nil => simp
  | cons answer answers ih =>
    have hvote := votes_addVote_le voter answer options userId
    have hrest := ih (addVote voter options answer)
    rw [List.foldl_cons, List.length_cons]
    split at hvote <;> split at hrest <;> split <;> first | contradiction | omega

theorem votes_clearUserAnswers (options : List PollOption) (voter userId : String) :
    votes (clearUserAnswers options voter) userId
      = if userId = voter then 0 else votes options userId := by
  unfold votes clearUserAnswers
  rw [List.countP_map]
  split
  · next h => simp [h]
  · next h =>
    refine List.countP_congr fun option _ => ?_
    simp [h]

/-- The earlier votes are withdrawn, and each counted answer adds at most one. -/
theorem votes_addAnswer_le (content : MessageContentPoll) (sender : String) (answers : List String)
    (userId : String) :
    votes (addAnswer content sender answers).options userId
      ≤ if userId = sender then content.maxSelections else votes content.options userId := by
  have hvotes := votes_foldl_addVote_le sender (answers.take content.maxSelections)
    (clearUserAnswers content.options sender) userId
  have htake : (answers.take content.maxSelections).length ≤ content.maxSelections :=
    List.length_take_le _ _
  rw [votes_clearUserAnswers] at hvotes
  show votes ((answers.take content.maxSelections).foldl (addVote sender) _) userId ≤ _
  split
  · next h =>
    rw [if_pos h, if_pos h] at hvotes
    omega
  · next h =>
    rw [if_neg h, if_neg h] at hvotes
    omega

theorem votes_addAnswers_le {content : MessageContentPoll}
    (hfresh : ∀ userId, votes content.options userId ≤ content.maxSelections)
    (responses : List (String × List String)) (userId : String) :
    votes (addAnswers content responses).options userId ≤ content.maxSelections := by
  induction responses using List.reverseRecOn with
  | nil => exact hfresh userId
  | append_singleton responses response ih =>
    rw [addAnswers_concat]
    refine (votes_addAnswer_le _ _ _ _).trans ?_
    rw [(addAnswers_sameButVoters content responses).maxSelections]
    split
    · exact Nat.le_refl _
    · exact ih

/-! ## Only the last responses count -/

theorem lastAnswers_append (responses responses' : List (String × List String)) (userId : String) :
    lastAnswers (responses ++ responses') userId
      = (lastAnswers responses' userId).or (lastAnswers responses userId) := by
  unfold lastAnswers
  rw [List.reverse_append, List.find?_append]
  cases (responses'.reverse.find? fun response => decide (response.1 = userId)) <;> rfl

theorem lastAnswers_swap (before after : List (String × List String))
    {a b : String × List String} (h : a.1 ≠ b.1) (userId : String) :
    lastAnswers (before ++ a :: b :: after) userId
      = lastAnswers (before ++ b :: a :: after) userId := by
  have hpair : ∀ x y : String × List String, lastAnswers (x :: y :: after) userId
      = (lastAnswers after userId).or
          (if y.1 = userId then some y.2 else if x.1 = userId then some x.2 else none) := by
    intro x y
    rw [show x :: y :: after = ([x] ++ [y]) ++ after from rfl, lastAnswers_append,
      lastAnswers_concat]
    simp [lastAnswers]
  rw [lastAnswers_append, lastAnswers_append before, hpair, hpair]
  by_cases ha : a.1 = userId
  · rw [if_pos ha, if_neg fun hb => h (ha.trans hb.symm), if_pos ha]
  · rw [if_neg ha, if_neg ha]

theorem pollAlike_of_lastAnswers {content : MessageContentPoll} (hfresh : Fresh content)
    {responses responses' : List (String × List String)}
    (h : ∀ userId, lastAnswers responses userId = lastAnswers responses' userId) :
    PollAlike (addAnswers content responses) (addAnswers content responses') := by
  refine (pollAlike_addAnswers hfresh hfresh responses responses').mpr ⟨rfl, fun userId i => ?_⟩
  unfold Counts
  rw [h userId]

/-! ## The tally -/

theorem votes_of_fresh {content : MessageContentPoll} (h : Fresh content) (userId : String) :
    votes content.options userId = 0 := by
  refine List.countP_eq_zero.mpr fun option hoption => ?_
  simp [h option hoption]

theorem mem_voters_iff {content : MessageContentPoll} (hfresh : Fresh content)
    (responses : List (String × List String)) (userId : String) {i : Nat} {option : PollOption}
    (hoption : (addAnswers content responses).options[i]? = some option) :
    userId ∈ option.votedUserIds ↔ ∃ answers, lastAnswers responses userId = some answers ∧
      FirstWithId (addAnswers content responses).options i ∧
      option.id ∈ answers.take content.maxSelections := by
  have hids := (addAnswers_sameButVoters content responses).ids
  have hvoted : Voted (addAnswers content responses).options userId i ↔
      userId ∈ option.votedUserIds := by
    unfold Voted
    rw [hoption]
    simp
  rw [← hvoted, voted_addAnswers hfresh.not_voted, ← hids]
  exact exists_congr fun answers => and_congr_right fun _ =>
    selects_ids_iff hoption (answers.take content.maxSelections)

/-- The tally of the responses, with all that is not an id of a voter unchanged. -/
theorem tally (content : MessageContentPoll)
    (hfresh : ∀ option ∈ content.options, option.votedUserIds = [])
    (responses : List (String × List String)) :
    (∀ userId i option, (addAnswers content responses).options[i]? = some option →
      (userId ∈ option.votedUserIds ↔ ∃ answers, lastAnswers responses userId = some answers ∧
        FirstWithId (addAnswers content responses).options i ∧
        option.id ∈ answers.take content.maxSelections)) ∧
    (∀ option ∈ (addAnswers content responses).options, option.votedUserIds.Nodup) ∧
    (∀ userId, votes (addAnswers content responses).options userId ≤ content.maxSelections) ∧
    SameButVoters (addAnswers content responses) content ∧
    (∀ responses', (∀ userId, lastAnswers responses userId = lastAnswers responses' userId) →
      PollAlike (addAnswers content responses) (addAnswers content responses')) ∧
    (∀ before after a b, a.1 ≠ b.1 → responses = before ++ a :: b :: after →
      PollAlike (addAnswers content responses)
        (addAnswers content (before ++ b :: a :: after))) := by
  refine ⟨fun userId i option hoption => mem_voters_iff hfresh responses userId hoption,
    nodup_addAnswers (fun option hoption => ?_) responses,
    votes_addAnswers_le (fun userId => ?_) responses,
    addAnswers_sameButVoters content responses,
    fun responses' h => pollAlike_of_lastAnswers hfresh h, ?_⟩
  · rw [hfresh option hoption]
    exact List.nodup_nil
  · rw [votes_of_fresh hfresh userId]
    exact Nat.zero_le _
  · rintro before after a b hne rfl
    exact pollAlike_of_lastAnswers hfresh fun userId => lastAnswers_swap before after hne userId

/-- Two options have one id, and one answer counts. -/
def snack : MessageContentPoll :=
  ⟨.disclosed, false, 1, "Snack?", [⟨"a", "Soup", []⟩, ⟨"a", "Salad", []⟩, ⟨"b", "Pie", []⟩]⟩

def snackResponses : List (String × List String) :=
  [("@bob", ["b"]), ("@ally", ["b", "a"]), ("@bob", ["a", "b"])]

/-- Bob's second response moves his vote to the first option with the id. -/
theorem tally_snack :
    (addAnswers snack snackResponses).options.map PollOption.votedUserIds
      = [["@bob"], [], ["@ally"]] ∧
    votes (addAnswers snack snackResponses).options "@bob" ≤ 1 ∧
    PollAlike (addAnswers snack snackResponses)
      (addAnswers snack [("@ally", ["b", "a"]), ("@bob", ["b"]), ("@bob", ["a", "b"])]) := by
  obtain ⟨-, -, hvotes, -, -, hswap⟩ := tally snack (by decide) snackResponses
  exact ⟨by decide, hvotes "@bob",
    hswap [] [("@bob", ["a", "b"])] ("@bob", ["b"]) ("@ally", ["b", "a"]) (by decide) rfl⟩

end GoudaMatrix.Polls
