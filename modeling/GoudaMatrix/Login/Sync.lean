/-
  The login state of the client against the background sync. `is_logged_in` asks the server
  about the token of the current client; the token is set by the login, the loop that syncs is
  spawned only at the end of `Session::sync`. A step in between that fails leaves the token.

  `failed_save_leaves_login` is a password login whose session file cannot be written: no
  request is running, the token is accepted, and nothing syncs. `syncs_when_accepted` is what
  is needed for that not to happen (`FailsUnaccepted`): when saving, the initial sync or the
  verification status fails, the server does not accept the token any more, or it is a network
  error of `initialize`, which drops its client.
-/
import GoudaMatrix.Login.Ownership

namespace GoudaMatrix.Login

open GoudaMatrix.Lib

def Quiet (s : State) : Prop := ∀ q ∈ s.requests, q.stage = .done

instance : DecidablePred Quiet := fun s =>
  inferInstanceAs (Decidable (∀ q ∈ s.requests, q.stage = .done))

/-- When no request is running and the server accepts the token of the current client, the
    background sync of that client has been started. -/
def SyncsWhenAccepted (s : State) : Prop :=
  Quiet s → ∀ c ∈ s.current, s.Accepted c → s.syncing c = true

instance : DecidablePred SyncsWhenAccepted := fun s =>
  inferInstanceAs (Decidable (Quiet s → ∀ c ∈ s.current, s.Accepted c → s.syncing c = true))

/-- A failure after the client has got its token, unless the client is dropped. -/
def Move.leavesClient (kind : Kind) : Move → Bool
  | .save ok => !ok
  | .initialSync .otherError => true
  | .initialSync .networkError => kind ≠ .initialization
  | .verification ok => !ok
  | _ => false

/-- A failure that leaves the client happens only when the token is not accepted. -/
def FailsUnaccepted (s : State) : Action → Prop
  | .move r m => ∀ q ∈ s.requests[r]?, ∀ c ∈ q.stage.ctx,
      m.leavesClient q.kind = true → ¬ s.Accepted c
  | _ => True

instance (s : State) : DecidablePred (FailsUnaccepted s)
  | .move r m => inferInstanceAs (Decidable (∀ q ∈ s.requests[r]?, ∀ c ∈ q.stage.ctx,
      m.leavesClient q.kind = true → ¬ s.Accepted c))
  | .request _ | .loop _ _ | .revoke _ => isTrue trivial

/-! ## The invariant -/

/-- The context is in `MatrixClientInner`, or is about to be put there. -/
def Live (s : State) (c : Nat) : Prop :=
  s.current = some c ∨ ∃ q ∈ s.requests, ∃ loggedIn, q.stage = .settle c loggedIn

/-- The client syncs, or a request that has logged it in is on its way to the sync. -/
def Covered (s : State) (c : Nat) : Prop :=
  s.syncing c = true ∨ ∃ q ∈ s.requests, q.stage.afterLogin = true ∧ q.stage.ctx = some c

structure SyncInv (s : State) : Prop where
  bounds : Bounds s
  owned : Private s
  /-- A client that is not installed or restored yet has no session. -/
  fresh : ∀ q ∈ s.requests, ∀ c, q.stage = .install c ∨ q.stage = .restore c → s.token c = none
  /-- Nor has it a loop. -/
  idle : ∀ q ∈ s.requests, ∀ c, q.stage = .install c ∨ q.stage = .restore c → s.syncing c = false
  loops : ∀ l ∈ s.loops, s.syncing l.ctx = true
  covered : ∀ c, Live s c → s.Accepted c → Covered s c

theorem not_accepted_of_token_none {s : State} {c : Nat} (h : s.token c = none) :
    ¬ s.Accepted c := by
  rintro ⟨tok, htok, -⟩
  rw [h] at htok
  cases htok

theorem SyncInv.syncsWhenAccepted {s : State} (h : SyncInv s) : SyncsWhenAccepted s := by
  intro hquiet c hc hacc
  rcases h.covered c (Or.inl hc) hacc with hsync | ⟨q, hq, hafter, -⟩
  · exact hsync
  · rw [hquiet q hq] at hafter
    cases hafter

theorem syncInv_start (stored valid : Bool) : SyncInv (State.start stored valid) where
  bounds := bounds_start stored valid
  owned := private_start stored valid
  fresh := nofun
  idle := nofun
  loops := nofun
  covered := by
    rintro c - ⟨tok, htok, -⟩
    cases htok

/-! ## Moves -/

section Moves

variable {s t : State} {kind : Kind} {stage stage' : Stage} {m : Move} {c : Nat}

theorem Moves.syncing_mono (h : Moves s kind stage m t stage') (hs : s.syncing c = true) :
    t.syncing c = true := by
  cases h with
  | created => exact (s.syncing_append c).trans hs
  | login _ d => exact (s.syncing_issue d c).trans hs
  | restored _ d tok =>
    rw [State.syncing_modifyClient]
    split
    · exact hs
    · exact hs
  | startSync _ d =>
    rw [State.syncing_startSync]
    split
    · unfold State.syncing at hs
      cases hd : s.clients[c]? with
      | none =>
        rw [hd] at hs
        cases hs
      | some client => rfl
    · exact hs
  | _ => exact hs

/-- A client begins to sync by the request that works on it. -/
theorem Moves.syncing_next (h : Moves s kind stage m t stage') (ht : t.syncing c = true) :
    s.syncing c = true ∨ stage = .startSync c := by
  cases h with
  | created => exact Or.inl ((s.syncing_append c).symm.trans ht)
  | login _ d => exact Or.inl ((s.syncing_issue d c).symm.trans ht)
  | restored _ d tok =>
    rw [State.syncing_modifyClient] at ht
    split at ht
    · exact Or.inl ht
    · exact Or.inl ht
  | startSync _ d =>
    rw [State.syncing_startSync] at ht
    split at ht
    · next hd => exact Or.inr (hd ▸ rfl)
    · exact Or.inl ht
  | _ => exact Or.inl ht

/-- A token becomes accepted by the login or the restore of its client. -/
theorem Moves.accepted_next (hb : Bounds s) (h : Moves s kind stage m t stage')
    (ht : t.Accepted c) :
    s.Accepted c ∨ stage'.afterLogin = true ∧ stage'.ctx = some c := by
  obtain ⟨tok, htok, hacc⟩ := ht
  rcases h.token_next htok with htok | ⟨-, -, rfl⟩ | ⟨rfl, hf⟩
  · left
    have hlt := hb.token c tok htok
    refine ⟨tok, htok, ?_⟩
    cases h with
    | login =>
      rcases List.mem_append.mp hacc with hacc | hacc
      · exact hacc
      · exact absurd (List.mem_singleton.mp hacc) (Nat.ne_of_lt hlt)
    | _ => exact hacc
  · exact Or.inr ⟨rfl, rfl⟩
  · cases h with
    | restored => exact Or.inr ⟨rfl, rfl⟩
    | notRestored | restoreNetwork => exact Or.inl ⟨tok, htok, hacc⟩

theorem Moves.to_restore (h : Moves s kind stage m t (.restore c)) :
    stage = .createContext ∧ c = s.clients.length := by
  generalize hs : Stage.restore c = stage' at h
  cases h with
  | created =>
    split at hs
    · cases hs
      exact ⟨rfl, rfl⟩
    · cases hs
  | startSync => split at hs <;> cases hs
  | syncNetwork | syncFailed | verifyFailed => cases kind <;> cases hs
  | _ => cases hs

theorem Moves.to_settle {loggedIn : Bool} (h : Moves s kind stage m t (.settle c loggedIn)) :
    stage = .restore c ∨ stage.afterLogin = true ∧ stage.ctx = some c := by
  generalize hs : Stage.settle c loggedIn = stage' at h
  cases h with
  | notRestored =>
    cases hs
    exact Or.inl rfl
  | startSync =>
    split at hs <;> cases hs
    exact Or.inr ⟨rfl, rfl⟩
  | syncNetwork | syncFailed | verifyFailed =>
    cases kind <;> cases hs <;> exact Or.inr ⟨rfl, rfl⟩
  | created => split at hs <;> cases hs
  | _ => cases hs

/-- After the login a request moves on towards the sync, starts it, or fails. -/
theorem Moves.afterLogin_next (h : Moves s kind stage m t stage') (ha : stage.afterLogin = true)
    (hc : stage.ctx = some c) (hlt : c < s.clients.length) :
    stage'.afterLogin = true ∧ stage'.ctx = some c ∨ t.syncing c = true ∨
      m.leavesClient kind = true ∨ kind = .initialization ∧ stage' = .done := by
  cases h with
  | saved | synced | verified => exact Or.inl ⟨rfl, hc⟩
  | startSync =>
    cases hc
    right; left
    rw [State.syncing_startSync, if_pos rfl, List.getElem?_eq_getElem hlt]
    rfl
  | saveFailed | syncFailed | verifyFailed => exact Or.inr (Or.inr (Or.inl rfl))
  | syncNetwork =>
    right; right
    cases kind with
    | initialization => exact Or.inr ⟨rfl, rfl⟩
    | usernamePassword | sso => exact Or.inl rfl
  | _ => cases ha

end Moves

/-- A context that is about to be installed or restored has just been created, or its request waits
    while another one moves. -/
theorem new_or_other {s u : State} {r : Nat} {q q' : Request} {m : Move} {stage : Stage} {c : Nat}
    (h : Private s) (hq : s.requests[r]? = some q) (hm : Moves s q.kind q.stage m u stage)
    (hq' : q' ∈ s.requests.set r ⟨q.kind, stage⟩)
    (hst : q'.stage = .install c ∨ q'.stage = .restore c) :
    q.stage = .createContext ∧ c = s.clients.length ∨
      q' ∈ s.requests ∧ ∀ st : Stage, st.ctx = some c → q.stage ≠ st := by
  obtain ⟨j, hj⟩ := List.mem_iff_getElem?.mp hq'
  rcases getElem?_set_cases hj with ⟨-, rfl⟩ | ⟨hne, hj⟩
  · left
    rcases hst with hst | hst
    · obtain rfl : stage = .install c := hst
      exact hm.of_install.2
    · obtain rfl : stage = .restore c := hst
      exact hm.to_restore
  · have hold := List.mem_of_getElem? hj
    have howns : q'.Owns c := by
      rcases hst with hst | hst
      · exact ⟨by rw [hst]; rfl, Or.inr hst⟩
      · have hk := h.kinds q' hold
        rw [hst] at hk
        exact ⟨by rw [hst]; rfl, Or.inl hk⟩
    refine Or.inr ⟨hold, ?_⟩
    rintro st hst rfl
    exact hne (h.alone j r q' q c hj howns hq hst).symm

theorem token_of_created {s : State} {c : Nat} (h : c = s.clients.length) : s.token c = none := by
  cases htok : s.token c with
  | none => rfl
  | some tok => exact absurd (State.token_lt htok) (h ▸ Nat.lt_irrefl _)

theorem syncing_of_created {s : State} {c : Nat} (h : c = s.clients.length) :
    s.syncing c = false := by
  rw [State.syncing, List.getElem?_eq_none (Nat.le_of_eq h.symm)]
  rfl

/-! ## Steps -/

theorem fresh_move {s u : State} {r : Nat} {q : Request} {m : Move} {stage : Stage}
    (h : SyncInv s) (hq : s.requests[r]? = some q) (hm : Moves s q.kind q.stage m u stage) :
    ∀ q' ∈ s.requests.set r ⟨q.kind, stage⟩, ∀ c,
      q'.stage = .install c ∨ q'.stage = .restore c → u.token c = none := by
  intro q' hq' c hstage
  -- the token of `c` changes only by the request that works on `c`
  have hkept : s.token c = none → q.stage ≠ .login c → q.stage ≠ .restore c → u.token c = none := by
    intro hnone hlogin hrestore
    cases htok : u.token c with
    | none => rfl
    | some tok =>
      rcases hm.token_next htok with htok | ⟨hst, -⟩ | ⟨hst, -⟩
      · rw [hnone] at htok
        cases htok
      · exact absurd hst hlogin
      · exact absurd hst hrestore
  rcases new_or_other h.owned hq hm hq' hstage with ⟨hst, hc⟩ | ⟨hold, hother⟩
  · exact hkept (token_of_created hc) (by rw [hst]; exact nofun) (by rw [hst]; exact nofun)
  · exact hkept (h.fresh q' hold c hstage) (hother _ rfl) (hother _ rfl)

theorem idle_move {s u : State} {r : Nat} {q : Request} {m : Move} {stage : Stage}
    (h : SyncInv s) (hq : s.requests[r]? = some q) (hm : Moves s q.kind q.stage m u stage) :
    ∀ q' ∈ s.requests.set r ⟨q.kind, stage⟩, ∀ c,
      q'.stage = .install c ∨ q'.stage = .restore c → u.syncing c = false := by
  intro q' hq' c hstage
  have hkept : s.syncing c = false → q.stage ≠ .startSync c → u.syncing c = false := by
    intro hidle hne
    refine Bool.eq_false_iff.mpr fun hsync => ?_
    rcases hm.syncing_next hsync with hsync | hst
    · rw [hidle] at hsync
      cases hsync
    · exact hne hst
  rcases new_or_other h.owned hq hm hq' hstage with ⟨hst, hc⟩ | ⟨hold, hother⟩
  · exact hkept (syncing_of_created hc) (by rw [hst]; exact nofun)
  · exact hkept (h.idle q' hold c hstage) (hother _ rfl)

theorem loops_move {s u : State} {q : Request} {m : Move} {stage : Stage} (h : SyncInv s)
    (hq : q ∈ s.requests) (hm : Moves s q.kind q.stage m u stage) :
    ∀ l ∈ u.loops, u.syncing l.ctx = true := by
  intro l hl
  rcases hm.loops_next hl with hl | ⟨c, hst, rfl⟩
  · exact hm.syncing_mono (h.loops l hl)
  · have hlt := h.bounds.stage q hq c (by rw [hst]; rfl)
    generalize q.stage = st at hm hst
    generalize q.kind = kind at hm
    subst hst
    cases hm
    rw [State.syncing_startSync, if_pos rfl, List.getElem?_eq_getElem hlt]
    rfl

/-- A context comes to `MatrixClientInner` without a session, or by way of `settle`. -/
theorem live_next {s u : State} {r : Nat} {q : Request} {m : Move} {stage : Stage} {c : Nat}
    (hq : s.requests[r]? = some q) (hm : Moves s q.kind q.stage m u stage)
    (hlive : Live { u with requests := s.requests.set r ⟨q.kind, stage⟩ } c) :
    Live s c ∨ q.stage = .install c ∨ ∃ loggedIn, stage = .settle c loggedIn := by
  have hmem := List.mem_of_getElem? hq
  rcases hlive with hc | ⟨q', hq', loggedIn, hst⟩
  · rcases hm.current_next hc with hc | ⟨hctx, hnone⟩
    · exact Or.inl (Or.inl hc)
    · generalize hst : q.stage = st at hm hctx
      generalize q.kind = kind at hm
      cases hm with
      | install =>
        cases hctx
        exact Or.inr (Or.inl rfl)
      | settle | settleLoggedIn | lost =>
        cases hctx
        exact Or.inl (Or.inr ⟨q, hmem, _, hst⟩)
      | _ => exact Or.inl (Or.inl hc)
  · rcases mem_set_cases hq' with rfl | hq'
    · exact Or.inr (Or.inr ⟨loggedIn, hst⟩)
    · exact Or.inl (Or.inr ⟨q', hq', loggedIn, hst⟩)

theorem covered_move {s u : State} {r : Nat} {q : Request} {m : Move} {stage : Stage}
    (h : SyncInv s) (hok : FailsUnaccepted s (.move r m)) (hq : s.requests[r]? = some q)
    (hm : Moves s q.kind q.stage m u stage) (c : Nat)
    (hlive : Live { u with requests := s.requests.set r ⟨q.kind, stage⟩ } c)
    (hacc : u.Accepted c) :
    Covered { u with requests := s.requests.set r ⟨q.kind, stage⟩ } c := by
  have hmem := List.mem_of_getElem? hq
  have hlen : r < s.requests.length := (List.getElem?_eq_some_iff.mp hq).1
  have hself : ⟨q.kind, stage⟩ ∈ s.requests.set r ⟨q.kind, stage⟩ := List.mem_set hlen _
  rcases hm.accepted_next h.bounds hacc with hacc | hafter
  swap
  · exact Or.inr ⟨_, hself, hafter⟩
  -- when the moving request has logged `c` in, it goes on, or `c` is dropped
  have hmover : q.stage.afterLogin = true → q.stage.ctx = some c →
      Covered { u with requests := s.requests.set r ⟨q.kind, stage⟩ } c ∨
        q.kind = .initialization ∧ stage = .done := by
    intro ha hc
    rcases hm.afterLogin_next ha hc (h.bounds.stage q hmem c hc) with hn | hn | hn | hn
    · exact Or.inl (Or.inr ⟨_, hself, hn⟩)
    · exact Or.inl (Or.inl hn)
    · exact absurd hacc (hok q hq c hc hn)
    · exact Or.inr hn
  rcases live_next hq hm hlive with hold | hst | ⟨loggedIn, rfl⟩
  · rcases h.covered c hold hacc with hsync | ⟨q', hq', ha, hc⟩
    · exact Or.inl (hm.syncing_mono hsync)
    · obtain ⟨j, hj⟩ := List.mem_iff_getElem?.mp hq'
      by_cases hjr : j = r
      · subst hjr
        obtain rfl : q = q' := by
          rw [hq] at hj
          exact Option.some.inj hj
        rcases hmover ha hc with hcov | ⟨hk, -⟩
        · exact hcov
        · have howns : q.Owns c := ⟨hc, Or.inl hk⟩
          rcases hold with hcur | ⟨q', hq', loggedIn, hst⟩
          · exact absurd hcur (h.owned.current j q c hq howns)
          · obtain ⟨j', hj'⟩ := List.mem_iff_getElem?.mp hq'
            have hjj := h.owned.alone j j' q q' c hq howns hj' (by rw [hst]; rfl)
            rw [hjj, hq] at hj'
            cases hj'
            rw [hst] at ha
            cases ha
      · have hstays : q' ∈ s.requests.set r ⟨q.kind, stage⟩ :=
          List.mem_iff_getElem?.mpr ⟨j, (List.getElem?_set_ne (Ne.symm hjr)).trans hj⟩
        exact Or.inr ⟨q', hstays, ha, hc⟩
  · exact absurd hacc (not_accepted_of_token_none (h.fresh q hmem c (Or.inl hst)))
  · rcases hm.to_settle with hst | ⟨ha, hc⟩
    · exact absurd hacc (not_accepted_of_token_none (h.fresh q hmem c (Or.inr hst)))
    · rcases hmover ha hc with hcov | ⟨-, hst⟩
      · exact hcov
      · cases hst

/-- A loop changes the token of its own client only, which syncs. -/
theorem LoopMoves.accepted_next {s u : State} {c d : Nat} {unavailable unavailable' : Bool}
    {phase phase' : LoopPhase} {m : LoopMove} (hb : Bounds s)
    (hm : LoopMoves s c unavailable phase m u unavailable' phase') (h : u.Accepted d) :
    s.Accepted d ∨ c = d := by
  obtain ⟨tok, htok, hacc⟩ := h
  rcases hm.token_next htok with hold | ⟨hc, -⟩
  · left
    refine ⟨tok, hold, ?_⟩
    cases hm with
    | refreshed =>
      rcases List.mem_append.mp hacc with hacc | hacc
      · exact hacc
      · exact absurd (List.mem_singleton.mp hacc) (Nat.ne_of_lt (hb.token d tok hold))
    | synced | back | connectionError | failed | saved | saveFailed => exact hacc
  · exact Or.inr hc

theorem syncInv_loop {s u : State} {i c : Nat} {unavailable unavailable' : Bool}
    {phase phase' : LoopPhase} {m : LoopMove} (h : SyncInv s)
    (hl : s.loops[i]? = some ⟨c, unavailable, phase⟩)
    (hm : LoopMoves s c unavailable phase m u unavailable' phase')
    (hb : Bounds { u with loops := s.loops.set i ⟨c, unavailable', phase'⟩ })
    (ho : Private { u with loops := s.loops.set i ⟨c, unavailable', phase'⟩ }) :
    SyncInv { u with loops := s.loops.set i ⟨c, unavailable', phase'⟩ } := by
  obtain ⟨-, hcurrent, hrequests, -, -, hsyncing⟩ := hm.keeps
  have hsync : s.syncing c = true := h.loops _ (List.mem_of_getElem? hl)
  refine ⟨hb, ho, fun q hq d hst => ?_, fun q hq d hst => ?_, fun l hl' => ?_, ?_⟩
  · rw [hrequests] at hq
    cases htok : u.token d with
    | none => exact htok
    | some tok =>
      rcases hm.token_next htok with hold | ⟨rfl, -⟩
      · rw [h.fresh q hq d hst] at hold
        cases hold
      · rw [h.idle q hq c hst] at hsync
        cases hsync
  · rw [hrequests] at hq
    exact (hsyncing d).trans (h.idle q hq d hst)
  · rcases mem_set_cases hl' with rfl | hl'
    · exact (hsyncing c).trans hsync
    · exact (hsyncing l.ctx).trans (h.loops l hl')
  · intro d hlive hacc
    rcases hm.accepted_next h.bounds hacc with hacc | rfl
    · have hlive : Live s d := by
        rcases hlive with hd | ⟨q, hq, hst⟩
        · exact Or.inl (hcurrent.symm.trans hd)
        · exact Or.inr ⟨q, hrequests ▸ hq, hst⟩
      rcases h.covered d hlive hacc with hsync | ⟨q, hq, hafter⟩
      · exact Or.inl ((hsyncing d).trans hsync)
      · exact Or.inr ⟨q, hrequests.symm ▸ hq, hafter⟩
    · exact Or.inl ((hsyncing c).trans hsync)

theorem syncInv_step {s t : State} {a : Action} (h : SyncInv s) (hok : FailsUnaccepted s a)
    (hstep : loginSystem.step s a = some t) : SyncInv t := by
  have hstep : step s a = some t := hstep
  have hb := bounds_step h.bounds hstep
  have ho := private_step h.bounds h.owned hstep
  cases a with
  | request kind =>
    cases hstep
    have hnew : ∀ q ∈ s.requests ++ [⟨kind, .check⟩], q ∈ s.requests ∨ q.stage = .check := by
      intro q hq
      rcases List.mem_append.mp hq with hq | hq
      · exact Or.inl hq
      · exact Or.inr (by rw [List.mem_singleton.mp hq])
    refine ⟨hb, ho, fun q hq c hst => ?_, fun q hq c hst => ?_, h.loops, fun c hlive hacc => ?_⟩
    · rcases hnew q hq with hq | hcheck
      · exact h.fresh q hq c hst
      · rw [hcheck] at hst
        rcases hst with hst | hst <;> cases hst
    · rcases hnew q hq with hq | hcheck
      · exact h.idle q hq c hst
      · rw [hcheck] at hst
        rcases hst with hst | hst <;> cases hst
    · have hlive : Live s c := by
        rcases hlive with hc | ⟨q, hq, loggedIn, hst⟩
        · exact Or.inl hc
        · rcases hnew q hq with hq | hcheck
          · exact Or.inr ⟨q, hq, loggedIn, hst⟩
          · rw [hcheck] at hst
            cases hst
      rcases h.covered c hlive hacc with hsync | ⟨q, hq, ha⟩
      · exact Or.inl hsync
      · exact Or.inr ⟨q, List.mem_append_left _ hq, ha⟩
  | move r m =>
    obtain ⟨q, u, stage, hq, hm, rfl⟩ := step_move_inv hstep
    have hfresh := fresh_move h hq hm
    have hidle := idle_move h hq hm
    have hloops := loops_move h (List.mem_of_getElem? hq) hm
    exact ⟨hb, ho, hfresh, hidle, hloops, covered_move h hok hq hm⟩
  | loop i m =>
    obtain ⟨c, unavailable, phase, u, unavailable', phase', hl, hm, rfl⟩ := step_loop_inv hstep
    exact syncInv_loop h hl hm hb ho
  | revoke tok =>
    cases hstep
    refine ⟨hb, ho, h.fresh, h.idle, h.loops, ?_⟩
    rintro c hlive ⟨tok', htok, hacc⟩
    exact h.covered c hlive ⟨tok', htok, (List.mem_filter.mp hacc).1⟩

/-! ## Runs -/

/-- In every run in which the failures after a login happen only to clients whose token is not
    accepted, or drop the client, an accepted client syncs as soon as no request is running. -/
theorem syncs_when_accepted (stored valid : Bool) (as : List Action) (t : State)
    (hok : loginSystem.Meets FailsUnaccepted (State.start stored valid) as)
    (hrun : loginSystem.run (State.start stored valid) as = some t) : SyncsWhenAccepted t := by
  have hinv : SyncInv t :=
    System.inv_of_run _ (fun s a t hs ha hstep => syncInv_step hs ha hstep)
      (syncInv_start stored valid) hok hrun
  exact hinv.syncsWhenAccepted

/-- A first start without a stored session, and the start of a password login. -/
def startAndLogin : List Action :=
  [.request .initialization, .move 0 .beginInitialization, .move 0 (.createContext true),
    .move 0 (.restore .noFile), .move 0 .settle, .request .usernamePassword,
    .move 1 (.whoami .unauthorized), .move 1 (.removeData true true), .move 1 (.createContext true),
    .move 1 .install, .move 1 .capture, .move 1 (.login true)]

/-- Saving succeeds, the token is revoked, and the initial sync fails; a second login succeeds. -/
def failedThenLogin : List Action :=
  startAndLogin ++ [.move 1 (.save true), .revoke 1, .move 1 (.initialSync .otherError),
    .request .sso, .move 2 (.whoami .unauthorized), .move 2 (.removeData true true),
    .move 2 (.createContext true), .move 2 .install, .move 2 .capture, .move 2 (.login true),
    .move 2 (.save true), .move 2 (.initialSync .ok), .move 2 (.verification true),
    .move 2 .startSync, .move 2 .report]

theorem syncs_when_accepted_after_failure : SyncsWhenAccepted
    { clients := [⟨none, false⟩, ⟨some 1, false⟩, ⟨some 2, true⟩], current := some 2
      authFile := some 2, accepted := [2], issued := 3
      requests := [⟨.initialization, .done⟩, ⟨.usernamePassword, .done⟩, ⟨.sso, .done⟩]
      loops := [⟨2, false, .syncing⟩]
      logins := [⟨2, some 2, some 2, some 2⟩] } :=
  syncs_when_accepted false false failedThenLogin _ (by decide +kernel) (by decide +kernel)

/-- The session file cannot be written after a password login. A further login ends at
    `is_logged_in`, and nothing syncs. -/
theorem failed_save_leaves_login :
    ∃ t, loginSystem.run (State.start false false) (startAndLogin ++ [.move 1 (.save false),
        .request .usernamePassword, .move 2 (.whoami .ok)]) = some t ∧ ¬ SyncsWhenAccepted t :=
  ⟨{ clients := [⟨none, false⟩, ⟨some 1, false⟩], current := some 1
     authFile := none, accepted := [1], issued := 2
     requests := [⟨.initialization, .done⟩, ⟨.usernamePassword, .done⟩, ⟨.usernamePassword, .done⟩]
     loops := []
     logins := [] }, by decide +kernel, by decide +kernel⟩

end GoudaMatrix.Login
