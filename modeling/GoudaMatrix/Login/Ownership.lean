/-
  What any run of the login system keeps, whatever fails: every context index and every token
  in use has been handed out (`Bounds`), and a context that a request has created is its own
  until it is stored in `MatrixClientInner` (`Private`). A login owns its context up to
  `install`, after which it works on whatever context it captures; an `initialize` owns its
  context to the end.
-/
import GoudaMatrix.Login.Model

namespace GoudaMatrix.Login

open GoudaMatrix.Lib

/-! ## Stages of a kind -/

/-- `stage` occurs in requests of this kind. -/
def Kind.Allows (kind : Kind) : Stage → Prop
  | .restore _ | .settle _ _ => kind = .initialization
  | .removeData | .install _ | .capture | .login _ | .save _ _ | .report _ => kind ≠ .initialization
  | _ => True

theorem allows_syncFailed (kind : Kind) (c : Nat) (network : Bool) :
    kind.Allows (syncFailed kind c network) := by
  cases kind <;> cases network <;> trivial

theorem ctx_syncFailed {kind : Kind} {c d : Nat} {network : Bool}
    (h : (syncFailed kind c network).ctx = some d) : c = d := by
  cases kind <;> cases network <;> cases h
  rfl

theorem Moves.allows {s t : State} {kind : Kind} {stage stage' : Stage} {m : Move}
    (h : Moves s kind stage m t stage') (hk : kind.Allows stage) : kind.Allows stage' := by
  cases h with
  | whoamiFails _ _ hne => exact hne
  | created | startSync =>
    split
    · assumption
    · assumption
  | syncNetwork | syncFailed | verifyFailed => exact allows_syncFailed _ _ _
  | install | capture | login => exact hk
  | notRestored => exact hk
  | whoamiEnds | beginInitialization | initialized | removed | removeFailed | createFailed
  | loginFailed | restoreNetwork | restored | saved | saveFailed | synced | verified | report
  | settle | settleLoggedIn | lost => trivial

/-- The context is the request's own: no other request knows it. -/
def Request.Owns (q : Request) (c : Nat) : Prop :=
  q.stage.ctx = some c ∧ (q.kind = .initialization ∨ q.stage = .install c)

/-! ## The invariants -/

structure Bounds (s : State) : Prop where
  stage : ∀ q ∈ s.requests, ∀ c, q.stage.ctx = some c → c < s.clients.length
  current : ∀ c, s.current = some c → c < s.clients.length
  token : ∀ c tok, s.token c = some tok → tok < s.issued
  authFile : ∀ tok, s.authFile = some tok → tok < s.issued
  save : ∀ q ∈ s.requests, ∀ c tok, q.stage = .save c tok → tok < s.issued
  loop : ∀ l ∈ s.loops, l.ctx < s.clients.length
  saving : ∀ l ∈ s.loops, ∀ tok, l.phase = .saving tok → tok < s.issued

/-- What the requests own, among the requests and against `MatrixClientInner`. -/
structure Private (s : State) : Prop where
  kinds : ∀ q ∈ s.requests, q.kind.Allows q.stage
  current : ∀ (r : Nat) (q : Request) (c : Nat), s.requests[r]? = some q → q.Owns c →
    s.current ≠ some c
  alone : ∀ (r r' : Nat) (q q' : Request) (c : Nat), s.requests[r]? = some q → q.Owns c →
    s.requests[r']? = some q' → q'.stage.ctx = some c → r' = r

theorem Moves.length_le {s t : State} {kind : Kind} {stage stage' : Stage} {m : Move}
    (h : Moves s kind stage m t stage') : s.clients.length ≤ t.clients.length := by
  cases h <;> simp [State.modifyClient, State.issue, State.startSync, State.sendLoggedIn]

theorem Moves.issued_le {s t : State} {kind : Kind} {stage stage' : Stage} {m : Move}
    (h : Moves s kind stage m t stage') : s.issued ≤ t.issued := by
  cases h <;> simp [State.modifyClient, State.issue, State.startSync, State.sendLoggedIn]

/-- The context of the next stage is the one of this stage, the current one, or a new one. -/
theorem Moves.ctx_next {s t : State} {kind : Kind} {stage stage' : Stage} {m : Move} {c : Nat}
    (h : Moves s kind stage m t stage') (hc : stage'.ctx = some c) :
    stage.ctx = some c ∨ stage = .capture ∧ s.current = some c ∨
      c = s.clients.length ∧ t.clients.length = s.clients.length + 1 := by
  cases h with
  | syncNetwork | syncFailed | verifyFailed => exact Or.inl (congrArg some (ctx_syncFailed hc))
  | created =>
    right; right
    split at hc <;> cases hc <;> simp
  | capture _ d hd =>
    cases hc
    exact Or.inr (Or.inl ⟨rfl, hd⟩)
  | startSync =>
    left
    split at hc <;> exact hc
  | whoamiEnds | whoamiFails | beginInitialization | initialized | removed | removeFailed
  | createFailed | install | loginFailed | restoreNetwork | saveFailed | report | settle
  | settleLoggedIn | lost => cases hc
  | login | notRestored | restored | saved | synced | verified => exact Or.inl hc

/-- A context becomes current by the request that works on it. -/
theorem Moves.current_next {s t : State} {kind : Kind} {stage stage' : Stage} {m : Move} {c : Nat}
    (h : Moves s kind stage m t stage') (hc : t.current = some c) :
    s.current = some c ∨ stage.ctx = some c ∧ stage'.ctx = none := by
  cases h with
  | install | settle | settleLoggedIn => exact Or.inr ⟨hc, rfl⟩
  | _ => exact Or.inl hc

theorem Moves.token_next {s t : State} {kind : Kind} {stage stage' : Stage} {m : Move} {c : Nat}
    {tok : Token} (h : Moves s kind stage m t stage') (ht : t.token c = some tok) :
    s.token c = some tok ∨ stage = .login c ∧ tok = s.issued ∧ stage' = .save c tok ∨
      stage = .restore c ∧ s.authFile = some tok := by
  cases h with
  | created => exact Or.inl ((s.token_append c).symm.trans ht)
  | login _ d =>
    rw [State.token_issue] at ht
    split at ht
    · next hd =>
      obtain ⟨client, -, rfl⟩ := Option.map_eq_some_iff.mp ht
      exact Or.inr (Or.inl ⟨hd ▸ rfl, rfl, hd ▸ rfl⟩)
    · exact Or.inl ht
  | restored _ d tok' hf =>
    rw [State.token_modifyClient] at ht
    split at ht
    · next hd =>
      obtain ⟨client, -, htok⟩ := Option.bind_eq_some_iff.mp ht
      cases htok
      exact Or.inr (Or.inr ⟨hd ▸ rfl, hf⟩)
    · exact Or.inl ht
  | startSync _ d => exact Or.inl ((s.token_startSync d c).symm.trans ht)
  | _ => exact Or.inl ht

theorem Moves.authFile_next {s t : State} {kind : Kind} {stage stage' : Stage} {m : Move}
    {tok : Token} (h : Moves s kind stage m t stage') (ht : t.authFile = some tok) :
    s.authFile = some tok ∨ ∃ c, stage = .save c tok := by
  cases h with
  | removed => cases ht
  | removeFailed _ deleted =>
    left
    cases deleted with
    | false => exact ht
    | true => cases ht
  | saved _ c tok' =>
    cases ht
    exact Or.inr ⟨c, rfl⟩
  | _ => exact Or.inl ht

theorem Moves.of_save {s t : State} {kind : Kind} {stage : Stage} {m : Move} {c : Nat} {tok : Token}
    (h : Moves s kind stage m t (.save c tok)) :
    stage = .login c ∧ tok = s.issued ∧ t.issued = s.issued + 1 ∧ m = .login true := by
  generalize hs : Stage.save c tok = stage' at h
  cases h with
  | login =>
    cases hs
    exact ⟨rfl, rfl, rfl, rfl⟩
  | created | startSync => split at hs <;> cases hs
  | syncNetwork | syncFailed | verifyFailed => cases kind <;> cases hs
  | _ => cases hs

theorem Moves.of_install {s t : State} {kind : Kind} {stage : Stage} {m : Move} {c : Nat}
    (h : Moves s kind stage m t (.install c)) :
    kind ≠ .initialization ∧ stage = .createContext ∧ c = s.clients.length := by
  generalize hs : Stage.install c = stage' at h
  cases h with
  | created =>
    split at hs
    · cases hs
    · cases hs
      exact ⟨‹_›, rfl, rfl⟩
  | startSync => split at hs <;> cases hs
  | syncNetwork | syncFailed | verifyFailed => cases kind <;> cases hs
  | _ => cases hs

theorem Moves.current_of_ctx {s t : State} {kind : Kind} {stage stage' : Stage} {m : Move}
    {c : Nat} (h : Moves s kind stage m t stage') (hc : stage'.ctx = some c) :
    t.current = s.current := by
  cases h with
  | install | settle | settleLoggedIn => cases hc
  | _ => rfl

/-- A request spawns a loop for its context. -/
theorem Moves.loops_next {s t : State} {kind : Kind} {stage stage' : Stage} {m : Move}
    {l : SyncLoop} (h : Moves s kind stage m t stage') (hl : l ∈ t.loops) :
    l ∈ s.loops ∨ ∃ c, stage = .startSync c ∧ l = ⟨c, false, .syncing⟩ := by
  cases h with
  | startSync _ c =>
    rcases List.mem_append.mp hl with hl | hl
    · exact Or.inl hl
    · exact Or.inr ⟨c, rfl, List.mem_singleton.mp hl⟩
  | _ => exact Or.inl hl

/-! ## Loops -/

section Loops

variable {s t : State} {c : Nat} {unavailable unavailable' : Bool} {phase phase' : LoopPhase}
  {m : LoopMove}

/-- What no loop changes. -/
theorem LoopMoves.keeps (h : LoopMoves s c unavailable phase m t unavailable' phase') :
    t.clients.length = s.clients.length ∧ t.current = s.current ∧ t.requests = s.requests ∧
      t.loops = s.loops ∧ s.issued ≤ t.issued ∧ ∀ d, t.syncing d = s.syncing d := by
  cases h with
  | refreshed =>
    exact ⟨List.length_modify _ _ _, rfl, rfl, rfl, Nat.le_succ _, s.syncing_issue c⟩
  | synced | back | connectionError | failed | saved | saveFailed =>
    exact ⟨rfl, rfl, rfl, rfl, Nat.le_refl _, fun _ => rfl⟩

theorem LoopMoves.token_next (h : LoopMoves s c unavailable phase m t unavailable' phase') {d : Nat}
    {tok : Token} (ht : t.token d = some tok) :
    s.token d = some tok ∨
      c = d ∧ tok = s.issued ∧ t.issued = s.issued + 1 ∧ phase' = .saving tok := by
  cases h with
  | refreshed =>
    rw [State.token_issue] at ht
    split at ht
    · next hd =>
      obtain ⟨client, -, rfl⟩ := Option.map_eq_some_iff.mp ht
      exact Or.inr ⟨hd, rfl, rfl, rfl⟩
    · exact Or.inl ht
  | synced | back | connectionError | failed | saved | saveFailed => exact Or.inl ht

theorem LoopMoves.authFile_next (h : LoopMoves s c unavailable phase m t unavailable' phase')
    {tok : Token} (ht : t.authFile = some tok) : s.authFile = some tok ∨ phase = .saving tok := by
  cases h with
  | saved _ tok' => exact Or.inr (congrArg _ (Option.some.inj ht))
  | synced | back | connectionError | failed | refreshed | saveFailed => exact Or.inl ht

theorem LoopMoves.of_saving {tok : Token}
    (h : LoopMoves s c unavailable phase m t unavailable' (.saving tok)) :
    m = .refreshed ∧ tok = s.issued ∧ t = s.issue c := by
  cases h
  exact ⟨rfl, rfl, rfl⟩

end Loops

/-- A request that owns the context of its next stage owned it before, or has just created it. -/
theorem Moves.owns_next {s t : State} {kind : Kind} {stage stage' : Stage} {m : Move} {c : Nat}
    (h : Moves s kind stage m t stage') (hk : kind.Allows stage)
    (ho : Request.Owns ⟨kind, stage'⟩ c) :
    Request.Owns ⟨kind, stage⟩ c ∨ c = s.clients.length := by
  obtain ⟨hc, hinit | hinstall⟩ := ho
  · rcases h.ctx_next hc with hc | ⟨rfl, -⟩ | ⟨rfl, -⟩
    · exact Or.inl ⟨hc, Or.inl hinit⟩
    · exact absurd hinit hk
    · exact Or.inr rfl
  · obtain rfl : stage' = .install c := hinstall
    exact Or.inr h.of_install.2.2

/-! ## Steps -/

theorem mem_set_cases {α : Type} {xs : List α} {i : Nat} {x y : α} (h : y ∈ xs.set i x) :
    y = x ∨ y ∈ xs := (List.mem_or_eq_of_mem_set h).symm

theorem getElem?_set_cases {α : Type} {xs : List α} {i j : Nat} {x y : α}
    (h : (xs.set i x)[j]? = some y) : j = i ∧ y = x ∨ j ≠ i ∧ xs[j]? = some y := by
  rw [List.getElem?_set] at h
  split at h
  · next hij =>
    split at h
    · cases h
      exact Or.inl ⟨hij.symm, rfl⟩
    · cases h
  · next hij => exact Or.inr ⟨fun hji => hij hji.symm, h⟩

theorem bounds_move {s u : State} {r : Nat} {q : Request} {m : Move} {stage : Stage}
    (h : Bounds s) (hq : s.requests[r]? = some q) (hm : Moves s q.kind q.stage m u stage) :
    Bounds { u with requests := s.requests.set r ⟨q.kind, stage⟩ } where
  stage := by
    intro q' hq' c hc
    rcases mem_set_cases hq' with rfl | hq'
    · rcases hm.ctx_next hc with hc | ⟨-, hc⟩ | ⟨rfl, hlen⟩
      · exact Nat.lt_of_lt_of_le (h.stage q (List.mem_of_getElem? hq) c hc) hm.length_le
      · exact Nat.lt_of_lt_of_le (h.current c hc) hm.length_le
      · exact hlen ▸ Nat.lt_succ_self _
    · exact Nat.lt_of_lt_of_le (h.stage q' hq' c hc) hm.length_le
  current := by
    intro c hc
    rcases hm.current_next hc with hc | ⟨hc, -⟩
    · exact Nat.lt_of_lt_of_le (h.current c hc) hm.length_le
    · exact Nat.lt_of_lt_of_le (h.stage q (List.mem_of_getElem? hq) c hc) hm.length_le
  token := by
    intro c tok ht
    rcases hm.token_next ht with ht | ⟨-, rfl, hsave⟩ | ⟨-, hf⟩
    · exact Nat.lt_of_lt_of_le (h.token c tok ht) hm.issued_le
    · subst hsave
      obtain ⟨-, -, hissued, -⟩ := hm.of_save
      exact hissued ▸ Nat.lt_succ_self _
    · exact Nat.lt_of_lt_of_le (h.authFile tok hf) hm.issued_le
  authFile := by
    intro tok ht
    rcases hm.authFile_next ht with ht | ⟨c, hc⟩
    · exact Nat.lt_of_lt_of_le (h.authFile tok ht) hm.issued_le
    · exact Nat.lt_of_lt_of_le (h.save q (List.mem_of_getElem? hq) c tok hc) hm.issued_le
  save := by
    intro q' hq' c tok hs
    rcases mem_set_cases hq' with rfl | hq'
    · obtain rfl : stage = .save c tok := hs
      obtain ⟨-, rfl, hissued, -⟩ := hm.of_save
      exact hissued ▸ Nat.lt_succ_self _
    · exact Nat.lt_of_lt_of_le (h.save q' hq' c tok hs) hm.issued_le
  loop := by
    intro l hl
    rcases hm.loops_next hl with hl | ⟨c, hst, rfl⟩
    · exact Nat.lt_of_lt_of_le (h.loop l hl) hm.length_le
    · exact Nat.lt_of_lt_of_le (h.stage q (List.mem_of_getElem? hq) c
        (by rw [hst]; rfl)) hm.length_le
  saving := by
    intro l hl tok hphase
    rcases hm.loops_next hl with hl | ⟨c, hst, rfl⟩
    · exact Nat.lt_of_lt_of_le (h.saving l hl tok hphase) hm.issued_le
    · cases hphase

theorem bounds_loop {s u : State} {i c : Nat} {unavailable unavailable' : Bool}
    {phase phase' : LoopPhase} {m : LoopMove} (h : Bounds s)
    (hl : s.loops[i]? = some ⟨c, unavailable, phase⟩)
    (hm : LoopMoves s c unavailable phase m u unavailable' phase') :
    Bounds { u with loops := s.loops.set i ⟨c, unavailable', phase'⟩ } := by
  obtain ⟨hlength, hcurrent, hrequests, -, hissued, -⟩ := hm.keeps
  have hmem := List.mem_of_getElem? hl
  refine ⟨?_, ?_, ?_, ?_, ?_, ?_, ?_⟩
  · dsimp only
    rw [hrequests, hlength]
    exact h.stage
  · dsimp only
    rw [hcurrent, hlength]
    exact h.current
  · intro d tok ht
    rcases hm.token_next ht with ht | ⟨-, rfl, hissued, -⟩
    · exact Nat.lt_of_lt_of_le (h.token d tok ht) hissued
    · exact hissued ▸ Nat.lt_succ_self _
  · intro tok ht
    rcases hm.authFile_next ht with ht | hphase
    · exact Nat.lt_of_lt_of_le (h.authFile tok ht) hissued
    · exact Nat.lt_of_lt_of_le (h.saving _ hmem tok hphase) hissued
  · intro q hq d tok hstage
    dsimp only at hq
    rw [hrequests] at hq
    exact Nat.lt_of_lt_of_le (h.save q hq d tok hstage) hissued
  · intro l hl'
    refine hlength ▸ ?_
    rcases mem_set_cases hl' with rfl | hl'
    · exact h.loop ⟨c, unavailable, phase⟩ hmem
    · exact h.loop l hl'
  · intro l hl' tok hphase
    rcases mem_set_cases hl' with rfl | hl'
    · obtain rfl : phase' = .saving tok := hphase
      obtain ⟨-, rfl, rfl⟩ := hm.of_saving
      exact Nat.lt_succ_self _
    · exact Nat.lt_of_lt_of_le (h.saving l hl' tok hphase) hissued

theorem private_move {s u : State} {r : Nat} {q : Request} {m : Move} {stage : Stage}
    (hb : Bounds s) (h : Private s) (hq : s.requests[r]? = some q)
    (hm : Moves s q.kind q.stage m u stage) :
    Private { u with requests := s.requests.set r ⟨q.kind, stage⟩ } := by
  have hmem := List.mem_of_getElem? hq
  refine ⟨?_, ?_, ?_⟩
  · intro q' hq'
    rcases mem_set_cases hq' with rfl | hq'
    · exact hm.allows (h.kinds q hmem)
    · exact h.kinds q' hq'
  · intro j q' c hj ho hc
    rcases getElem?_set_cases hj with ⟨rfl, rfl⟩ | ⟨hne, hj⟩
    · have hc : s.current = some c := (hm.current_of_ctx ho.1).symm.trans hc
      rcases hm.owns_next (h.kinds q hmem) ho with ho | rfl
      · exact h.current j q c hq ho hc
      · exact absurd (hb.current _ hc) (Nat.lt_irrefl _)
    · rcases hm.current_next hc with hc | ⟨hc, -⟩
      · exact h.current j q' c hj ho hc
      · exact hne (h.alone j r q' q c hj ho hq hc).symm
  · intro j j' q₁ q₂ c hj ho hj' hc
    rcases getElem?_set_cases hj with ⟨rfl, rfl⟩ | ⟨hne, hj₁⟩
    · rcases getElem?_set_cases hj' with ⟨rfl, rfl⟩ | ⟨hne', hj'⟩
      · rfl
      · rcases hm.owns_next (h.kinds q hmem) ho with ho | rfl
        · exact h.alone j j' q q₂ c hq ho hj' hc
        · exact absurd (hb.stage q₂ (List.mem_of_getElem? hj') _ hc) (Nat.lt_irrefl _)
    · rcases getElem?_set_cases hj' with ⟨rfl, rfl⟩ | ⟨hne', hj'⟩
      · rcases hm.ctx_next hc with hc | ⟨-, hc⟩ | ⟨rfl, -⟩
        · exact h.alone j j' q₁ q c hj₁ ho hq hc
        · exact absurd hc (h.current j q₁ c hj₁ ho)
        · exact absurd (hb.stage q₁ (List.mem_of_getElem? hj₁) _ ho.1) (Nat.lt_irrefl _)
      · exact h.alone j j' q₁ q₂ c hj₁ ho hj' hc

theorem bounds_start (stored valid : Bool) : Bounds (State.start stored valid) where
  stage := nofun
  current := nofun
  token := nofun
  authFile := by
    intro tok h
    cases stored <;> cases h
    exact Nat.zero_lt_one
  save := nofun
  loop := nofun
  saving := nofun

theorem private_start (stored valid : Bool) : Private (State.start stored valid) where
  kinds := nofun
  current := nofun
  alone := by
    intro r r' q q' c hq
    cases hq

theorem bounds_step {s t : State} {a : Action} (h : Bounds s) (hstep : step s a = some t) :
    Bounds t := by
  cases a with
  | request kind =>
    cases hstep
    refine ⟨fun q hq c hc => ?_, h.current, h.token, h.authFile, fun q hq c tok hs => ?_, h.loop,
      h.saving⟩
    · rcases List.mem_append.mp hq with hq | hq
      · exact h.stage q hq c hc
      · cases List.mem_singleton.mp hq
        cases hc
    · rcases List.mem_append.mp hq with hq | hq
      · exact h.save q hq c tok hs
      · cases List.mem_singleton.mp hq
        cases hs
  | move r m =>
    obtain ⟨q, u, stage, hq, hm, rfl⟩ := step_move_inv hstep
    exact bounds_move h hq hm
  | loop i m =>
    obtain ⟨c, unavailable, phase, u, unavailable', phase', hl, hm, rfl⟩ := step_loop_inv hstep
    exact bounds_loop h hl hm
  | revoke tok =>
    cases hstep
    exact ⟨h.stage, h.current, h.token, h.authFile, h.save, h.loop, h.saving⟩

theorem private_step {s t : State} {a : Action} (hb : Bounds s) (h : Private s)
    (hstep : step s a = some t) : Private t := by
  cases a with
  | request kind =>
    have hold : ∀ (r : Nat) (q : Request) (c : Nat),
        (s.requests ++ [⟨kind, .check⟩])[r]? = some q → q.stage.ctx = some c →
        s.requests[r]? = some q := by
      intro r q c hr hc
      rcases Nat.lt_or_ge r s.requests.length with hlt | hge
      · rwa [List.getElem?_append_left hlt] at hr
      · rw [List.getElem?_append_right hge, List.getElem?_singleton] at hr
        split at hr
        · cases hr
          cases hc
        · cases hr
    cases hstep
    refine ⟨fun q hq => ?_, fun r q c hr ho => ?_, fun r r' q q' c hr ho hr' hc => ?_⟩
    · rcases List.mem_append.mp hq with hq | hq
      · exact h.kinds q hq
      · cases List.mem_singleton.mp hq
        trivial
    · exact h.current r q c (hold r q c hr ho.1) ho
    · exact h.alone r r' q q' c (hold r q c hr ho.1) ho (hold r' q' c hr' hc) hc
  | move r m =>
    obtain ⟨q, u, stage, hq, hm, rfl⟩ := step_move_inv hstep
    exact private_move hb h hq hm
  | loop i m =>
    obtain ⟨c, unavailable, phase, u, unavailable', phase', hl, hm, rfl⟩ := step_loop_inv hstep
    obtain ⟨-, hcurrent, hrequests, -⟩ := hm.keeps
    obtain ⟨hkinds, hpriv, halone⟩ := h
    constructor
    · exact hrequests ▸ hkinds
    · dsimp only
      rw [hrequests, hcurrent]
      exact hpriv
    · exact hrequests ▸ halone
  | revoke tok =>
    cases hstep
    exact ⟨h.kinds, h.current, h.alone⟩

end GoudaMatrix.Login
