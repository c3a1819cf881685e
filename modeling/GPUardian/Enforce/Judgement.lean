import GPUardian.Enforce.Growth

/-! What enforcement decides about a process on a reserved GPU: the decision is the one that
the answers about the eligible authorizations call for. -/
namespace GPUardian

open GoStrings List Option

namespace Authorizer

variable {a : Authorizer} {awaiting : Int → Nat → Bool}

section Answers

variable [Unicode]

/-- The answers that the loop of `matchAnyAuthorization` gets about the eligible
authorizations from index `i` on, if it asks about all of them. -/
def scopeAnswers (a : Authorizer) (site : Site) (tokens : List Token) (info : ProcInfo)
    (tokenFilter : Option (String → Bool)) (tokenMode : String) (now : Time) :
    Nat → List Authorization → List (Except String Bool)
  | _, [] => []
  | i, row :: rest =>
    if (eligibleToken tokens tokenFilter tokenMode now row).isSome then
      a.authorizationScopeMatchesForEviction (site ++ [i]) row info ::
        a.scopeAnswers site tokens info tokenFilter tokenMode now (i + 1) rest
    else a.scopeAnswers site tokens info tokenFilter tokenMode now (i + 1) rest

/-- What a result of `matchAnyAuthorization` says about the answers, and about the errors it
has collected before. -/
inductive Concludes (errors : List String) (answers : List (Except String Bool)) :
    Except (List String) (Option Authorization) → Prop
  | found {authorization : Authorization} (hMatch : .ok true ∈ answers) :
      Concludes errors answers (.ok (some authorization))
  | absent (hErrors : errors = []) (hAll : ∀ answer ∈ answers, answer = .ok false) :
      Concludes errors answers (.ok none)
  | unknown {texts : List String} (hNone : .ok true ∉ answers)
      (hFailed : errors ≠ [] ∨ ∃ text, .error text ∈ answers) :
      Concludes errors answers (.error texts)

omit [Unicode] in
/-- A failed lookup is kept, so the loop cannot end in the answer that nothing matches. -/
theorem Concludes.after_error {errors : List String} {answers : List (Except String Bool)}
    {result : Except (List String) (Option Authorization)} {text : String}
    (h : Concludes (errors ++ [text]) answers result) :
    Concludes errors (.error text :: answers) result := by
  cases h with
  | found hMatch => exact .found (mem_cons_of_mem _ hMatch)
  | absent hErrors _ => exact absurd hErrors (by simp)
  | unknown hNone _ => exact .unknown (by simpa using hNone) (.inr ⟨text, mem_cons_self⟩)

omit [Unicode] in
theorem Concludes.after_no {errors : List String} {answers : List (Except String Bool)}
    {result : Except (List String) (Option Authorization)} (h : Concludes errors answers result) :
    Concludes errors (.ok false :: answers) result := by
  cases h with
  | found hMatch => exact .found (mem_cons_of_mem _ hMatch)
  | absent hErrors hAll => exact .absent hErrors (by simpa using hAll)
  | unknown hNone hFailed => exact .unknown (by simpa using hNone) (by simpa using hFailed)

variable {site : Site} {tokens : List Token} {info : ProcInfo}
  {tokenFilter : Option (String → Bool)} {tokenMode : String} {now : Time}

/-- The answers are those for the eligible authorizations. -/
theorem mem_scopeAnswers {rows : List Authorization} {i : Nat} {answer : Except String Bool} :
    answer ∈ a.scopeAnswers site tokens info tokenFilter tokenMode now i rows ↔
      ∃ k row, rows[k]? = some row ∧
        (eligibleToken tokens tokenFilter tokenMode now row).isSome = true ∧
        a.authorizationScopeMatchesForEviction (site ++ [i + k]) row info = answer := by
  induction rows generalizing i with
  | nil => simp [scopeAnswers]
  | cons first rows ih =>
    have hSplit : (∃ k row, (first :: rows)[k]? = some row ∧
        (eligibleToken tokens tokenFilter tokenMode now row).isSome = true ∧
        a.authorizationScopeMatchesForEviction (site ++ [i + k]) row info = answer) ↔
        ((eligibleToken tokens tokenFilter tokenMode now first).isSome = true ∧
          a.authorizationScopeMatchesForEviction (site ++ [i]) first info = answer) ∨
        answer ∈ a.scopeAnswers site tokens info tokenFilter tokenMode now (i + 1) rows := by
      rw [ih]
      constructor
      · rintro ⟨k, row, hRow, hEligible, hAnswer⟩
        cases k with
        | zero =>
          obtain rfl : first = row := by simpa using hRow
          exact .inl ⟨hEligible, hAnswer⟩
        | succ k =>
          refine .inr ⟨k, row, by simpa using hRow, hEligible, ?_⟩
          rwa [Nat.add_assoc, Nat.add_comm 1 k]
      · rintro (⟨hEligible, hAnswer⟩ | ⟨k, row, hRow, hEligible, hAnswer⟩)
        · exact ⟨0, first, rfl, hEligible, hAnswer⟩
        · refine ⟨k + 1, row, by simpa using hRow, hEligible, ?_⟩
          rwa [Nat.add_assoc, Nat.add_comm 1 k] at hAnswer
    rw [hSplit, scopeAnswers]
    split
    · rename_i hEligible
      simp [hEligible, eq_comm]
    · rename_i hEligible
      simp [hEligible]

/-- Unless it is cancelled, the matching loop draws the right conclusion. -/
theorem matchAuthorizations_concludes (hRunning : a.Running) (site : Site)
    (tokens : List Token) (info : ProcInfo) (tokenFilter : Option (String → Bool))
    (tokenMode : String) (now : Time) (rows : List Authorization) (i : Nat)
    (errors : List String) :
    Concludes errors (a.scopeAnswers site tokens info tokenFilter tokenMode now i rows)
      (a.matchAuthorizations site tokens info tokenFilter tokenMode now i errors rows) := by
  induction rows generalizing i errors with
  | nil =>
    by_cases hErrors : errors = []
    · simp only [matchAuthorizations, hErrors, if_true, scopeAnswers]
      exact .absent rfl (by simp)
    · simp only [matchAuthorizations, hErrors, if_false, scopeAnswers]
      exact .unknown (by simp) (.inl hErrors)
  | cons row rows ih =>
    simp only [matchAuthorizations, hRunning, scopeAnswers]
    cases hToken : eligibleToken tokens tokenFilter tokenMode now row with
    | none =>
      simp only [isSome_none, Bool.false_eq_true, if_false]
      exact ih (i + 1) errors
    | some token =>
      simp only [isSome_some, if_true, scopeMatches_tokenMode]
      cases hAnswer : a.authorizationScopeMatchesForEviction (site ++ [i]) row info with
      | error text => exact (ih (i + 1) (errors ++ [text])).after_error
      | ok found =>
        cases found with
        | true => exact .found mem_cons_self
        | false => exact (ih (i + 1) errors).after_no

end Answers

section Reserved

variable [Unicode]

/-- An authorization that counts on a reserved GPU: it is live, its token holds one of the
active reservations there and is valid, and for a managed token the key version is right. -/
structure EligibleOn (state : State) (gpu : Int) (now : Time) (row : Authorization) : Prop where
  active : row.active = true
  unrevoked : row.revoked = false
  unexpired : authorizationExpired row now = false
  reserved : ∃ reservation ∈ activeReservationsForGPU state.reservations gpu now,
    reservation.tokenHash = row.tokenHash
  token : ∃ token, tokenByHash state.tokens row.tokenHash = some token ∧
    tokenActiveAt token now = true ∧ (token.managed = true → row.tokenVersion = token.version)

variable {state : State} {gpu : Int} {now : Time}

theorem eligibleToken_reserved {row : Authorization} :
    (eligibleToken state.tokens (some fun hash =>
      (activeReservationsForGPU state.reservations gpu now).any (·.tokenHash == hash)) "" now
        row).isSome = true ↔ EligibleOn state gpu now row := by
  constructor
  · intro h
    obtain ⟨token, hToken⟩ := isSome_iff_exists.mp h
    obtain ⟨hActive, hFilter, hFound, hLive, hVersion, _⟩ := eligibleToken_some hToken
    simp only [authorizationActiveAt, Bool.and_eq_true, Bool.not_eq_true'] at hActive
    refine ⟨hActive.1.1, hActive.1.2, hActive.2, ?_, token, hFound, hLive, hVersion⟩
    simpa using hFilter
  · rintro ⟨hActive, hUnrevoked, hUnexpired, ⟨reservation, hRow, hHash⟩, token, hFound, hLive,
      hVersion⟩
    have hNow : authorizationActiveAt row now = true := by
      simp [authorizationActiveAt, hActive, hUnrevoked, hUnexpired]
    have hFilter : ((activeReservationsForGPU state.reservations gpu now).any
        (·.tokenHash == row.tokenHash)) = true :=
      List.any_eq_true.mpr ⟨reservation, hRow, by simp [hHash]⟩
    have hKey : (token.managed && row.tokenVersion != token.version) = false := by
      cases hManaged : token.managed with
      | false => rfl
      | true => simp [hVersion hManaged]
    simp [eligibleToken, hNow, hFilter, hFound, hLive, hKey]

/-- An eligible authorization gives the answer about the process at a place of the pass. -/
def AnswersOn (a : Authorizer) (state : State) (gpu : Int) (now : Time) (site : Site)
    (info : ProcInfo) (answer : Except String Bool) : Prop :=
  ∃ k row, state.authorizations[k]? = some row ∧ EligibleOn state gpu now row ∧
    a.authorizationScopeMatchesForEviction (site ++ [k]) row info = answer

/-- What is decided about a process on a reserved GPU. It is denied exactly if every
eligible authorization answers that it does not match; it is allowed if one matches, and
skipped if none does and an answer is missing. -/
structure JudgedReserved (a : Authorizer) (awaiting : Int → Nat → Bool) (plan : Plan)
    (state : State) (gpu : Int) (now : Time) (site : Site) (view : ProcessView)
    (decision : Decision) : Prop where
  about : About view decision
  denied : a.Denied awaiting plan view decision ↔
    ∀ answer, a.AnswersOn state gpu now site view.info answer → answer = .ok false
  allowed : a.AnswersOn state gpu now site view.info (.ok true) → decision.action = .allow
  skipped : ¬ a.AnswersOn state gpu now site view.info (.ok true) →
    (∃ text, a.AnswersOn state gpu now site view.info (.error text)) → decision.action = .skip

/-- What a decision on a reserved GPU rests on. -/
theorem judgeHard_judges (hRunning : a.Running) (site : Site)
    (view : ProcessView) {plan : Plan} {decision : Decision}
    (h : a.Settles awaiting plan view
      (a.judgeHard state gpu (activeReservationsForGPU state.reservations gpu now) now site view)
      decision) :
    a.JudgedReserved awaiting plan state gpu now site view decision := by
  have hMem : ∀ answer, answer ∈ a.scopeAnswers site state.tokens view.info
      (some fun hash => (activeReservationsForGPU state.reservations gpu now).any
        (·.tokenHash == hash)) "" now 0 state.authorizations ↔
      a.AnswersOn state gpu now site view.info answer := by
    intro answer
    simp only [mem_scopeAnswers, eligibleToken_reserved, Nat.zero_add, AnswersOn]
  have hConcludes := matchAuthorizations_concludes hRunning site state.tokens view.info
    (some fun hash => (activeReservationsForGPU state.reservations gpu now).any
      (·.tokenHash == hash)) "" now state.authorizations 0 []
  unfold judgeHard matchAnyAuthorization at h
  dsimp only at h
  generalize a.matchAuthorizations site state.tokens view.info
    (some fun hash => (activeReservationsForGPU state.reservations gpu now).any
      (·.tokenHash == hash)) "" now 0 [] state.authorizations = result at h hConcludes
  cases hConcludes with
  | found hMatch =>
    obtain rfl : decision = _ := h
    have hYes := (hMem _).mp hMatch
    refine ⟨⟨rfl, rfl⟩, ⟨fun hDenied => ?_, fun hAll => ?_⟩, fun _ => rfl,
      fun hNo => absurd hYes hNo⟩
    · cases hDenied <;> contradiction
    · exact absurd (hAll _ hYes) (by simp)
  | absent _ hAll =>
    have hNo : ∀ answer, a.AnswersOn state gpu now site view.info answer → answer = .ok false :=
      fun answer hAnswer => hAll answer ((hMem answer).mpr hAnswer)
    refine ⟨h.2, ⟨fun _ => hNo, fun _ => h.1⟩, fun hYes => absurd (hNo _ hYes) (by simp), ?_⟩
    rintro _ ⟨text, hText⟩
    exact absurd (hNo _ hText) (by simp)
  | unknown hNone hFailed =>
    obtain rfl : decision = _ := h
    obtain ⟨text, hText⟩ := hFailed.resolve_left (by simp)
    refine ⟨⟨rfl, rfl⟩, ⟨fun hDenied => ?_, fun hAll => ?_⟩,
      fun hYes => absurd ((hMem _).mpr hYes) hNone, fun _ _ => rfl⟩
    · cases hDenied with
      | killed hAction _ => cases hAction
      | spent _ _ _ hReason => exact absurd hReason (by simp [skipDecision, budgetExhausted])
      | targeted _ _ _ hReason => exact absurd hReason (by simp [skipDecision])
    · exact absurd (hAll _ ((hMem _).mp hText)) (by simp)

theorem judgeHard_goes_on {reservations : List Reservation} (site : Site) (view : ProcessView)
    (errors : List String) :
    a.judgeHard state gpu reservations now site view ≠ .unresolved none errors := by
  unfold judgeHard
  dsimp only
  split <;> nofun

/-- In a pass that is not cancelled, the scan of a reserved GPU writes one decision for each
process that it has read there and that is not bypassed, and it is the right one. -/
theorem reserved_gpu_judged (hRunning : ∀ site, a.ctxErr site = none)
    (awaiting : Int → Nat → Bool) (state : State) (processes : List GPUProcess) (now : Time)
    (gpu : Int) (hReserved : activeReservationsForGPU state.reservations gpu now ≠ []) :
    ∃ before block after,
      (a.enforce awaiting state processes now).decisions = before ++ block ++ after ∧
      List.Forall₂ (fun entry decision =>
        a.JudgedReserved awaiting (a.enforce awaiting state processes now) state gpu now
          (a.gpuSite state now processes gpu ++ [entry.2]) entry.1 decision)
        (judged (a.sampledViews state now processes gpu) 0) block := by
  by_cases hNone : a.sampledViews state now processes gpu = []
  · rw [hNone]
    exact ⟨(a.enforce awaiting state processes now).decisions, [], [], by simp, .nil⟩
  · obtain ⟨before, hBefore, hExtends⟩ := enforce_visits hRunning awaiting state now processes hNone
    simp only [enforceGPU, if_pos hReserved, enforceHard] at hExtends
    obtain ⟨block, hBlock, hSettles⟩ := judgeViews_settles hRunning awaiting
      (a.gpuSite state now processes gpu) now (a.sampledViews state now processes gpu)
      (fun view _ site => judgeHard_goes_on site view) 0 hBefore
    obtain ⟨after, hAfter⟩ := hExtends.decisions
    refine ⟨before.decisions, block, after, ?_, hSettles.imp fun entry decision hHere => ?_⟩
    · rw [← hAfter, hBlock]
    · exact judgeHard_judges hRunning _ entry.1 (hHere.extend hExtends)

end Reserved

end Authorizer

section Samples

open scoped Plain

/-- GPU 1 is reserved. The key of the reservation is used by a user and by a namespace. -/
def namespaceGPU : State :=
  { tokens := [{ hash := "a", mode := "reserved" }]
    reservations := [{ id := "r", gpu := 1, tokenHash := "a", startsAt := 1, expiresAt := 100,
                       active := true }]
    authorizations :=
      [{ id := "x", mode := "user", tokenHash := "a", uid := 1000, active := true },
       { id := "y", mode := "k8s", tokenHash := "a", «namespace» := "lab", active := true }] }

/-- The user, somebody else, and a process in a container that cannot be resolved. -/
def threeProcesses : List ProcInfo :=
  [{ pid := 7, startTime := 3, uid := 1000 }, { pid := 8, startTime := 4, uid := 2000 },
   { pid := 9, startTime := 5, uid := 2000, containerID := "c" }]

def onGPU1 (known : List ProcInfo) : List GPUProcess :=
  known.map fun info => { gpu := 1, pid := info.pid, memBytes := 1 }

theorem reserved_gpu_judged_three :
    let a := authorizerOf threeProcesses
    let plan := a.enforce (fun _ _ => false) namespaceGPU (onGPU1 threeProcesses) 10
    plan.decisions.map (·.action) = [.allow, .kill, .skip] ∧
      ∃ before block after, plan.decisions = before ++ block ++ after ∧
        List.Forall₂ (fun entry decision =>
          a.JudgedReserved (fun _ _ => false) plan namespaceGPU 1 10
            (a.gpuSite namespaceGPU 10 (onGPU1 threeProcesses) 1 ++ [entry.2]) entry.1 decision)
          (Authorizer.judged
            (a.sampledViews namespaceGPU 10 (onGPU1 threeProcesses) 1) 0) block := by
  refine ⟨by decide +kernel, ?_⟩
  exact @Authorizer.reserved_gpu_judged (authorizerOf threeProcesses) ascii (fun _ => rfl)
    (fun _ _ => false) namespaceGPU (onGPU1 threeProcesses) 10 1 (by decide +kernel)

end Samples

end GPUardian
