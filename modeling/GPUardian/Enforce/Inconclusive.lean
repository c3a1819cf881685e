import GPUardian.Enforce.Judgement

/-! A lookup that fails proves nothing. Whatever the lookups answer and wherever a pass is
cancelled, a process is killed on account of a GPU, and a claim is released, only by answers
that leave nothing open there. -/
namespace GPUardian

open GoStrings List

namespace Authorizer

/-- A lookup failed and no other found a match. -/
def Inconclusive (answers : List (Except String Bool)) : Prop :=
  .ok true ∉ answers ∧ ∃ text, .error text ∈ answers

theorem not_inconclusive_of_all {answers : List (Except String Bool)}
    (h : ∀ answer ∈ answers, answer = .ok false) : ¬ Inconclusive answers := by
  rintro ⟨_, text, hFailed⟩
  cases h _ hFailed

variable {i : Nat}

section Answers

variable [Unicode] {a : Authorizer} {site : Site} {info : ProcInfo} {now : Time}

/-- A match of the loop of `matchAnyAuthorization` is an answer, and where it says that
nothing matches, every eligible authorization has answered so. -/
theorem matchAuthorizations_conclusive {tokens : List Token} {tokenFilter : Option (String → Bool)}
    {tokenMode : String} {rows : List Authorization} {errors : List String}
    {result : Option Authorization}
    (h : a.matchAuthorizations site tokens info tokenFilter tokenMode now i errors rows =
      .ok result) :
    .ok true ∈ a.scopeAnswers site tokens info tokenFilter tokenMode now i rows ∨
      errors = [] ∧ result = none ∧
        ∀ answer ∈ a.scopeAnswers site tokens info tokenFilter tokenMode now i rows,
          answer = .ok false := by
  induction rows generalizing i errors with
  | nil =>
    unfold matchAuthorizations at h
    split at h
    · cases h
      exact .inr ⟨‹_›, rfl, by simp [scopeAnswers]⟩
    · cases h
  | cons row rows ih =>
    unfold matchAuthorizations at h
    simp only [scopeAnswers]
    split at h
    · cases h
    · split at h
      · rename_i hToken
        simpa [hToken] using ih h
      · rename_i token hToken
        simp only [scopeMatches_tokenMode] at h
        simp only [hToken, Option.isSome_some, if_true]
        split at h
        · -- The error is kept, so the rest of the loop cannot say that nothing matches.
          rcases ih h with hMatch | ⟨hErrors, _⟩
          · exact .inl (mem_cons_of_mem _ hMatch)
          · exact absurd hErrors (by simp)
        · rename_i hAnswer
          exact .inl (by simp [hAnswer])
        · rename_i hAnswer
          rw [hAnswer]
          rcases ih h with hMatch | ⟨hErrors, hNone, hAll⟩
          · exact .inl (mem_cons_of_mem _ hMatch)
          · exact .inr ⟨hErrors, hNone, by simpa using hAll⟩

theorem matchAnyAuthorization_conclusive {state : State} {tokenFilter : Option (String → Bool)}
    {tokenMode : String} {result : Option Authorization}
    (h : a.matchAnyAuthorization site state info tokenFilter tokenMode now = .ok result) :
    ¬ Inconclusive (a.scopeAnswers site state.tokens info tokenFilter tokenMode now 0
      state.authorizations) := by
  rcases matchAuthorizations_conclusive h with hMatch | ⟨_, _, hAll⟩
  · exact fun hOpen => hOpen.1 hMatch
  · exact not_inconclusive_of_all hAll

/-- The answers that the loop of `matchesAnyLease` gets from index `i` on. -/
def leaseAnswers (a : Authorizer) (site : Site) (info : ProcInfo) (now : Time) :
    Nat → List Lease → List (Except String Bool)
  | _, [] => []
  | i, lease :: rest =>
    if !lease.active || !decide (now < lease.expiresAt) then
      a.leaseAnswers site info now (i + 1) rest
    else
      a.leaseScopeMatchesForEviction (site ++ [i]) lease info ::
        a.leaseAnswers site info now (i + 1) rest

theorem matchLeases_none {leases : List Lease} {errors : List String}
    (h : a.matchLeases site info now i errors leases = .ok none) :
    errors = [] ∧ ∀ answer ∈ a.leaseAnswers site info now i leases, answer = .ok false := by
  induction leases generalizing i errors with
  | nil =>
    unfold matchLeases at h
    split at h
    · exact ⟨‹_›, by simp [leaseAnswers]⟩
    · cases h
  | cons lease leases ih =>
    unfold matchLeases at h
    simp only [leaseAnswers]
    split at h
    · cases h
    · split at h
      · rename_i hOver
        rw [if_pos hOver]
        exact ih h
      · rename_i hLive
        rw [if_neg hLive]
        split at h
        · exact absurd (ih h).1 (by simp)
        · cases h
        · rename_i hAnswer
          rw [hAnswer]
          exact ⟨(ih h).1, by simpa using (ih h).2⟩

end Answers

variable {claim : SoftClaim}

section Kills

variable [Unicode] {a : Authorizer} {awaiting : Int → Nat → Bool} {state : State} {gpu : Int}
  {now : Time} {site : Site} {views : List ProcessView}

/-- The answers about a process that its GPU goes by. -/
def gpuAnswers (a : Authorizer) (state : State) (gpu : Int) (now : Time) (site : Site)
    (entry : ProcessView × Nat) : List (Except String Bool) :=
  let reservations := activeReservationsForGPU state.reservations gpu now
  let leases := activeLeasesForGPU state.leases gpu now
  if reservations ≠ [] then
    a.scopeAnswers (site ++ [entry.2]) state.tokens entry.1.info
      (some fun hash => reservations.any (·.tokenHash == hash)) "" now 0 state.authorizations
  else if leases ≠ [] then a.leaseAnswers (site ++ [entry.2]) entry.1.info now 0 leases
  else match activeSoftClaimsForGPU state gpu now with
    | claim :: _ =>
      a.scopeAnswers (site ++ [1] ++ [entry.2]) state.tokens entry.1.info
        (some (· == claim.tokenHash)) tokenModeClaimed now 0 state.authorizations
    | [] =>
      a.scopeAnswers (site ++ [2] ++ [entry.2]) state.tokens entry.1.info none tokenModeClaimed
        now 0 state.authorizations

variable {view : ProcessView}

omit [Unicode] in
/-- A verdict that leads to a kill is a denial. -/
theorem Verdict.Leads.denies {verdict : Verdict} {decision : Decision}
    (hAllows : Verdict.Allows view verdict) (h : Verdict.Leads view verdict decision)
    (hKill : decision.action = .kill) : About view decision ∧ ∃ report, verdict = .deny report := by
  match verdict, h with
  | .allow allowed, h =>
    rw [show decision = allowed from h, (hAllows allowed rfl).2] at hKill
    cases hKill
  | .deny report, h => exact ⟨h.1, report, rfl⟩
  | .unresolved (some reason) _, h =>
    rw [show decision = skipDecision view reason from h] at hKill
    cases hKill

variable {report : KillReport}

theorem judgeHard_deny {reservations : List Reservation}
    (h : a.judgeHard state gpu reservations now site view = .deny report) :
    a.matchAnyAuthorization site state view.info
      (some fun hash => reservations.any (·.tokenHash == hash)) "" now = .ok none := by
  unfold judgeHard at h
  dsimp only at h
  split at h
  · cases h
  · cases h
  · assumption

theorem judgeLegacyLeases_deny {leases : List Lease}
    (h : a.judgeLegacyLeases gpu leases now site view = .deny report) :
    a.matchLeases site view.info now 0 [] leases = .ok none := by
  unfold judgeLegacyLeases at h
  dsimp only at h
  split at h
  · cases h
  · cases h
  · assumption

theorem judgeClaimed_deny (h : a.judgeClaimed state gpu claim now site view = .deny report) :
    a.matchAnyAuthorization site state view.info (some (· == claim.tokenHash)) tokenModeClaimed
      now = .ok none := by
  unfold judgeClaimed at h
  split at h
  · cases h
  · cases h
  · assumption

/-- The process of a kill was judged on the GPU, by answers that leave nothing open. -/
def KillRests (a : Authorizer) (state : State) (gpu : Int) (now : Time) (site : Site)
    (views : List ProcessView) (decision : Decision) : Prop :=
  decision.action = .kill → ∃ entry ∈ judged views 0, About entry.1 decision ∧
    ¬ Inconclusive (a.gpuAnswers state gpu now site entry)

theorem enforceSoft_rests (hFree : activeReservationsForGPU state.reservations gpu now = [])
    (hUnleased : activeLeasesForGPU state.leases gpu now = []) (plan : Plan) :
    Grew (a.KillRests state gpu now site views) plan
      (a.enforceSoft awaiting site state gpu views now plan) := by
  refine (enforceSoft_scans plan).grew.imp fun decision hSource hKill => ?_
  cases hSource with
  | hard hReserved _ _ => exact absurd hFree hReserved
  | lease _ hLeased _ _ => exact absurd hUnleased hLeased
  | @claimed claim more entry _ hClaim hEntry hLeads =>
    obtain ⟨hAbout, report, hDeny⟩ := hLeads.denies (judgeClaimed_allows _ _) hKill
    refine ⟨entry, hEntry, hAbout, ?_⟩
    simp only [gpuAnswers, hFree, hUnleased, ne_eq, not_true_eq_false, if_false, hClaim]
    exact matchAnyAuthorization_conclusive (judgeClaimed_deny hDeny)
  | disappeared _ _ _ => cases hKill
  | idle _ _ _ _ => cases hKill
  | claim _ _ _ hAction _ => rw [hAction] at hKill; cases hKill
  | shares _ _ _ _ _ _ => cases hKill
  | @rival found first more entry answer _ hUnclaimed _ _ hEntry hMatch _ hAbout _ =>
    refine ⟨entry, hEntry, hAbout, ?_⟩
    simp only [gpuAnswers, hFree, hUnleased, ne_eq, not_true_eq_false, if_false, hUnclaimed]
    exact matchAnyAuthorization_conclusive hMatch

theorem enforceGPU_rests (plan : Plan) :
    Grew (a.KillRests state gpu now site views) plan
      (a.enforceGPU awaiting site state gpu views now plan) := by
  unfold enforceGPU
  dsimp only
  split_ifs with hReserved hLeased
  · refine Scans.grew (judgeViews_steps 0 (fun entry hEntry => Verdict.owes (judgeHard_allows _ _)
      fun decision hLeads hKill => ?_) plan)
    obtain ⟨hAbout, report, hDeny⟩ := hLeads.denies (judgeHard_allows _ _) hKill
    refine ⟨entry, hEntry, hAbout, ?_⟩
    simp only [gpuAnswers, if_pos hReserved]
    exact matchAnyAuthorization_conclusive (judgeHard_deny hDeny)
  · refine Scans.grew (judgeViews_steps 0 (fun entry hEntry => Verdict.owes
      (judgeLegacyLeases_allows _ _) fun decision hLeads hKill => ?_) plan)
    obtain ⟨hAbout, report, hDeny⟩ := hLeads.denies (judgeLegacyLeases_allows _ _) hKill
    refine ⟨entry, hEntry, hAbout, ?_⟩
    simp only [gpuAnswers, if_neg hReserved, if_pos hLeased]
    exact not_inconclusive_of_all (matchLeases_none (judgeLegacyLeases_deny hDeny)).2
  · exact enforceSoft_rests (not_not.mp hReserved) (not_not.mp hLeased) plan

end Kills

section Pass

variable [Unicode] {a : Authorizer} {awaiting : Int → Nat → Bool} {state : State} {now : Time}
  {processes : List GPUProcess}

omit [Unicode] in
/-- Each GPU has one place in the pass. -/
theorem gpuSite_eq {k : Nat} {gpu : Int}
    (h : (a.gpuOrder ((processes.filterMap (a.viewOf state now)).map
      (·.process.gpu)).dedup)[k]? = some gpu) :
    a.gpuSite state now processes gpu = [1, k] := by
  obtain ⟨hk, rfl⟩ := List.getElem?_eq_some_iff.mp h
  have hNodup : (a.gpuOrder ((processes.filterMap (a.viewOf state now)).map
      (·.process.gpu)).dedup).Nodup := (a.gpuOrder_perm _).nodup_iff.mpr (nodup_dedup _)
  rw [gpuSite, hNodup.idxOf_getElem]

/-- The answers about a process by which a claim stands or falls. Nobody is asked about a
claim without a token. -/
def claimAnswers (a : Authorizer) (state : State) (claim : SoftClaim) (now : Time) (site : Site)
    (entry : ProcessView × Nat) : List (Except String Bool) :=
  if claim.tokenHash = "" then []
  else a.scopeAnswers (site ++ [entry.2]) state.tokens entry.1.info (some (· == claim.tokenHash))
    tokenModeClaimed now 0 state.authorizations

/-- A claim has no process if all of those in its runtime were asked about and none matched. -/
theorem claimMatchingViews_false {site : Site} {views : List ProcessView}
    (h : a.claimMatchingViews site state claim now i views = .ok false) :
    ∀ entry ∈ judged views i, softClaimRuntimeMatches claim entry.1.info = true →
      a.matchAnyAuthorization (site ++ [entry.2]) state entry.1.info
        (some (· == claim.tokenHash)) tokenModeClaimed now = .ok none := by
  induction views generalizing i with
  | nil => exact fun _ hEntry => absurd hEntry (by simp [judged])
  | cons view views ih =>
    -- The first process was asked about, unless it is bypassed or runs elsewhere.
    have hSplit : ∀ entry ∈ judged (view :: views) i,
        (entry = (view, i) ∧ view.bypassed = false) ∨ entry ∈ judged views (i + 1) := by
      intro entry hEntry
      obtain ⟨hMem, hOpen⟩ := mem_filter.mp hEntry
      rw [zipIdx_cons] at hMem
      rcases mem_cons.mp hMem with rfl | hLater
      · exact .inl ⟨rfl, by simpa using hOpen⟩
      · exact .inr (mem_filter.mpr ⟨hLater, hOpen⟩)
    unfold claimMatchingViews at h
    intro entry hEntry hRuntime
    split at h
    · cases h
    · split at h
      · rename_i hElsewhere
        rcases hSplit entry hEntry with ⟨rfl, hOpen⟩ | hLater
        · simp [hOpen, hRuntime] at hElsewhere
        · exact ih h entry hLater hRuntime
      · split at h
        · cases h
        · cases h
        · rename_i hNone
          rcases hSplit entry hEntry with ⟨rfl, _⟩ | hLater
          · exact hNone
          · exact ih h entry hLater hRuntime

theorem claimHasMatchingProcess_false {site : Site} {views : List ProcessView}
    (h : a.claimHasMatchingProcess site state claim views now = .ok false) :
    ∀ entry ∈ judged views 0, softClaimRuntimeMatches claim entry.1.info = true →
      ¬ Inconclusive (a.claimAnswers state claim now site entry) := by
  intro entry hEntry hRuntime
  unfold claimHasMatchingProcess at h
  unfold claimAnswers
  split at h
  · rename_i hHash
    rw [if_pos hHash]
    exact not_inconclusive_of_all (by simp)
  · rename_i hHash
    rw [if_neg hHash]
    exact matchAnyAuthorization_conclusive (claimMatchingViews_false h entry hEntry hRuntime)

/-- What a decision rests on. A process is killed for its use of a GPU only if the answers
that count there leave nothing open, and a claim is released only if those about the readable
processes in its runtime do. -/
structure Rests (a : Authorizer) (state : State) (processes : List GPUProcess) (now : Time)
    (decision : Decision) : Prop where
  kill : decision.action = .kill →
    ∃ entry ∈ judged (a.sampledViews state now processes decision.process.gpu) 0,
      About entry.1 decision ∧
      ¬ Inconclusive (a.gpuAnswers state decision.process.gpu now
        (a.gpuSite state now processes decision.process.gpu) entry)
  release : decision.action = .releaseClaim →
    ∃ k claim, state.softClaims[k]? = some claim ∧ decision.claimID = claim.id ∧
      ∀ entry ∈ judged (a.sampledViews state now processes claim.gpu) 0,
        softClaimRuntimeMatches claim entry.1.info = true →
        ¬ Inconclusive (a.claimAnswers state claim now [2, k] entry)

theorem enforce_rests (awaiting : Int → Nat → Bool) (state : State) (processes : List GPUProcess)
    (now : Time) : Grew (a.Rests state processes now) {}
      (a.enforce awaiting state processes now) := by
  refine enforce_grew awaiting state now processes ?_ ?_ ?_
  · rintro process _ decision (⟨_, reason, rfl⟩ | ⟨info, _, rfl⟩)
    · exact ⟨nofun, nofun⟩
    · exact ⟨nofun, nofun⟩
  · intro k gpu plan hGPU
    rw [← gpuSite_eq hGPU]
    refine ((enforceGPU_rests plan).and (enforceGPU_source plan)).imp fun decision hBoth => ?_
    obtain ⟨hKill, hSource⟩ := hBoth
    refine ⟨fun hAction => ?_, fun hAction => ?_⟩
    · obtain ⟨entry, hEntry, hAbout, hAnswers⟩ := hKill hAction
      have hHere : decision.process.gpu = gpu := by
        rw [hAbout.1]
        exact (mem_sampledViews (open_of_judged hEntry).1).2
      rw [hHere]
      exact ⟨entry, hEntry, hAbout, hAnswers⟩
    · rcases hSource.cases with ⟨hClaim, _⟩ | ⟨_, _, hOther⟩
      · rw [hClaim] at hAction; cases hAction
      · exact absurd hAction hOther
  · intro k claim hClaim hAbsent
    exact ⟨nofun, fun _ => ⟨k, claim, hClaim, rfl, claimHasMatchingProcess_false hAbsent⟩⟩

/-- No kill and no release of a pass rests on a lookup that failed, and a process that cannot
be read is not killed. -/
structure Grounded (a : Authorizer) (state : State) (processes : List GPUProcess) (now : Time)
    (plan : Plan) : Prop where
  unread : ∀ reader pid err, a.proc = some reader → reader.info pid = .error err →
    (∀ decision ∈ plan.decisions, decision.action = .kill → decision.process.pid ≠ pid) ∧
    ∀ request ∈ plan.pending, request.view.process.pid ≠ pid
  decided : ∀ decision ∈ plan.decisions, a.Rests state processes now decision
  requested : ∀ request ∈ plan.pending,
    ∃ decision ∈ plan.decisions, decision.action = .kill ∧ About request.view decision

theorem enforce_grounded (a : Authorizer) (awaiting : Int → Nat → Bool) (state : State)
    (processes : List GPUProcess) (now : Time) :
    a.Grounded state processes now (a.enforce awaiting state processes now) := by
  have hGrew : Grew (a.Rests state processes now) {} (a.enforce awaiting state processes now) :=
    enforce_rests awaiting state processes now
  have hRead : ∀ decision ∈ (a.enforce awaiting state processes now).decisions,
      decision.action = .kill →
      ∃ reader info, a.proc = some reader ∧ reader.info decision.process.pid = .ok info := by
    intro decision hMem hKill
    obtain ⟨entry, hEntry, hAbout, _⟩ := (hGrew.decided decision hMem).kill hKill
    obtain ⟨_, reader, hProc, hInfo⟩ :=
      viewOf_some (mem_sampledViews (open_of_judged hEntry).1).1
    exact ⟨reader, _, hProc, hAbout.1 ▸ hInfo⟩
  refine ⟨?_, hGrew.decided, hGrew.requested⟩
  intro reader pid err hProc hErr
  have hUnread : ∀ decision ∈ (a.enforce awaiting state processes now).decisions,
      decision.action = .kill → decision.process.pid ≠ pid := by
    rintro decision hMem hKill rfl
    obtain ⟨other, info, hOther, hInfo⟩ := hRead decision hMem hKill
    rw [hProc] at hOther
    cases hOther
    rw [hErr] at hInfo
    cases hInfo
  refine ⟨hUnread, ?_⟩
  rintro request hRequest rfl
  obtain ⟨decision, hMem, hKill, hAbout⟩ := hGrew.requested request hRequest
  exact hUnread decision hMem hKill (by rw [hAbout.1])

end Pass

end Authorizer

section Samples

open scoped Plain

/-- Two reserved GPUs. The key of the first is used by a namespace, that of the second by a
user. -/
def twoReserved : State :=
  { tokens := [{ hash := "a", mode := "reserved" }, { hash := "b", mode := "reserved" }]
    reservations :=
      [{ id := "r0", gpu := 0, tokenHash := "a", startsAt := 1, expiresAt := 100, active := true },
       { id := "r1", gpu := 1, tokenHash := "b", startsAt := 1, expiresAt := 100, active := true }]
    authorizations :=
      [{ id := "x", mode := "k8s", tokenHash := "a", «namespace» := "lab", active := true },
       { id := "y", mode := "user", tokenHash := "b", uid := 1000, active := true }] }

/-- A process in a container that cannot be resolved. It uses both GPUs. -/
def contained : ProcInfo := { pid := 9, startTime := 5, uid := 2000, containerID := "c" }

def onBothGPUs : List GPUProcess :=
  [{ gpu := 0, pid := 9, memBytes := 1 }, { gpu := 1, pid := 9, memBytes := 1 }]

/-- Whether the process belongs on the first GPU stays open, and it is killed for its use of
the second. -/
theorem killed_for_another_gpu :
    let a := authorizerOf [contained]
    let entry : ProcessView × Nat :=
      ({ process := { gpu := 0, pid := 9, memBytes := 1 }, info := contained }, 0)
    let plan := a.enforce (fun _ _ => false) twoReserved onBothGPUs 10
    entry ∈ Authorizer.judged (a.sampledViews twoReserved 10 onBothGPUs 0) 0 ∧
      Authorizer.Inconclusive (a.gpuAnswers twoReserved 0 10
        (a.gpuSite twoReserved 10 onBothGPUs 0) entry) ∧
      plan.decisions.map (fun decision =>
        (decision.action, decision.process.gpu, decision.process.pid)) =
        [(.skip, 0, 9), (.kill, 1, 9)] ∧
      plan.pending.map (·.view.process.pid) = [9] := by
  have hAnswers : @Authorizer.gpuAnswers ascii (authorizerOf [contained]) twoReserved 0 10
      (@Authorizer.gpuSite (authorizerOf [contained]) twoReserved 10 onBothGPUs 0)
      ({ process := { gpu := 0, pid := 9, memBytes := 1 }, info := contained }, 0) =
      [.error "resolve k8s scope for authorization x: runtime resolver is unavailable"] := by
    decide +kernel
  refine ⟨by decide +kernel, ?_, by decide +kernel, by decide +kernel⟩
  rw [hAnswers]
  exact ⟨by simp, _, mem_cons_self⟩

end Samples

end GPUardian
