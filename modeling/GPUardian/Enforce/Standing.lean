import GPUardian.Enforce.Claims

/-! What becomes of a claim once it is stored. The next pass over the same sample finds the
process that established it, so the claim stands; whether the pass also judges the others as
before depends on the processes that several tokens cover. -/
namespace GPUardian

open GoStrings List Option

variable {claim : SoftClaim}

section Runtime

variable [Unicode]

theorem sameContainer_self {id : String} (hID : id ≠ "")
    (hHex : ∀ c ∈ id.toList, isHexDigit c = true) : sameContainer id id = true := by
  have hTrim : trimSpace id = id :=
    trimSpace_of_forall fun c hMem => isSpace_of_isHexDigit (hHex c hMem)
  have hLower : toLower id ≠ "" := by
    intro hEmpty
    have hNil := congrArg String.toList hEmpty
    simp [toLower, hID] at hNil
  simp [sameContainer, hTrim, hLower]

/-- What the process table says about a process that exists: its PID is positive, and its
container id is empty or the hexadecimal id in a cgroup path. -/
structure Genuine (info : ProcInfo) : Prop where
  pid_pos : 0 < info.pid
  container : ∀ c ∈ info.containerID.toList, isHexDigit c = true

/-- A claim as the planner starts it, before the runtime is known. -/
def SoftClaim.Unbound (claim : SoftClaim) : Prop :=
  claim.runtimeContainerID = "" ∧ claim.runtimeCgroup = ""

/-- A process runs in the runtime that it gives to its claim. -/
theorem setSoftClaimRuntimeIdentity_matches (hClaim : claim.Unbound) (authorization : Authorization)
    {info : ProcInfo} (hInfo : Genuine info) :
    softClaimRuntimeMatches (setSoftClaimRuntimeIdentity claim authorization info) info = true := by
  obtain ⟨hContainer, hCgroup⟩ := hClaim
  have hProcess : softClaimRuntimeMatches
      { claim with runtimePID := info.pid, runtimeStartTime := info.startTime } info = true := by
    simp [softClaimRuntimeMatches, hContainer, hCgroup, hInfo.pid_pos]
  unfold setSoftClaimRuntimeIdentity
  dsimp only
  split_ifs with hMode hID hBare hPath hTarget hTarget
  · simp [softClaimRuntimeMatches, hID, sameContainer_self hID hInfo.container]
  · exact hProcess
  · simp [softClaimRuntimeMatches, hContainer, hTarget.1, hTarget.2]
  · exact hProcess
  · simp [softClaimRuntimeMatches, hContainer, hTarget.1, hTarget.2]
  · exact hProcess
  · exact hProcess

omit [Unicode] in
theorem setSoftClaimRuntimeIdentity_keeps (claim : SoftClaim) (authorization : Authorization)
    (info : ProcInfo) :
    (setSoftClaimRuntimeIdentity claim authorization info).gpu = claim.gpu ∧
      (setSoftClaimRuntimeIdentity claim authorization info).tokenHash = claim.tokenHash ∧
      (setSoftClaimRuntimeIdentity claim authorization info).id = claim.id := by
  unfold setSoftClaimRuntimeIdentity
  dsimp only
  split_ifs <;> exact ⟨rfl, rfl, rfl⟩

end Runtime

/-- The row that a new claim becomes. -/
def storedClaim (claimHex : String) (storedAt : Time) (claim : SoftClaim) : SoftClaim :=
  { claim with
    id := if claim.id = "" then "claim_" ++ claimHex else claim.id
    createdAt := if claim.createdAt = 0 then storedAt else claim.createdAt
    updatedAt := storedAt }

/-- The state with one claim more. -/
def State.withClaim (state : State) (row : SoftClaim) : State :=
  { state with softClaims := state.softClaims ++ [row] }

/-- A claim on a GPU that has none is added to the others. -/
theorem upsertSoftClaim_apply {state : State} (h : ∀ row ∈ state.softClaims, row.gpu ≠ claim.gpu)
    (claimHex : String) (storedAt : Time) :
    (upsertSoftClaim claimHex claim storedAt state).edits.apply state =
      state.withClaim (storedClaim claimHex storedAt claim) := by
  have hNone : state.softClaims.any (fun row =>
      row.gpu == claim.gpu && row.tokenHash == claim.tokenHash) = false := by
    refine List.any_eq_false.mpr fun row hRow => ?_
    simp [h row hRow]
  simp only [upsertSoftClaim, hNone]
  rfl

namespace Authorizer

/-- The same lookups with another order of the GPUs, as a later pass may take it. -/
def visiting (a : Authorizer) (order : List Int → List Int)
    (hOrder : ∀ gpus, (order gpus).Perm gpus) : Authorizer :=
  { a with gpuOrder := order, gpuOrder_perm := hOrder }

section Release

variable [Unicode] {a : Authorizer} {awaiting : Int → Nat → Bool} {state : State} {now : Time}
  {processes : List GPUProcess}

/-- A process that the survey cannot judge is neither allowed nor killed. -/
theorem enforce_passes_unread {process : GPUProcess} (hNone : a.viewOf state now process = none) :
    ∀ decision ∈ (a.enforce awaiting state processes now).decisions,
      decision.process = process → decision.action ≠ .allow ∧ decision.action ≠ .kill := by
  have hGrew : Grew (fun decision => decision.process = process →
      decision.action ≠ .allow ∧ decision.action ≠ .kill) {}
      (a.enforce awaiting state processes now) := by
    refine enforce_grew awaiting state now processes ?_ ?_ ?_
    · rintro other _ decision (⟨_, reason, rfl⟩ | ⟨info, hView, rfl⟩) hProcess
      · simp
      · rw [show other = process from hProcess, hNone] at hView
        cases hView
    · intro k gpu plan _
      refine (enforceGPU_source plan).imp fun decision hSource hProcess => ?_
      rcases hSource.cases with ⟨hClaim, _⟩ | ⟨⟨view, hView, _, hAbout⟩, _⟩
      · simp [hClaim]
      · have hSome := (mem_sampledViews hView).1
        rw [← hAbout.1, hProcess, hNone] at hSome
        cases hSome
    · intro k claim _ _ _
      simp
  exact hGrew.decided

/-- A claim whose process is gone is released. -/
theorem releaseClaims_releases (hRunning : a.Running) {views : List ProcessView}
    (hAbsent : ∀ site, a.claimHasMatchingProcess site state claim
      (viewsOnGPU views claim.gpu) now = .ok false) {claims : List SoftClaim}
    (hMem : claim ∈ claims) (i : Nat) (plan : Plan) :
    ∃ decision ∈ (a.releaseClaims state views now i claims plan).decisions,
      decision.action = .releaseClaim ∧ decision.claimID = claim.id := by
  induction claims generalizing i plan with
  | nil => exact absurd hMem not_mem_nil
  | cons first claims ih =>
    simp only [releaseClaims, hRunning]
    rcases mem_cons.mp hMem with rfl | hLater
    · simp only [hAbsent]
      refine ⟨_, (releaseClaims_extends (fun _ _ => false) claims (i + 1) _).decisions.subset
        (mem_append_right _ mem_cons_self), rfl, rfl⟩
    · split
      · exact ih hLater (i + 1) _
      · exact ih hLater (i + 1) _
      · exact ih hLater (i + 1) _

theorem enforce_releases (hRunning : a.Running) (hMem : claim ∈ state.softClaims)
    (hAbsent : ∀ site, a.claimHasMatchingProcess site state claim
      (a.sampledViews state now processes claim.gpu) now = .ok false) :
    ∃ decision ∈ (a.enforce awaiting state processes now).decisions,
      decision.action = .releaseClaim ∧ decision.claimID = claim.id := by
  obtain ⟨_, last, _, _, hPass⟩ := enforce_running hRunning awaiting state now processes
  rw [hPass]
  exact releaseClaims_releases hRunning hAbsent hMem 0 last

/-- Only a claim whose process was found to be gone is released. -/
theorem enforce_keeps {id : String}
    (h : ∀ claim ∈ state.softClaims, claim.id = id → ∀ site, a.claimHasMatchingProcess site state
      claim (a.sampledViews state now processes claim.gpu) now ≠ .ok false) :
    ∀ decision ∈ (a.enforce awaiting state processes now).decisions,
      decision.action = .releaseClaim → decision.claimID ≠ id := by
  have hGrew : Grew (fun decision => decision.action = .releaseClaim → decision.claimID ≠ id) {}
      (a.enforce awaiting state processes now) := by
    refine enforce_grew awaiting state now processes ?_ ?_ ?_
    · rintro process _ decision (⟨_, reason, rfl⟩ | ⟨info, _, rfl⟩) hAction
      · cases hAction
      · cases hAction
    · intro k gpu plan _
      refine (enforceGPU_source plan).imp fun decision hSource hAction => ?_
      rcases hSource.cases with ⟨hClaim, _⟩ | ⟨_, _, hOther⟩
      · rw [hClaim] at hAction; cases hAction
      · exact absurd hAction hOther
    · intro k claim hClaim hAbsent _ hID
      exact h claim (mem_of_getElem? hClaim) hID _ hAbsent
  exact hGrew.decided

end Release

section Stored

variable [Unicode] {a : Authorizer} {awaiting : Int → Nat → Bool} {state : State} {now : Time}
  {processes : List GPUProcess} {gpu : Int} {views : List ProcessView}

/-- The authorization by which a GPU is claimed: the first match of the first process that
has one. -/
def claimOwner (a : Authorizer) (state : State) (now : Time) (views : List ProcessView) :
    Option Authorization :=
  (views.filter (!·.bypassed)).findSome? fun view => a.firstMatch state none now view.info

/-- The claim of a process, as the planner writes it. -/
def newClaim (gpu : Int) (owner : Authorization) (now : Time) (info : ProcInfo) : SoftClaim :=
  setSoftClaimRuntimeIdentity
    { gpu := gpu, tokenHash := owner.tokenHash, authorizationID := owner.id, holder := owner.holder,
      createdAt := now, updatedAt := now } owner info

theorem claimantsOf_first {first : ProcessView × Authorization}
    {more : List (ProcessView × Authorization)}
    (h : (a.claimantsOf state now views).authorized = first :: more) :
    first.1 ∈ views ∧ first.1.bypassed = false ∧
      ∃ owner, a.firstMatch state none now first.1.info = some owner ∧
        first.2 = reported state none now owner ∧ a.claimOwner state now views = some owner := by
  obtain ⟨before, view, after, hViews, hBefore, hView, _⟩ := filterMap_eq_cons_iff.mp h
  obtain ⟨owner, hOwner, rfl⟩ := map_eq_some_iff.mp hView
  have hMem : view ∈ views.filter (!·.bypassed) := by
    rw [hViews]
    exact mem_append_right _ mem_cons_self
  obtain ⟨hListed, hOpen⟩ := mem_filter.mp hMem
  refine ⟨hListed, by simpa using hOpen, owner, hOwner, rfl, ?_⟩
  have hNone : before.findSome? (fun view => a.firstMatch state none now view.info) = none :=
    findSome?_eq_none_iff.mpr fun other hOther => by simpa using hBefore other hOther
  rw [claimOwner, hViews, findSome?_append, hNone, findSome?_cons, hOwner]
  rfl

/-- A claim counts while the first valid token of its hash is a claim or managed key. -/
def claimKey (state : State) (now : Time) (hash : String) : Bool :=
  (activeTokenByHash state.tokens hash now).elim false fun token =>
    normalizeTokenMode token.mode == tokenModeClaimed ||
      normalizeTokenMode token.mode == tokenModeManaged

variable {row : SoftClaim}

theorem activeSoftClaims_append (hUnclaimed : ∀ claim ∈ state.softClaims, claim.gpu ≠ row.gpu) :
    activeSoftClaimsForGPU (state.withClaim row) row.gpu now =
      if claimKey state now row.tokenHash then [row] else [] := by
  have hNone : state.softClaims.filter (fun claim => claim.gpu == row.gpu &&
      claimKey state now claim.tokenHash) = [] :=
    filter_eq_nil_iff.mpr fun claim hClaim => by simp [hUnclaimed claim hClaim]
  show (state.softClaims ++ [row]).filter (fun claim => claim.gpu == row.gpu &&
    claimKey state now claim.tokenHash) = _
  rw [filter_append, hNone, nil_append, filter_singleton]
  simp

theorem activeSoftClaims_eq_nil (h : ∀ claim ∈ state.softClaims, claim.gpu ≠ gpu) :
    activeSoftClaimsForGPU state gpu now = [] :=
  filter_eq_nil_iff.mpr fun claim hClaim => by simp [h claim hClaim]

/-- The processes that an authorization of the token covers have none of another token
before it. -/
def Undivided (a : Authorizer) (state : State) (now : Time) (views : List ProcessView)
    (hash : String) : Prop :=
  ∀ view ∈ views, view.bypassed = false → a.Belongs state now hash view.info →
    ∀ row, a.firstMatch state none now view.info = some row → row.tokenHash = hash

theorem undivided_iff (hash : String) :
    a.Undivided state now views hash ↔
      ∀ view ∈ views, (a.SharesClaim state now hash view ↔ a.JoinsClaim state now hash view) := by
  constructor
  · intro h view hView
    refine ⟨SharesClaim.joins, ?_⟩
    rintro (hBypassed | hBelongs)
    · exact .inl hBypassed
    · cases hOpen : view.bypassed with
      | true => exact .inl hOpen
      | false =>
        -- Whoever belongs to the token has a first match, if only that one.
        obtain ⟨row, hRow, hEligible, hCovers, _⟩ := hBelongs
        have hSome : (a.firstMatch state none now view.info).isSome = true :=
          List.find?_isSome.mpr ⟨row, hRow, by simp [hEligible, hCovers]⟩
        obtain ⟨first, hFirst⟩ := isSome_iff_exists.mp hSome
        exact .inr ⟨first, hFirst, h view hView hOpen ⟨row, hRow, hEligible, hCovers, ‹_›⟩ first hFirst⟩
  · intro h view hView hOpen hBelongs row hRow
    obtain ⟨first, hFirst, hHash⟩ := (sharesClaim_of_open hOpen).mp ((h view hView).mpr (.inr hBelongs))
    rw [hRow] at hFirst
    exact some.inj hFirst ▸ hHash

/-- In the pass after the claim, a process is allowed if it joins the claim, or shares a new
one where the claim does not count. -/
def AllowedAfter (a : Authorizer) (state : State) (now : Time) (hash : String)
    (view : ProcessView) : Prop :=
  if claimKey state now hash then a.JoinsClaim state now hash view
  else a.SharesClaim state now hash view

theorem allowedAfter_iff (hash : String) :
    (∀ view ∈ views, (a.SharesClaim state now hash view ↔ a.AllowedAfter state now hash view)) ↔
      (claimKey state now hash = true → a.Undivided state now views hash) := by
  cases hKey : claimKey state now hash with
  | true => simp [AllowedAfter, hKey, undivided_iff]
  | false => simp [AllowedAfter, hKey]

/-- The condition under which a claim stands. A token hash is never empty where the daemon
issues it. -/
def Lasting (a : Authorizer) (state : State) (now : Time) (views : List ProcessView) : Prop :=
  ∃ owner, a.claimOwner state now views = some owner ∧ owner.tokenHash ≠ "" ∧
    (claimKey state now owner.tokenHash = true → a.Undivided state now views owner.tokenHash)

/-- The second pass releases no claim of the GPU and judges the processes there as the first
did. Those that cannot be judged are left alone in both. -/
structure ClaimStands (a b : Authorizer) (awaiting later : Int → Nat → Bool) (state next : State)
    (now : Time) (processes : List GPUProcess) (gpu : Int) : Prop where
  kept : ∀ decision ∈ (b.enforce later next processes now).decisions,
    decision.action = .releaseClaim →
    ∀ claim ∈ next.softClaims, claim.gpu = gpu → decision.claimID ≠ claim.id
  same : ∀ view ∈ a.sampledViews state now processes gpu,
    (Allowed (a.enforce awaiting state processes now) view ↔
      Allowed (b.enforce later next processes now) view) ∧
    (a.Condemned awaiting (a.enforce awaiting state processes now) view ↔
      b.Condemned later (b.enforce later next processes now) view)
  unread : ∀ process ∈ processes, process.gpu = gpu → a.viewOf state now process = none →
    ∀ decision ∈ (a.enforce awaiting state processes now).decisions ++
        (b.enforce later next processes now).decisions,
      decision.process = process → decision.action ≠ .allow ∧ decision.action ≠ .kill

/-- The row of a new claim: its GPU, its token, its id, and that it is the claim of the
process. -/
theorem storedClaim_newClaim (gpu : Int) (owner : Authorization) (now : Time) {info : ProcInfo}
    (hInfo : Genuine info) (claimHex : String) (storedAt : Time)
    (h : row = storedClaim claimHex storedAt (newClaim gpu owner now info)) :
    row.gpu = gpu ∧ row.tokenHash = owner.tokenHash ∧ row.id = "claim_" ++ claimHex ∧
      softClaimRuntimeMatches row info = true := by
  subst h
  obtain ⟨hGPU, hHash, hID⟩ := setSoftClaimRuntimeIdentity_keeps
    { gpu := gpu, tokenHash := owner.tokenHash, authorizationID := owner.id, holder := owner.holder,
      createdAt := now, updatedAt := now } owner info
  refine ⟨hGPU, hHash, ?_, ?_⟩
  · exact if_pos hID
  · exact setSoftClaimRuntimeIdentity_matches ⟨rfl, rfl⟩ owner hInfo

section Reliable

variable (hRunning : a.Running) (hReliable : a.Reliable)

include hRunning hReliable

/-- A claim decision for a GPU comes from its first claimant. -/
theorem enforce_claims {decision : Decision} (hMem : decision ∈ (a.enforce awaiting state processes now).decisions)
    (hAction : decision.action = .claim) (hGPU : decision.claim.gpu = gpu) :
    ∃ first more,
      (a.claimantsOf state now (a.sampledViews state now processes gpu)).authorized =
        first :: more ∧ decision.claim = newClaim gpu first.2 now first.1.info := by
  have hGrew : Grew (fun decision => decision.action = .claim → decision.claim.gpu = gpu →
      ∃ first more,
        (a.claimantsOf state now (a.sampledViews state now processes gpu)).authorized =
          first :: more ∧ decision.claim = newClaim gpu first.2 now first.1.info) {}
      (a.enforce awaiting state processes now) := by
    refine enforce_grew awaiting state now processes ?_ ?_ ?_
    · rintro process _ decision (⟨_, reason, rfl⟩ | ⟨info, _, rfl⟩) hAction
      · cases hAction
      · cases hAction
    · intro k other plan _
      refine (enforceGPU_source plan).imp fun decision hSource hAction hGPU => ?_
      rcases hSource.cases with
        ⟨_, found, first, more, _, hFound, hFirst, hClaim⟩ | ⟨_, hOther, _⟩
      · have hKeeps := (setSoftClaimRuntimeIdentity_keeps
          { gpu := other, tokenHash := first.2.tokenHash, authorizationID := first.2.id
            holder := first.2.holder, createdAt := now, updatedAt := now } first.2 first.1.info).1
        rw [← hClaim, hGPU] at hKeeps
        obtain rfl : gpu = other := hKeeps
        rw [claimants_eq hRunning hReliable (hReliable.identified state now processes gpu)] at hFound
        cases hFound
        exact ⟨first, more, by simpa using hFirst, hClaim⟩
      · exact absurd hAction hOther
    · intro k claim _ _ hAction
      cases hAction
  exact hGrew.decided decision hMem hAction hGPU

/-- The claim is found again by the process that established it, unless it names no token. -/
theorem claimHasMatchingProcess_stored (hViews : Identified views) {view : ProcessView} (hView : view ∈ views)
    (hOpen : view.bypassed = false) (hRuntime : softClaimRuntimeMatches row view.info = true)
    (hBelongs : a.Belongs state now row.tokenHash view.info) (site : Site) :
    a.claimHasMatchingProcess site state row views now = .ok (row.tokenHash != "") := by
  unfold claimHasMatchingProcess
  split_ifs with hHash
  · simp [hHash]
  · rw [claimMatchingViews_present hRunning hReliable hViews hView hOpen hRuntime hBelongs]
    simp [hHash]

/-- How the pass after the claim judges the processes of the GPU. -/
theorem stored_classifies (awaiting : Int → Nat → Bool) (hFree : activeReservationsForGPU state.reservations gpu now = [])
    (hUnleased : activeLeasesForGPU state.leases gpu now = []) (hGPU : row.gpu = gpu)
    (hUnclaimed : ∀ claim ∈ state.softClaims, claim.gpu ≠ gpu) {first : ProcessView × Authorization}
    {more : List (ProcessView × Authorization)}
    (hFirst : (a.claimantsOf state now (a.sampledViews state now processes gpu)).authorized =
      first :: more) (hHash : row.tokenHash = first.2.tokenHash)
    (hPresent : ∀ site, a.claimHasMatchingProcess site
      (state.withClaim row) row
      (a.sampledViews state now processes gpu) now = .ok true) {view : ProcessView}
    (hView : view ∈ a.sampledViews state now processes gpu) :
    a.Classifies awaiting (a.enforce awaiting (state.withClaim row) processes now) view
      (a.AllowedAfter state now row.tokenHash view) := by
  subst hGPU
  have hClaims : activeSoftClaimsForGPU (state.withClaim row) row.gpu now = _ :=
    activeSoftClaims_append hUnclaimed
  have hFree' : activeReservationsForGPU (state.withClaim row).reservations row.gpu now = [] := hFree
  unfold AllowedAfter
  cases hKey : claimKey state now row.tokenHash with
  | true =>
    rw [hKey, if_pos rfl] at hClaims
    rw [if_pos rfl]
    exact claimed_classifies hRunning hReliable hFree' hUnleased hClaims hPresent hView
  | false =>
    rw [hKey, if_neg Bool.false_ne_true] at hClaims
    rw [if_neg Bool.false_ne_true, hHash]
    exact claiming_classifies hRunning hReliable hFree' hUnleased hClaims hFirst hView

end Reliable

/-- A claim on a free GPU stands in the next pass exactly if its token is named and no
process of it has an authorization of another token first. -/
theorem claim_stands_iff (hRunning : ∀ site, a.ctxErr site = none) (hReliable : a.Reliable)
    (hGenuine : ∀ reader pid info, a.proc = some reader → reader.info pid = .ok info →
      Genuine info)
    (awaiting later : Int → Nat → Bool) {order : List Int → List Int}
    (hOrder : ∀ gpus, (order gpus).Perm gpus)
    (hFree : activeReservationsForGPU state.reservations gpu now = [])
    (hUnleased : activeLeasesForGPU state.leases gpu now = [])
    (hUnclaimed : ∀ claim ∈ state.softClaims, claim.gpu ≠ gpu) {decision : Decision}
    (hDecision : decision ∈ (a.enforce awaiting state processes now).decisions)
    (hAction : decision.action = .claim) (hGPU : decision.claim.gpu = gpu) {claimHex : String}
    (hFresh : ∀ claim ∈ state.softClaims, claim.id ≠ "claim_" ++ claimHex) (storedAt : Time) :
    a.ClaimStands (a.visiting order hOrder) awaiting later state
        ((upsertSoftClaim claimHex decision.claim storedAt state).edits.apply state) now processes
        gpu ↔
      a.Lasting state now (a.sampledViews state now processes gpu) := by
  obtain ⟨first, more, hFirst, hClaim⟩ := enforce_claims hRunning hReliable hDecision hAction hGPU
  obtain ⟨hListed, hOpen, owner, hMatch, hReported, hOwner⟩ := claimantsOf_first hFirst
  have hKnown := hReliable.identified state now processes gpu
  have hInfo : Genuine first.1.info := by
    obtain ⟨_, reader, hProc, hInfo⟩ := viewOf_some (mem_sampledViews hListed).1
    exact hGenuine reader _ _ hProc hInfo
  rw [upsertSoftClaim_apply (fun row hRow => hGPU ▸ hUnclaimed row hRow), hClaim]
  obtain ⟨row, hRow⟩ : ∃ row, row = storedClaim claimHex storedAt
    (newClaim gpu first.2 now first.1.info) := ⟨_, rfl⟩
  rw [← hRow]
  obtain ⟨hRowGPU, hRowHash, hRowID, hRuntime⟩ :=
    storedClaim_newClaim gpu first.2 now hInfo claimHex storedAt hRow
  have hOwnerHash : row.tokenHash = owner.tokenHash := by rw [hRowHash, hReported]; rfl
  -- The second pass is one of the authorizer below over the state with the row.
  have hRunning' : (a.visiting order hOrder).Running := hRunning
  have hReliable' : (a.visiting order hOrder).Reliable := { hReliable with }
  have hPresent : ∀ site, (a.visiting order hOrder).claimHasMatchingProcess site
      (state.withClaim row) row
      (a.sampledViews state now processes gpu) now = .ok (row.tokenHash != "") := by
    have hBelongs : (a.visiting order hOrder).Belongs (state.withClaim row) now row.tokenHash
        first.1.info := by
      rw [hOwnerHash]
      exact firstMatch_belongs hMatch
    exact claimHasMatchingProcess_stored hRunning' hReliable' hKnown hListed hOpen hRuntime hBelongs
  have hStored : row ∈ (state.withClaim row).softClaims :=
    mem_append_right _ mem_cons_self
  by_cases hNamed : row.tokenHash = ""
  · refine iff_of_false (fun hStands => ?_) ?_
    · simp only [hNamed, bne_self_eq_false] at hPresent
      have hReleased : ∃ decision ∈ ((a.visiting order hOrder).enforce later (state.withClaim row)
          processes now).decisions,
          decision.action = .releaseClaim ∧ decision.claimID = row.id :=
        enforce_releases hRunning' hStored (by rw [hRowGPU]; exact hPresent)
      obtain ⟨decision, hMem, hRelease, hID⟩ := hReleased
      exact hStands.kept decision hMem hRelease row hStored hRowGPU hID
    · rintro ⟨other, hOther, hNot, _⟩
      rw [hOwner] at hOther
      cases hOther
      exact hNot (hOwnerHash ▸ hNamed)
  · simp only [bne_iff_ne.mpr hNamed] at hPresent
    have hBefore : ∀ view ∈ a.sampledViews state now processes gpu,
        a.Classifies awaiting (a.enforce awaiting state processes now) view
          (a.SharesClaim state now row.tokenHash view) := by
      intro view hView
      rw [hRowHash]
      exact claiming_classifies hRunning hReliable hFree hUnleased
        (activeSoftClaims_eq_nil hUnclaimed) hFirst hView
    have hAfter : ∀ view ∈ a.sampledViews state now processes gpu, _ := fun view hView =>
      stored_classifies hRunning' hReliable' later hFree hUnleased hRowGPU hUnclaimed hFirst
        hRowHash hPresent hView
    constructor
    · intro hStands
      refine ⟨owner, hOwner, hOwnerHash ▸ hNamed, ?_⟩
      rw [← hOwnerHash]
      refine (allowedAfter_iff row.tokenHash).mp fun view hView => ?_
      exact (hBefore view hView).1.symm.trans
        ((hStands.same view hView).1.trans (hAfter view hView).1)
    · rintro ⟨other, hOther, _, hUndivided⟩
      rw [hOwner] at hOther
      cases hOther
      rw [← hOwnerHash] at hUndivided
      have hAgree := (allowedAfter_iff row.tokenHash).mpr hUndivided
      refine ⟨?_, ?_, ?_⟩
      · -- Of the claims with the id of the row, which are of no other GPU, none is gone.
        intro decision hMem hRelease claim hClaim hHere
        have hRowOnly : ∀ claim ∈ (state.withClaim row).softClaims, claim.id = row.id ∨
            claim.gpu = gpu → claim = row := by
          intro claim hMem hOf
          rcases mem_append.mp hMem with hOld | hNew
          · exact absurd hOf (not_or.mpr ⟨hRowID ▸ hFresh claim hOld, hUnclaimed claim hOld⟩)
          · exact mem_singleton.mp hNew
        rw [hRowOnly claim hClaim (.inr hHere)]
        refine enforce_keeps ?_ decision hMem hRelease
        intro other hOther hID site
        rw [hRowOnly other hOther (.inl hID), hRowGPU]
        intro hAbsent
        cases (hPresent site).symm.trans hAbsent
      · intro view hView
        obtain ⟨hAllowed, hCondemned⟩ := hBefore view hView
        obtain ⟨hAllowed', hCondemned'⟩ := hAfter view hView
        exact ⟨hAllowed.trans ((hAgree view hView).trans hAllowed'.symm),
          hCondemned.trans ((not_congr (hAgree view hView)).trans hCondemned'.symm)⟩
      · intro process _ _ hNone decision hMem
        rcases mem_append.mp hMem with hFirst | hSecond
        · exact enforce_passes_unread hNone decision hFirst
        · have hNone' : (a.visiting order hOrder).viewOf (state.withClaim row) now process = none :=
            hNone
          exact enforce_passes_unread hNone' decision hSecond

end Stored

end Authorizer

section Samples

open scoped Plain

instance (plan : Plan) (view : ProcessView) : Decidable (Authorizer.Allowed plan view) :=
  inferInstanceAs (Decidable (∃ decision ∈ plan.decisions,
    (decision.process = view.process ∧ decision.info = view.info) ∧ decision.action = .allow))

/-- Two claim keys. The first is used by one user, the second by everybody. -/
def sharedKey : State :=
  { tokens := [{ hash := "a", mode := "claimed" }, { hash := "b", mode := "claimed" }]
    authorizations :=
      [{ id := "x", mode := "user", tokenHash := "b", uid := 2000, active := true },
       { id := "y", mode := "user", tokenHash := "a", uid := -1, username := "*", active := true }] }

/-- The processes of somebody else and of the user with a key of their own. -/
def twoUsers : List ProcInfo :=
  [{ pid := 7, startTime := 3, uid := 1000 }, { pid := 8, startTime := 4, uid := 2000 }]

def twoSampled : List GPUProcess :=
  [{ gpu := 1, pid := 7, memBytes := 1 }, { gpu := 1, pid := 8, memBytes := 1 }]

/-- The decision by which the first process claims GPU 1 with the key of everybody. -/
def claimOfEverybody : Decision :=
  { action := .claim, reason := "claimed", authID := "y", tokenHash := "a"
    claim := { gpu := 1, tokenHash := "a", authorizationID := "y", runtimePID := 7
               runtimeStartTime := 3, createdAt := 10, updatedAt := 10 } }

def claimedByEverybody : State :=
  (upsertSoftClaim "1" claimOfEverybody.claim 11 sharedKey).edits.apply sharedKey

theorem reliableAuthorizer_genuine {known : List ProcInfo} (h : ∀ info ∈ known, Genuine info) :
    ∀ reader pid info, (reliableAuthorizer known).proc = some reader →
      reader.info pid = .ok info → Genuine info := by
  rintro reader pid info ⟨⟩ hInfo
  simp only [readerOf] at hInfo
  split at hInfo
  · rename_i found hFound
    cases hInfo
    exact h _ (mem_of_find?_eq_some hFound)
  · cases hInfo

theorem twoUsers_genuine : ∀ info ∈ twoUsers, Genuine info := by
  refine forall_mem_cons.mpr ⟨⟨by decide, by decide⟩, ?_⟩
  exact forall_mem_singleton.mpr ⟨by decide, by decide⟩

theorem claim_stands_iff_alone :
    let a := reliableAuthorizer twoUsers
    let sample : List GPUProcess := [{ gpu := 1, pid := 7, memBytes := 1 }]
    claimOfEverybody ∈ (a.enforce (fun _ _ => false) sharedKey sample 10).decisions ∧
      (a.ClaimStands (a.visiting List.reverse reverse_perm) (fun _ _ => false)
          (fun pid _ => pid == 7) sharedKey claimedByEverybody 10 sample 1 ↔
        a.Lasting sharedKey 10 (a.sampledViews sharedKey 10 sample 1)) := by
  intro a sample
  have hDecision : claimOfEverybody ∈ (@Authorizer.enforce (reliableAuthorizer twoUsers) ascii
      (fun _ _ => false) sharedKey [{ gpu := 1, pid := 7, memBytes := 1 }] 10).decisions := by
    decide +kernel
  refine ⟨hDecision, ?_⟩
  exact @Authorizer.claim_stands_iff ascii a sharedKey 10 sample 1 (fun _ => rfl)
    (reliableAuthorizer_reliable (by decide)) (reliableAuthorizer_genuine twoUsers_genuine)
    (fun _ _ => false) (fun pid _ => pid == 7) List.reverse reverse_perm (by decide)
    (by decide) (by decide) claimOfEverybody hDecision rfl rfl "1" (by decide) 11

/-- The user with a key of their own is killed in the pass that claims the GPU and allowed in
the next. -/
theorem claim_does_not_stand :
    let a := reliableAuthorizer twoUsers
    a.Reliable ∧ (∀ info ∈ twoUsers, Genuine info) ∧
      activeReservationsForGPU sharedKey.reservations 1 10 = [] ∧
      activeLeasesForGPU sharedKey.leases 1 10 = [] ∧ sharedKey.softClaims = [] ∧
      claimOfEverybody ∈ (a.enforce (fun _ _ => false) sharedKey twoSampled 10).decisions ∧
      ¬ a.ClaimStands a (fun _ _ => false) (fun _ _ => false) sharedKey claimedByEverybody 10
        twoSampled 1 := by
  refine ⟨reliableAuthorizer_reliable (by decide), twoUsers_genuine, by decide, by decide, rfl,
    by decide +kernel, fun hStands => ?_⟩
  have hBoth := (hStands.same
    { process := { gpu := 1, pid := 8, memBytes := 1 }
      info := { pid := 8, startTime := 4, uid := 2000 } } (by decide +kernel)).1
  exact absurd hBoth (by decide +kernel)

end Samples

end GPUardian
