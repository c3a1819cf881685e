import GPUardian.Enforce.Pass
import GPUardian.Store.Memory

/-! The daemon's cleanup of stale authorizations. One without a cgroup is released only
after the eviction scan found it quiescent in several samples in a row. -/
namespace GPUardian

open GoStrings List

def evictionCleanSamples : Nat := 3

/-- The daemon's counters of clean samples. A scope that is not in the map counts zero. -/
structure EvictionClean where
  authorizations : String → Nat := fun _ => 0
  leases : String → Nat := fun _ => 0

/-- One counter after an assessment. Scopes that the assessment does not list are deleted. -/
def cleanCount (flag : Option Bool) (count : Nat) : Nat :=
  match flag with
  | some true => count + 1
  | some false => 0
  | none => 0

def recordEvictionAssessment (assessment : EvictionAssessment) (clean : EvictionClean) :
    EvictionClean :=
  { authorizations := fun id => cleanCount (assessment.authorizations id) (clean.authorizations id)
    leases := fun id => cleanCount (assessment.leases id) (clean.leases id) }

/-- The counters after several passes. -/
def recordEvictionAssessments (assessments : List EvictionAssessment) (clean : EvictionClean) :
    EvictionClean :=
  assessments.foldl (fun clean assessment => recordEvictionAssessment assessment clean) clean

def authorizationScopeReady (clean : EvictionClean) (id : String) : Bool :=
  decide (evictionCleanSamples ≤ clean.authorizations id)

/-- A row without a token hash needs no token. -/
def tokenValidForCleanup (tokens : List Token) (now : Time) (tokenHash : String) : Bool :=
  tokenHash == "" || (tokenByHash tokens tokenHash).elim false fun token =>
    !token.revoked && (!timeIsSet token.expiresAt || decide (now < token.expiresAt))

/-- The authorizations that the cleanup ends. -/
def staleForCleanup (tokens : List Token) (now : Time) (authorization : Authorization) : Bool :=
  authorization.active && (authorization.revoked || authorizationExpired authorization now ||
    !tokenValidForCleanup tokens now authorization.tokenHash)

/-- A stale authorization that has to wait: its cgroup cannot be stopped, or its scope was
not quiescent often enough. -/
def heldForCleanup (stopCgroup : String → Option String) (clean : EvictionClean)
    (authorization : Authorization) : Bool :=
  if authorization.cgroupPath ≠ "" then (stopCgroup authorization.cgroupPath).isSome
  else authorization.mode != modeBare && !authorizationScopeReady clean authorization.id

def releaseAudit (tokens : List Token) (now : Time) (authorization : Authorization) : AuditEvent :=
  let revoked := authorization.revoked || !tokenValidForCleanup tokens now authorization.tokenHash
  { time := now
    kind := if revoked then "authorization_revoked" else "authorization_expired"
    message := if revoked then "authorization revoked" else "authorization expired"
    leaseID := authorization.id
    user := authorization.holder }

/-- What a cleanup releases, and whether nothing had to wait. -/
structure AuthorizationCleanup where
  released : List Authorization
  ok : Bool
  audits : List AuditEvent

/-- `cleanupExpiredAuthorizationsState`; `release` is the error of the store's
`ReleaseScopes`, which is called when there is something to release. -/
def cleanupExpiredAuthorizationsState (stopCgroup : String → Option String)
    (release : Option String) (clean : EvictionClean) (state : State) (now : Time) :
    AuthorizationCleanup :=
  let stale := state.authorizations.filter (staleForCleanup state.tokens now)
  let released := stale.filter (!heldForCleanup stopCgroup clean ·)
  let ok := !stale.any (heldForCleanup stopCgroup clean)
  if released = [] then { released := [], ok := ok, audits := [] }
  else match release with
    | some _ => { released := [], ok := false, audits := [] }
    | none =>
      { released := released, ok := ok, audits := released.map (releaseAudit state.tokens now) }

theorem clean_count (id : String) (assessments : List EvictionAssessment)
    (h : ∀ assessment ∈ assessments, assessment.authorizations id = some true)
    (clean : EvictionClean) :
    (recordEvictionAssessments assessments clean).authorizations id =
      clean.authorizations id + assessments.length := by
  induction assessments generalizing clean with
  | nil => rfl
  | cons assessment assessments ih =>
    have hFirst : (recordEvictionAssessment assessment clean).authorizations id =
        clean.authorizations id + 1 := by
      simp only [recordEvictionAssessment, h assessment mem_cons_self, cleanCount]
    have hRest := ih (fun other hOther => h other (mem_cons_of_mem _ hOther))
      (recordEvictionAssessment assessment clean)
    rw [hFirst] at hRest
    rw [length_cons, recordEvictionAssessments, foldl_cons]
    exact hRest.trans (by omega)

section Evidence

variable [Unicode] {state : State} {now : Time}

/-- A reservation of a valid reserve key whose window has not begun. -/
def upcomingReservation (state : State) (now : Time) (row : Reservation) : Bool :=
  reservationTokenValid state.tokens now row && row.active && !row.revoked &&
    decide (now < row.expiresAt) && decide (now < reservationStartsAt row)

/-- Every other reservation is evidence for the eviction scan. -/
theorem reservation_evidence (row : Reservation) :
    (reservationStale state.tokens now row || reservationValid state.tokens now row) =
      !upcomingReservation state now row := by
  simp only [reservationStale, reservationValid, upcomingReservation, reservationActiveAt]
  cases reservationTokenValid state.tokens now row <;> cases row.active <;> cases row.revoked <;>
    cases decide (now < row.expiresAt) <;> cases decide (now < reservationStartsAt row) <;> rfl

/-- What the scan can judge an authorization by: a claim or managed key, or a reservation
of its token that is not merely upcoming. -/
def Evident (state : State) (now : Time) (authorization : Authorization) : Prop :=
  authorizationEvictionMode authorization state.tokens = tokenModeClaimed ∨
    authorizationEvictionMode authorization state.tokens = tokenModeManaged ∨
    ∃ row ∈ state.reservations, row.tokenHash = authorization.tokenHash ∧ row.tokenHash ≠ "" ∧
      upcomingReservation state now row = false

theorem evident_of_row {authorization : Authorization} {gpu : Int} {row : Reservation}
    (hRow : row ∈ state.reservations) (hKey : reservationKey gpu authorization.tokenHash row = true)
    (h : reservationStale state.tokens now row = true ∨
      reservationValid state.tokens now row = true) :
    Evident state now authorization := by
  simp only [reservationKey, Bool.and_eq_true, bne_iff_ne, beq_iff_eq] at hKey
  refine .inr (.inr ⟨row, hRow, hKey.2, hKey.1.1, ?_⟩)
  rw [← Bool.not_eq_true', ← reservation_evidence, Bool.or_eq_true]
  exact h

theorem assesses_iff (authorization : Authorization) :
    assessesAuthorization state now authorization = true ↔
      authorization.mode ≠ modeBare ∧ authorization.cgroupPath = "" ∧
        authorizationGloballyValid authorization state.tokens now = false ∧
        Evident state now authorization := by
  have hRows : (tokenHasStaleReservation state now authorization.tokenHash = true ∨
      tokenHasValidReservation state now authorization.tokenHash = true) ↔
      ∃ row ∈ state.reservations, row.tokenHash = authorization.tokenHash ∧ row.tokenHash ≠ "" ∧
        upcomingReservation state now row = false := by
    simp only [tokenHasStaleReservation, tokenHasValidReservation, any_eq_true,
      Bool.and_eq_true, reservationKey, bne_iff_ne, beq_iff_eq, ← exists_or, ← and_or_left]
    refine exists_congr fun row => and_congr_right fun _ => ?_
    rw [← Bool.not_eq_true', ← reservation_evidence, Bool.or_eq_true]
    constructor
    · rintro ⟨⟨⟨hNamed, _⟩, hHash⟩, hEvidence⟩
      exact ⟨hHash, hNamed, hEvidence⟩
    · rintro ⟨hHash, hNamed, hEvidence⟩
      exact ⟨⟨⟨hNamed, trivial⟩, hHash⟩, hEvidence⟩
  simp only [assessesAuthorization, Evident, ← hRows, Bool.and_eq_true, Bool.not_eq_true',
    Bool.or_eq_false_iff, Bool.or_eq_true, beq_iff_eq, beq_eq_false_iff_ne, bne_eq_false_iff_eq]
  tauto

omit [Unicode] in
/-- What the cleanup ends is not valid for the scan. -/
theorem not_globallyValid_of_stale {authorization : Authorization}
    (h : staleForCleanup state.tokens now authorization = true) :
    authorizationGloballyValid authorization state.tokens now = false := by
  simp only [staleForCleanup, Bool.and_eq_true, Bool.or_eq_true, Bool.not_eq_true'] at h
  obtain ⟨_, (hRevoked | hExpired) | hToken⟩ := h
  · simp [authorizationGloballyValid, authorizationActiveAt, hRevoked]
  · simp [authorizationGloballyValid, authorizationActiveAt, hExpired]
  · simp only [tokenValidForCleanup, Bool.or_eq_false_iff] at hToken
    cases hFound : tokenByHash state.tokens authorization.tokenHash with
    | none => simp [authorizationGloballyValid, hFound]
    | some token =>
      rw [hFound, Option.elim_some, Bool.and_eq_false_iff] at hToken
      rw [authorizationGloballyValid, hFound, Option.elim_some]
      rcases hToken.2 with hRevoked | hExpired
      · simp [hRevoked]
      · simp [hExpired]

/-- A scope that the scan collects as stale on a GPU is one it can judge. -/
theorem evident_of_staleRelevant {authorization : Authorization} {gpu : Int}
    (h : (authorizationEvictionState authorization gpu state now).staleRelevant = true) :
    Evident state now authorization := by
  have hKeyed : ∀ evidence : List Token → Time → Reservation → Bool,
      (∀ row, evidence state.tokens now row = true → reservationStale state.tokens now row = true ∨
        reservationValid state.tokens now row = true) →
      (state.reservations.any fun row =>
        reservationKey gpu authorization.tokenHash row && evidence state.tokens now row) = true →
      Evident state now authorization := by
    intro evidence hEvidence hAny
    obtain ⟨row, hRow, hBoth⟩ := any_eq_true.mp hAny
    obtain ⟨hKey, hHere⟩ := Bool.and_eq_true_iff.mp hBoth
    exact evident_of_row hRow hKey (hEvidence row hHere)
  have hValid : validReservations state now gpu authorization.tokenHash = true →
      Evident state now authorization := hKeyed reservationValid fun _ => .inr
  have hStale : staleReservations state now gpu authorization.tokenHash = true →
      Evident state now authorization := hKeyed reservationStale fun _ => .inl
  unfold authorizationEvictionState at h
  dsimp only at h
  split_ifs at h with hReserved hGlobal hHere hClaimed hManaged
  · exact hStale h
  · rcases Bool.or_eq_true_iff.mp h with hHere | hHere
    · exact hValid hHere
    · exact hStale hHere
  · exact .inl hClaimed
  · exact .inr (.inl hManaged)
  · exact .inr (.inl hManaged)

end Evidence

section Assessment

variable {a : Authorizer}

/-- What a scan collects as stale are rows it was given, each evidence on that GPU. -/
theorem scanScopes_collects {α : Type} {site : Site} {evictionState : α → EvictionState}
    {scopeMatches : Site → α → Except String Bool} (rows : List α) {i : Nat} {found stale : List α}
    (h : a.scanScopes site evictionState scopeMatches i found rows = .stale stale) :
    ∀ row ∈ stale, row ∈ found ∨ (row ∈ rows ∧ (evictionState row).staleRelevant = true) := by
  induction rows generalizing i found with
  | nil =>
    cases h
    exact fun _ hFound => .inl hFound
  | cons first rows ih =>
    have hLater : ∀ {found'}, (∀ row ∈ found', row ∈ found ∨
        (row = first ∧ (evictionState row).staleRelevant = true)) →
        a.scanScopes site evictionState scopeMatches (i + 1) found' rows = .stale stale →
        ∀ row ∈ stale, row ∈ found ∨
          (row ∈ first :: rows ∧ (evictionState row).staleRelevant = true) := by
      intro found' hFound hScan row hRow
      rcases ih hScan row hRow with hOld | ⟨hMem, hRelevant⟩
      · rcases hFound row hOld with hOlder | ⟨rfl, hRelevant⟩
        · exact .inl hOlder
        · exact .inr ⟨mem_cons_self, hRelevant⟩
      · exact .inr ⟨mem_cons_of_mem _ hMem, hRelevant⟩
    unfold Authorizer.scanScopes at h
    split at h
    · cases h
    · split at h
      · exact hLater (fun _ hFound => .inl hFound) h
      · rename_i hOpen
        split at h
        · cases h
        · exact hLater (fun _ hFound => .inl hFound) h
        · split at h
          · cases h
          · rename_i hEntitled
            refine hLater ?_ h
            intro row hRow
            rcases mem_concat.mp hRow with hOld | rfl
            · exact .inl hOld
            · exact .inr ⟨rfl, by simpa [hEntitled] using hOpen⟩

/-- The changes that a scan makes to its assessment: doubt about all of it, or rows that
are not quiescent. A property kept by both holds at the end. -/
theorem evictProcesses_assessment [Unicode] {awaiting : Int → Nat → Bool} {reader : ProcReader}
    {state : State} {now : Time} {P : EvictionAssessment → Prop}
    (hDoubt : ∀ assessment, P assessment → P (markEvictionAssessmentUncertain assessment))
    (hObserve : ∀ scan authorizations leases gpu, P scan.assessment →
      (∀ row ∈ authorizations, row ∈ state.authorizations ∧
        (authorizationEvictionState row gpu state now).staleRelevant = true) →
      P (EvictionScan.observe authorizations leases scan).assessment)
    (processes : List GPUProcess) (i : Nat) {scan : EvictionScan} (h : P scan.assessment) :
    P (a.evictProcesses awaiting reader state now i processes scan).assessment := by
  induction processes generalizing i scan with
  | nil => exact h
  | cons process processes ih =>
    unfold Authorizer.evictProcesses
    split
    · exact hDoubt _ h
    · split
      · exact ih _ h
      · split
        · split
          · exact ih _ h
          · exact ih _ (hDoubt _ h)
        · rename_i info _
          refine ih _ ?_
          unfold Authorizer.evictProcess
          split
          · exact hDoubt _ h
          · exact h
          · rename_i authorizations hScan
            have hRows : ∀ row ∈ authorizations, row ∈ state.authorizations ∧
                (authorizationEvictionState row process.gpu state now).staleRelevant = true := by
              intro row hRow
              rcases scanScopes_collects state.authorizations hScan row hRow with hNone | hHere
              · exact absurd hNone not_mem_nil
              · exact hHere
            split
            · exact hDoubt _ h
            · exact h
            · rename_i leases _
              split
              · exact h
              · dsimp only
                split
                · exact hObserve scan authorizations leases process.gpu h hRows
                · exact hObserve scan authorizations leases process.gpu h hRows

/-- Which scopes a Go map lists after a loop that assigns to it. -/
theorem isSome_foldl_set {α : Type} (rows : List α) (key : α → String) (value : Bool)
    (flags : Flags) (id : String) :
    (rows.foldl (fun flags row => Flags.set flags (key row) value) flags id).isSome = true ↔
      (flags id).isSome = true ∨ ∃ row ∈ rows, key row = id := by
  induction rows generalizing flags with
  | nil => simp
  | cons row rows ih =>
    rw [foldl_cons, ih, exists_mem_cons_iff, ← or_assoc]
    refine or_congr_left ?_
    by_cases hKey : key row = id
    · simp [Flags.set, hKey]
    · have hOther : id ≠ key row := fun h => hKey h.symm
      simp [Flags.set, Function.update_of_ne hOther, hKey]

/-- The scopes that an eviction scan assesses: all stale ones it has evidence for, and no
others but those it has found a process for. -/
theorem assessed_iff [Unicode] {reader : ProcReader} (hReader : a.proc = some reader)
    (awaiting : Int → Nat → Bool) (state : State) (processes : List GPUProcess) (now : Time)
    (id : String) :
    ((∃ row ∈ state.authorizations, assessesAuthorization state now row = true ∧ row.id = id) →
      ((a.evictExpiredReservedProcesses awaiting state processes now).assessment.authorizations
        id).isSome = true) ∧
    (((a.evictExpiredReservedProcesses awaiting state processes now).assessment.authorizations
        id).isSome = true →
      ∃ row ∈ state.authorizations, Evident state now row ∧ row.id = id) := by
  have hInitial : ((initialAssessment state now).authorizations id).isSome = true ↔
      ∃ row ∈ state.authorizations, assessesAuthorization state now row = true ∧ row.id = id := by
    rw [initialAssessment, isSome_foldl_set]
    simp [mem_filter, and_assoc]
  have hEvident : (∃ row ∈ state.authorizations,
      assessesAuthorization state now row = true ∧ row.id = id) →
      ∃ row ∈ state.authorizations, Evident state now row ∧ row.id = id := by
    rintro ⟨row, hRow, hAssessed, hID⟩
    exact ⟨row, hRow, ((assesses_iff row).mp hAssessed).2.2.2, hID⟩
  simp only [Authorizer.evictExpiredReservedProcesses, hReader]
  split
  · exact ⟨hInitial.mpr, fun hKey => hEvident (hInitial.mp hKey)⟩
  · refine ⟨?_, ?_⟩
    · intro hRow
      refine evictProcesses_assessment (P := fun assessment =>
        (assessment.authorizations id).isSome = true) ?_ ?_ processes 0 (hInitial.mpr hRow)
      · intro assessment hKey
        rw [markEvictionAssessmentUncertain, Option.isSome_map]
        exact hKey
      · intro scan authorizations leases gpu hKey _
        exact (isSome_foldl_set authorizations (·.id) false _ id).mpr (.inl hKey)
    · refine evictProcesses_assessment (P := fun assessment =>
        (assessment.authorizations id).isSome = true →
          ∃ row ∈ state.authorizations, Evident state now row ∧ row.id = id) ?_ ?_ processes 0
        fun hKey => hEvident (hInitial.mp hKey)
      · intro assessment h hKey
        rw [markEvictionAssessmentUncertain, Option.isSome_map] at hKey
        exact h hKey
      · intro scan authorizations leases gpu h hRows hKey
        rcases (isSome_foldl_set authorizations (·.id) false _ id).mp hKey with hOld | ⟨row, hRow, hID⟩
        · exact h hOld
        · obtain ⟨hStored, hRelevant⟩ := hRows row hRow
          exact ⟨row, hStored, evident_of_staleRelevant hRelevant, hID⟩

end Assessment

/-- In every state that the store's calls reach: a stale authorization outside a cgroup is
assessed if the scan has evidence for it, and only then. Found quiescent in enough
samples, it is released. -/
theorem stale_scope_is_assessed [Unicode] [Digest] (codec : Codec) (spare : Spare)
    (calls : List (SaveErrors × Spare × Op)) {a : Authorizer} {reader : ProcReader}
    (hReader : a.proc = some reader) (awaiting : Int → Nat → Bool) (processes : List GPUProcess)
    (now : Time) :
    let state := ((Memory.load spare {} none).run codec calls).state
    let scan := a.evictExpiredReservedProcesses awaiting state processes now
    ∀ row ∈ state.authorizations, row.mode ≠ modeBare → row.cgroupPath = "" →
      staleForCleanup state.tokens now row = true →
      (Evident state now row → (scan.assessment.authorizations row.id).isSome = true) ∧
      ((∀ other ∈ state.authorizations, other.id = row.id → other = row) →
        (scan.assessment.authorizations row.id).isSome = true → Evident state now row) ∧
      ∀ (stopCgroup : String → Option String) (clean : EvictionClean)
        (assessments : List EvictionAssessment), evictionCleanSamples ≤ assessments.length →
        (∀ assessment ∈ assessments, assessment.authorizations row.id = some true) →
        row ∈ (cleanupExpiredAuthorizationsState stopCgroup none
          (recordEvictionAssessments assessments clean) state now).released := by
  intro state scan row hRow hMode hCgroup hStale
  refine ⟨?_, ?_, ?_⟩
  · intro hEvident
    refine (assessed_iff hReader awaiting state processes now row.id).1 ⟨row, hRow, ?_, rfl⟩
    exact (assesses_iff row).mpr ⟨hMode, hCgroup, not_globallyValid_of_stale hStale, hEvident⟩
  · intro hUnique hKey
    obtain ⟨other, hOther, hEvident, hID⟩ :=
      (assessed_iff hReader awaiting state processes now row.id).2 hKey
    rw [hUnique other hOther hID] at hEvident
    exact hEvident
  · intro stopCgroup clean assessments hEnough hClean
    have hCount := clean_count row.id assessments hClean clean
    have hReady : evictionCleanSamples ≤
        (recordEvictionAssessments assessments clean).authorizations row.id := by omega
    have hFree : heldForCleanup stopCgroup (recordEvictionAssessments assessments clean) row =
        false := by
      simp [heldForCleanup, hCgroup, authorizationScopeReady, hReady]
    have hReleased : row ∈ (state.authorizations.filter (staleForCleanup state.tokens now)).filter
        (!heldForCleanup stopCgroup (recordEvictionAssessments assessments clean) ·) := by
      simp only [mem_filter, hRow, hStale, hFree, Bool.not_false, and_self]
    unfold cleanupExpiredAuthorizationsState
    dsimp only
    rw [if_neg (ne_nil_of_mem hReleased)]
    exact hReleased

open scoped Plain

/-- The hash of the reserve key `gk_a1` and that of the managed key `gk_u1`. -/
def reserveKeyHash : String := "8ac0c40d9a01ed9058fae66ef8eea7a762016e39d399354516626d128c0c2293"

def userKeyHash : String := "d7f4323abae6608aa67531f37318c68fa108c517eebff46d773b53a007823d18"

@[reducible]
def sampleDigest : Digest where
  sha256Hex secret :=
    if secret = "gk_a1" then reserveKeyHash else if secret = "gk_u1" then userKeyHash else ""

attribute [local instance] sampleDigest

/-- Alice's authorization of a container. -/
def containerAuthorization : Authorization :=
  { id := "auth_1", mode := "docker", tokenMode := "reserved", holder := "alice",
    tokenHash := reserveKeyHash, containerID := "0123456789abcdef", createdAt := 60, active := true }

/-- Alice books GPU 0 with a reserve key, authorizes a container with it, and then
something else happens. -/
def reservedContainer (last : Op) : List (SaveErrors × Spare × Op) :=
  [({}, {}, .registerScheduledReservationsWithSession (.ok true)
      { secretHex := "a1", tokenHex := "1", reservationHex := fun _ => "1" } "alice" "" "" [0]
      100 200 50),
    ({}, {}, .addAuthorization containerAuthorization 60), ({}, {}, last)]

/-- The switch to managed keys, with one for Alice. -/
def managedCutover : Op :=
  .syncManagedUserKeys (.ok true) (fun _ => "f0")
    { snapshotID := "s1", authorityID := "gw"
      keys := [{ id := "key_1", owner := "alice", version := 1, hash := userKeyHash }] } 120

/-- What is stored in the end. -/
def containerState (last : Op) : State :=
  ((Memory.load {} {} none).run (reachedCodec ((reservedContainer last).map (·.2.2)))
    (reservedContainer last)).state

/-- After the switch the reservation has Alice's new key and the authorization the old one,
which is no longer stored. -/
def cutOver : State :=
  { managedKeys := true
    keySnapshotID := "s1"
    managedKeyAuthority := "gw"
    tokens := [{ id := "key_1", hash := userKeyHash, name := "alice", mode := "managed",
                 version := 1, managed := true, createdAt := 120 }]
    reservations := [{ id := "res_1", groupID := "tok_1", gpu := 0, tokenHash := userKeyHash,
                       holder := "alice", createdAt := 50, startsAt := 100, expiresAt := 200,
                       active := true }]
    authorizations := [containerAuthorization] }

/-- Alice's reserve key is revoked instead. -/
theorem stale_scope_is_assessed_withdrawn :
    let state := containerState (.revoke "tok_1" 130)
    staleForCleanup state.tokens 140 { containerAuthorization with revoked := true } = true ∧
      (((authorizerOf []).evictExpiredReservedProcesses (fun _ _ => false) state [] 140
        ).assessment.authorizations "auth_1").isSome = true := by
  have hRow : { containerAuthorization with revoked := true } ∈
      (containerState (.revoke "tok_1" 130)).authorizations := by decide +kernel
  have hStale : staleForCleanup (containerState (.revoke "tok_1" 130)).tokens 140
      { containerAuthorization with revoked := true } = true := by decide +kernel
  have hEvident : Evident (containerState (.revoke "tok_1" 130)) 140
      { containerAuthorization with revoked := true } := .inr (.inr (by decide +kernel))
  exact ⟨hStale, (@stale_scope_is_assessed ascii sampleDigest _ {} _ (authorizerOf [])
    (readerOf []) rfl (fun _ _ => false) [] 140 _ hRow (by decide) rfl hStale).1 hEvident⟩

theorem cutOver_reached : containerState managedCutover = cutOver := by decide +kernel

/-- The cleanup takes the authorization for stale and the scan does not list it, so that its
counter stays at zero and the cleanup waits for it forever. -/
theorem stale_scope_not_assessed :
    let state := containerState managedCutover
    let scan := (authorizerOf []).evictExpiredReservedProcesses (fun _ _ => false) state [] 130
    (∀ call ∈ reservedContainer managedCutover, call.2.2.daemon = true) ∧
    state.authorizations = [containerAuthorization] ∧
    staleForCleanup state.tokens 130 containerAuthorization = true ∧
    scan.assessment.authorizations "auth_1" = none ∧
    ∀ clean,
      let cleanup := cleanupExpiredAuthorizationsState (fun _ => none) none
        (recordEvictionAssessment scan.assessment clean) state 130
      cleanup.released = [] ∧ cleanup.ok = false := by
  rw [cutOver_reached]
  refine ⟨by decide +kernel, by decide +kernel, by decide +kernel, by decide +kernel, ?_⟩
  intro clean
  exact ⟨rfl, rfl⟩

end GPUardian
