import GPUardian.Enforce.Scan
import GPUardian.Enforce.Eviction
import GPUardian.Enforce.Pass

/-! Eviction and enforcement decide separately who may use a GPU: eviction asks each scope
whether it is entitled there, enforcement filters the authorizations by token and mode.
What enforcement would accept is entitled, so eviction leaves it alone. -/
namespace GPUardian

open GoStrings List Option

variable {tokenFilter : Option (String → Bool)} {tokenMode : String}

section Eligible

variable [Unicode] {state : State} {gpu : Int} {now : Time} {authorization : Authorization}
  {token : Token}

/-- What `matchAnyAuthorization` has checked about an authorization it accepts. -/
theorem eligibleToken_some {tokens : List Token}
    (h : Authorizer.eligibleToken tokens tokenFilter tokenMode now authorization = some token) :
    authorizationActiveAt authorization now = true ∧
      tokenFilter.elim true (· authorization.tokenHash) = true ∧
      tokenByHash tokens authorization.tokenHash = some token ∧ tokenActiveAt token now = true ∧
      (token.managed = true → authorization.tokenVersion = token.version) ∧
      (tokenMode = "" ∨ normalizeTokenMode token.mode = tokenMode ∨
        (tokenMode = tokenModeClaimed ∧ normalizeTokenMode token.mode = tokenModeManaged)) := by
  unfold Authorizer.eligibleToken at h
  split at h
  · cases h
  · rename_i hActive
    split at h
    · cases h
    · rename_i hFilter
      split at h
      · cases h
      · rename_i found hFound
        dsimp only at h
        split at h
        · cases h
        · rename_i hLive
          split at h
          · cases h
          · rename_i hVersion
            split at h
            · cases h
            · rename_i hMode
              cases h
              refine ⟨by simpa using hActive, by simpa using hFilter, hFound, by simpa using hLive,
                ?_, ?_⟩
              · intro hManaged
                simpa [hManaged] using hVersion
              · by_cases hAny : tokenMode = ""
                · exact .inl hAny
                · by_cases hSame : normalizeTokenMode token.mode = tokenMode
                  · exact .inr (.inl hSame)
                  · exact .inr (.inr (not_not.mp fun hOther => hMode ⟨hAny, hSame, hOther⟩))

omit [Unicode] in
theorem tokenActiveAt_iff :
    tokenActiveAt token now = true ↔
      token.revoked = false ∧ (!timeIsSet token.expiresAt || decide (now < token.expiresAt)) = true := by
  simp only [tokenActiveAt, tokenExpired, Bool.not_and, Bool.not_not, Bool.and_eq_true,
    Bool.not_eq_true']

theorem globallyValid_of_eligible
    (h : Authorizer.eligibleToken state.tokens tokenFilter tokenMode now authorization =
      some token) : authorizationGloballyValid authorization state.tokens now = true := by
  obtain ⟨hActive, _, hFound, hLive, hVersion, _⟩ := eligibleToken_some h
  obtain ⟨hRevoked, hExpiry⟩ := tokenActiveAt_iff.mp hLive
  have hManaged : (!token.managed || authorization.tokenVersion == token.version) = true := by
    cases hKind : token.managed with
    | false => rfl
    | true => simpa using hVersion hKind
  rw [authorizationGloballyValid, hActive, hFound, Bool.true_and, elim_some, hRevoked,
    hManaged, hExpiry]
  rfl

/-- A token mode that the daemon issues. -/
def KnownMode (token : Token) : Prop :=
  normalizeTokenMode token.mode = tokenModeReserved ∨
    normalizeTokenMode token.mode = tokenModeClaimed ∨
    normalizeTokenMode token.mode = tokenModeManaged

/-- A reservation whose token is of a known mode; one for a reserve key names it. -/
def WellHeld (state : State) (reservation : Reservation) : Prop :=
  ∀ token, tokenByHash state.tokens reservation.tokenHash = some token →
    KnownMode token ∧
      (normalizeTokenMode token.mode = tokenModeReserved → reservation.tokenHash ≠ "")

/-- On a GPU without reservations, a claim or managed token entitles. -/
theorem entitled_of_claimed
    (h : Authorizer.eligibleToken state.tokens none tokenModeClaimed now authorization =
      some token) :
    (authorizationEvictionState authorization gpu state now).entitled = true := by
  have hValid := globallyValid_of_eligible h
  obtain ⟨_, _, hFound, _, _, hMode⟩ := eligibleToken_some h
  have hEviction : authorizationEvictionMode authorization state.tokens =
      normalizeTokenMode token.mode := by
    rw [authorizationEvictionMode, hFound]
  have hKind : normalizeTokenMode token.mode = tokenModeClaimed ∨
      normalizeTokenMode token.mode = tokenModeManaged := by
    rcases hMode with hEmpty | hClaimed | ⟨_, hManaged⟩
    · exact absurd hEmpty (by decide)
    · exact .inl hClaimed
    · exact .inr hManaged
  rcases hKind with hKind | hKind
  · simp [authorizationEvictionState, hEviction, hKind, hValid, tokenModeClaimed, tokenModeReserved]
  · rw [authorizationEvictionState, hEviction, hKind, hValid]
    cases validReservations state now gpu authorization.tokenHash <;> rfl

/-- On a reserved GPU, the token of one of its active reservations entitles. -/
theorem entitled_of_reserved
    (hHeld : ∀ row ∈ activeReservationsForGPU state.reservations gpu now, WellHeld state row)
    (h : Authorizer.eligibleToken state.tokens
      (some fun hash => (activeReservationsForGPU state.reservations gpu now).any
        (·.tokenHash == hash)) "" now authorization = some token) :
    (authorizationEvictionState authorization gpu state now).entitled = true := by
  have hValid := globallyValid_of_eligible h
  obtain ⟨_, hFilter, hFound, hLive, _, _⟩ := eligibleToken_some h
  obtain ⟨row, hRow, hHash⟩ := List.any_eq_true.mp hFilter
  have hHash : row.tokenHash = authorization.tokenHash := by simpa using hHash
  obtain ⟨hKnown, hNamed⟩ := hHeld row hRow token (by rw [hHash, hFound])
  have hEviction : authorizationEvictionMode authorization state.tokens =
      normalizeTokenMode token.mode := by
    rw [authorizationEvictionMode, hFound]
  rcases hKnown with hKind | hKind | hKind
  · -- The reservation itself is a valid one of the token on this GPU.
    obtain ⟨hStored, hHere⟩ := mem_filter.mp hRow
    obtain ⟨hGPU, hActive⟩ := Bool.and_eq_true_iff.mp hHere
    obtain ⟨hRevoked, hExpiry⟩ := tokenActiveAt_iff.mp hLive
    have hToken : reservationTokenValid state.tokens now row = true := by
      rw [reservationTokenValid, hHash, hFound, elim_some, hRevoked, hKind, hExpiry]
      rfl
    have hReservation : validReservations state now gpu authorization.tokenHash = true := by
      refine List.any_eq_true.mpr ⟨row, hStored, ?_⟩
      rw [reservationValid, hToken, hActive, reservationKey, hGPU, hHash]
      simpa [hHash] using hNamed hKind
    simp [authorizationEvictionState, hEviction, hKind, hValid, hReservation, tokenModeReserved]
  · simp [authorizationEvictionState, hEviction, hKind, hValid, tokenModeClaimed, tokenModeReserved]
  · rw [authorizationEvictionState, hEviction, hKind, hValid]
    cases validReservations state now gpu authorization.tokenHash <;> rfl

end Eligible

namespace Authorizer

variable [Unicode] (a : Authorizer)

/-- The authorizations that enforcement accepts on a GPU without legacy leases: by the
tokens of its active reservations if there are any, otherwise by claim and managed mode. -/
def enforcedAuthorization (site : Site) (state : State) (gpu : Int) (info : ProcInfo) (now : Time) :
    Except (List String) (Option Authorization) :=
  let reservations := activeReservationsForGPU state.reservations gpu now
  if reservations ≠ [] then
    a.matchAnyAuthorization site state info
      (some fun hash => reservations.any (·.tokenHash == hash)) "" now
  else a.matchAnyAuthorization site state info none tokenModeClaimed now

omit [Unicode] in
/-- The pass is not cancelled. -/
abbrev Running : Prop := ∀ site, a.ctxErr site = none

omit [Unicode] in
/-- Lookups that answer, and always alike. An unknown container is an answer. -/
structure Reliable : Prop where
  read_uid : ∀ reader pid info, a.proc = some reader → reader.info pid = .ok info → 0 ≤ info.uid
  resolver : ∃ runtime, a.runtime = some runtime ∧
    ∃ containers namespaces : String → Except LookupError String,
    (∀ site id, runtime.dockerContainerName site id = containers id) ∧
    (∀ site id, runtime.namespaceForContainer site id = namespaces id) ∧
    (∀ id err, containers id = .error err → err.notFound = true) ∧
    (∀ id err, namespaces id = .error err → err.notFound = true)
  users : ∃ names : Int → String, ∀ site uid, a.usernameLookup site uid = .ok (names uid)

variable {a}

omit [Unicode] in
theorem lookupScope_answers (kind owner id : String) {answer : Except LookupError String}
    (h : ∀ err, answer = .error err → err.notFound = true) (accepts : String → Bool) :
    ∃ found, lookupScope kind owner id answer accepts = .ok found := by
  cases answer with
  | ok name => exact ⟨accepts name, rfl⟩
  | error err => exact ⟨false, by rw [lookupScope, h err rfl, if_pos rfl]⟩

variable {info : ProcInfo}

/-- With reliable lookups a scope matches a process or not, wherever it is asked. -/
theorem Reliable.scope (h : a.Reliable) (authorization : Authorization) (hUID : 0 ≤ info.uid) :
    ∃ found, ∀ site, a.authorizationScopeMatchesForEviction site authorization info = .ok found := by
  obtain ⟨runtime, hRuntime, containers, namespaces, hContainers, hNamespaces, hKnown, hSpaces⟩ :=
    h.resolver
  obtain ⟨names, hNames⟩ := h.users
  unfold authorizationScopeMatchesForEviction
  split_ifs
  · exact ⟨_, fun _ => rfl⟩
  · unfold dockerPatternMatches
    simp only [hRuntime, hContainers]
    split_ifs
    · exact ⟨_, fun _ => rfl⟩
    · obtain ⟨found, hFound⟩ := lookupScope_answers "docker" "authorization" authorization.id
        (hKnown info.containerID) (wildcardMatch authorization.containerPattern)
      exact ⟨found, fun _ => hFound⟩
  · exact ⟨_, fun _ => rfl⟩
  · unfold k8sScopeMatches
    simp only [hRuntime, hNamespaces]
    split_ifs
    · exact ⟨_, fun _ => rfl⟩
    · obtain ⟨found, hFound⟩ := lookupScope_answers "k8s" "authorization" authorization.id
        (hSpaces info.containerID) (wildcardMatch authorization.namespace)
      exact ⟨found, fun _ => hFound⟩
  · unfold userScopeMatches
    simp only [if_neg (not_lt.mpr hUID), hNames]
    split_ifs
    · exact ⟨_, fun _ => rfl⟩
    · exact ⟨_, fun _ => rfl⟩
    · exact ⟨_, fun _ => rfl⟩
  · exact ⟨_, fun _ => rfl⟩

variable {site : Site}

omit [Unicode] in
/-- A scan that found no entitled match has asked every entitled scope. -/
theorem scanScopes_stale {α : Type} {evictionState : α → EvictionState}
    {scopeMatches : Site → α → Except String Bool} (rows : List α) {i : Nat} {found stale : List α}
    (h : a.scanScopes site evictionState scopeMatches i found rows = .stale stale) :
    ∀ row ∈ rows, (evictionState row).entitled = true →
      ∃ site', scopeMatches site' row = .ok false := by
  induction rows generalizing i found with
  | nil => exact fun _ hMem => absurd hMem not_mem_nil
  | cons first rows ih =>
    unfold scanScopes at h
    split at h
    · cases h
    · split at h
      · rename_i hOpen
        intro row hRow hEntitled
        rcases mem_cons.mp hRow with rfl | hRest
        · rw [hEntitled] at hOpen
          cases hOpen
        · exact ih h row hRest hEntitled
      · split at h
        · cases h
        · rename_i hAnswer
          intro row hRow hEntitled
          rcases mem_cons.mp hRow with rfl | hRest
          · exact ⟨_, hAnswer⟩
          · exact ih h row hRest hEntitled
        · split at h
          · cases h
          · rename_i hEntitledFirst
            intro row hRow hEntitled
            rcases mem_cons.mp hRow with rfl | hRest
            · exact absurd hEntitled hEntitledFirst
            · exact ih h row hRest hEntitled

/-- The token mode that a match reports is no part of the scope. -/
theorem scopeMatches_tokenMode (site : Site) (row : Authorization) (mode : String)
    (info : ProcInfo) :
    a.authorizationScopeMatchesForEviction site { row with tokenMode := mode } info =
      a.authorizationScopeMatchesForEviction site row info := by
  simp only [authorizationScopeMatchesForEviction, dockerPatternMatches, userScopeMatches]

variable {now : Time}

/-- Enforcement accepts nothing when the scope of no eligible authorization matches. -/
theorem matchAuthorizations_ne_some {tokens : List Token} (rows : List Authorization) (i : Nat)
    (errors : List String)
    (h : ∀ row ∈ rows, (eligibleToken tokens tokenFilter tokenMode now row).isSome →
      ∀ site, a.authorizationScopeMatchesForEviction site row info = .ok false)
    (found : Authorization) :
    a.matchAuthorizations site tokens info tokenFilter tokenMode now i errors rows ≠
      .ok (some found) := by
  induction rows generalizing i with
  | nil =>
    rw [matchAuthorizations]
    split <;> nofun
  | cons row rows ih =>
    have hRest := ih (i + 1) fun other hOther => h other (mem_cons_of_mem _ hOther)
    rw [matchAuthorizations]
    split
    · nofun
    · cases hToken : eligibleToken tokens tokenFilter tokenMode now row with
      | none => exact hRest
      | some token =>
        have hScope := h row mem_cons_self (by rw [hToken]; rfl) (site ++ [i])
        simp only [scopeMatches_tokenMode, hScope]
        exact hRest

/-- Why a sampled process is evicted: it was read, and no scope that is entitled on its GPU
matches it. -/
def Unentitled (a : Authorizer) (reader : ProcReader) (state : State) (now : Time)
    (decision : Decision) : Prop :=
  reader.info decision.process.pid = .ok decision.info ∧
    ∃ site stale, a.scanAuthorizations site state decision.process.gpu decision.info now =
      .stale stale

theorem evictProcess_unentitled {awaiting : Int → Nat → Bool} {reader : ProcReader} {state : State}
    {process : GPUProcess} {scan : EvictionScan} (hInfo : reader.info process.pid = .ok info) :
    ∀ decision ∈ (a.evictProcess awaiting site state process info now scan).plan.decisions,
      decision ∈ scan.plan.decisions ∨
        (decision.process = process ∧ Unentitled a reader state now decision) := by
  unfold evictProcess
  split
  · exact fun _ hOld => .inl hOld
  · exact fun _ hOld => .inl hOld
  · rename_i authorizations hScan
    split
    · exact fun _ hOld => .inl hOld
    · exact fun _ hOld => .inl hOld
    · rename_i leases _
      split
      · exact fun _ hOld => .inl hOld
      · dsimp only
        split
        · exact fun _ hOld => .inl hOld
        · intro decision hDecision
          obtain ⟨killed, _, _, ⟨hProcess, hRead⟩, _, hPlan⟩ := a.kill_step awaiting
            { process := process, info := info }
            (evictionReport state process authorizations leases) now
            { (scan.observe authorizations leases).plan with
              targeted := process.pid :: (scan.observe authorizations leases).plan.targeted }
          rw [hPlan] at hDecision
          rcases mem_concat.mp hDecision with hOld | rfl
          · exact .inl hOld
          · refine .inr ⟨hProcess, ?_⟩
            rw [Unentitled, hProcess, hRead]
            exact ⟨hInfo, site, authorizations, hScan⟩

/-- The scan adds decisions only for processes that nothing entitles. -/
theorem evictProcesses_unentitled {awaiting : Int → Nat → Bool} {reader : ProcReader}
    {state : State} (processes : List GPUProcess) (i : Nat) (scan : EvictionScan) :
    ∀ decision ∈ (a.evictProcesses awaiting reader state now i processes scan).plan.decisions,
      decision ∈ scan.plan.decisions ∨
        (decision.process ∈ processes ∧ Unentitled a reader state now decision) := by
  induction processes generalizing i scan with
  | nil => exact fun _ hOld => .inl hOld
  | cons process processes ih =>
    have hLater : ∀ i scan', (∀ decision ∈ scan'.plan.decisions, decision ∈ scan.plan.decisions ∨
        (decision.process = process ∧ Unentitled a reader state now decision)) →
        ∀ decision ∈ (a.evictProcesses awaiting reader state now i processes scan').plan.decisions,
          decision ∈ scan.plan.decisions ∨
            (decision.process ∈ process :: processes ∧ Unentitled a reader state now decision) := by
      intro i scan' hScan decision hDecision
      rcases ih i scan' decision hDecision with hOld | ⟨hMem, hUnentitled⟩
      · rcases hScan decision hOld with hOlder | ⟨hProcess, hUnentitled⟩
        · exact .inl hOlder
        · exact .inr ⟨hProcess ▸ mem_cons_self, hUnentitled⟩
      · exact .inr ⟨mem_cons_of_mem _ hMem, hUnentitled⟩
    unfold evictProcesses
    split
    · exact fun _ hOld => .inl hOld
    · split
      · exact hLater _ scan fun _ hOld => .inl hOld
      · split
        · split
          · exact hLater _ scan fun _ hOld => .inl hOld
          · exact hLater _ _ fun _ hOld => .inl hOld
        · rename_i info hInfo
          exact hLater _ _ (evictProcess_unentitled hInfo)

/-- With reliable lookups, eviction acts on a sampled entry only if enforcement finds no
authorization for it on that GPU, where the active reservations there are held by tokens
of a known mode. -/
theorem evicted_is_unauthorized (hReliable : a.Reliable) (awaiting : Int → Nat → Bool)
    (state : State) (processes : List GPUProcess) (now : Time) (decision : Decision)
    (hDecision : decision ∈
      (a.evictExpiredReservedProcesses awaiting state processes now).plan.decisions)
    (hHeld : ∀ row ∈ activeReservationsForGPU state.reservations decision.process.gpu now,
      WellHeld state row) :
    decision.process ∈ processes ∧ ∀ site found,
      a.enforcedAuthorization site state decision.process.gpu decision.info now ≠
        .ok (some found) := by
  unfold evictExpiredReservedProcesses at hDecision
  split at hDecision
  · exact absurd hDecision not_mem_nil
  · rename_i reader hReader
    dsimp only at hDecision
    split at hDecision
    · exact absurd hDecision not_mem_nil
    · rcases evictProcesses_unentitled processes 0 _ decision hDecision with
        hNone | ⟨hMem, hRead, _, stale, hScan⟩
      · exact absurd hNone not_mem_nil
      · have hAsked := scanScopes_stale state.authorizations hScan
        have hNoMatch : ∀ row ∈ state.authorizations,
            (authorizationEvictionState row decision.process.gpu state now).entitled = true →
            ∀ site, a.authorizationScopeMatchesForEviction site row decision.info = .ok false := by
          intro row hRow hEntitled site
          obtain ⟨found, hFound⟩ := hReliable.scope row
            (hReliable.read_uid reader _ _ hReader hRead)
          obtain ⟨site', hFalse⟩ := hAsked row hRow hEntitled
          rw [hFound site, ← hFound site', hFalse]
        refine ⟨hMem, ?_⟩
        intro site found
        unfold enforcedAuthorization
        dsimp only
        split
        · refine matchAuthorizations_ne_some _ 0 [] ?_ found
          intro row hRow hEligible
          obtain ⟨token, hToken⟩ := isSome_iff_exists.mp hEligible
          exact hNoMatch row hRow (entitled_of_reserved hHeld hToken)
        · refine matchAuthorizations_ne_some _ 0 [] ?_ found
          intro row hRow hEligible
          obtain ⟨token, hToken⟩ := isSome_iff_exists.mp hEligible
          exact hNoMatch row hRow (entitled_of_claimed hToken)

end Authorizer

section Samples

open scoped Plain

/-- An authorizer whose lookups all answer; it knows no container. -/
def reliableAuthorizer (known : List ProcInfo) : Authorizer :=
  { authorizerOf known with
    runtime := some
      { dockerContainerName := fun _ _ => .error { notFound := true, text := "no such container" }
        namespaceForContainer := fun _ _ => .error { notFound := true, text := "no such container" } }
    usernameLookup := fun _ _ => .ok "user" }

theorem reliableAuthorizer_reliable {known : List ProcInfo}
    (hUID : ∀ info ∈ known, 0 ≤ info.uid) : (reliableAuthorizer known).Reliable where
  read_uid := by
    rintro reader pid info ⟨⟩ hInfo
    simp only [readerOf] at hInfo
    split at hInfo
    · rename_i found hFound
      cases hInfo
      exact hUID _ (mem_of_find?_eq_some hFound)
    · cases hInfo
  resolver := by
    refine ⟨_, rfl, fun _ => .error { notFound := true, text := "no such container" },
      fun _ => .error { notFound := true, text := "no such container" },
      fun _ _ => rfl, fun _ _ => rfl, ?_, ?_⟩
    · rintro _ _ ⟨⟩
      rfl
    · rintro _ _ ⟨⟩
      rfl
  users := ⟨fun _ => "user", fun _ _ => rfl⟩

/-- The owner's reservation of GPU 1 is over, and somebody else has the GPU now. -/
def reservationOver : State :=
  { tokens := [{ hash := "a", mode := "reserved" }, { hash := "b", mode := "reserved" }]
    reservations :=
      [{ id := "r0", gpu := 1, tokenHash := "a", startsAt := 1, expiresAt := 5, active := true },
       { id := "r1", gpu := 1, tokenHash := "b", startsAt := 5, expiresAt := 100, active := true }]
    authorizations := [{ id := "x", mode := "user", tokenHash := "a", uid := 1000, active := true }] }

theorem evicted_is_unauthorized_reservationOver :
    ∃ decision ∈ ((reliableAuthorizer [intruder]).evictExpiredReservedProcesses (fun _ _ => false)
        reservationOver [{ gpu := 1, pid := 7, memBytes := 1 }] 10).plan.decisions,
      decision.action = .kill ∧ ∀ site found,
        (reliableAuthorizer [intruder]).enforcedAuthorization site reservationOver
          decision.process.gpu decision.info 10 ≠ .ok (some found) := by
  have hKill : ∃ decision ∈ (@Authorizer.evictExpiredReservedProcesses
      (reliableAuthorizer [intruder]) ascii (fun _ _ => false) reservationOver
      [{ gpu := 1, pid := 7, memBytes := 1 }] 10).plan.decisions,
      decision.action = .kill ∧ decision.process.gpu = 1 := by decide +kernel
  obtain ⟨decision, hDecision, hAction, hGPU⟩ := hKill
  refine ⟨decision, hDecision, hAction, ?_⟩
  refine (@Authorizer.evicted_is_unauthorized ascii _ (reliableAuthorizer_reliable (by decide))
    _ _ _ _ decision hDecision ?_).2
  have hRows : ∀ row ∈ activeReservationsForGPU reservationOver.reservations 1 10,
      row.tokenHash = "b" := by decide +kernel
  have hStored : tokenByHash reservationOver.tokens "b" =
      some { hash := "b", mode := "reserved" } := by decide +kernel
  rw [hGPU]
  intro row hRow token hToken
  rw [hRows row hRow] at hToken ⊢
  rw [hStored] at hToken
  cases hToken
  exact ⟨.inl (by decide +kernel), fun _ => by decide⟩

/-- A GPU whose reservation is held by the token `hash` of the given mode. The process also
matches an authorization of a revoked claim key. -/
def oddHolder (hash mode : String) : State :=
  { tokens := [{ hash := hash, mode := mode }, { hash := "c", mode := "claimed", revoked := true }]
    reservations := [{ id := "r", gpu := 1, tokenHash := hash, startsAt := 1, expiresAt := 100,
                       active := true }]
    authorizations :=
      [{ id := "x", mode := "user", tokenHash := hash, uid := 1000, active := true },
       { id := "y", mode := "user", tokenHash := "c", uid := 1000, active := true }] }

/-- Eviction kills what enforcement accepts when the reservation's token has another mode,
or when the reservation of a reserve key has no token hash. -/
theorem evicted_though_authorized :
    (reliableAuthorizer [intruder]).Reliable ∧
    ∀ state ∈ [oddHolder "t" "shared", oddHolder "" "reserved"],
      ((reliableAuthorizer [intruder]).evictExpiredReservedProcesses (fun _ _ => false)
        state [{ gpu := 1, pid := 7, memBytes := 1 }] 10).plan.decisions.map
          (fun decision => (decision.action, decision.process.gpu, decision.info)) =
        [(.kill, 1, intruder)] ∧
      activeLeasesForGPU state.leases 1 10 = [] ∧
      ((reliableAuthorizer [intruder]).enforcedAuthorization [] state 1 intruder 10).toOption.map
        (·.map (·.id)) = some (some "x") := by
  refine ⟨reliableAuthorizer_reliable (by decide), ?_⟩
  decide +kernel

end Samples

end GPUardian
