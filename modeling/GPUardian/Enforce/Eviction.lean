import GPUardian.Enforce.Plan

/-! The eviction scan: sampled processes that still match a scope whose entitlement is
gone, and no scope that is entitled on their GPU. -/
namespace GPUardian

open GoStrings

/-- Go's `map[string]bool`. -/
abbrev Flags := String → Option Bool

def Flags.set (flags : Flags) (id : String) (value : Bool) : Flags := Function.update flags id (some value)

/-- Whether each stale scope without a cgroup was quiescent in this sample. -/
structure EvictionAssessment where
  authorizations : Flags := fun _ => none
  leases : Flags := fun _ => none

def markEvictionAssessmentUncertain (assessment : EvictionAssessment) : EvictionAssessment :=
  { authorizations := fun id => (assessment.authorizations id).map fun _ => false
    leases := fun id => (assessment.leases id).map fun _ => false }

section Entitlement

variable [Unicode]

/-- A reservation's token counts while it is stored, valid and of reserved mode. -/
def reservationTokenValid (tokens : List Token) (now : Time) (reservation : Reservation) : Bool :=
  (tokenByHash tokens reservation.tokenHash).elim false fun token =>
    !token.revoked && normalizeTokenMode token.mode == tokenModeReserved &&
      (!timeIsSet token.expiresAt || decide (now < token.expiresAt))

def reservationValid (tokens : List Token) (now : Time) (reservation : Reservation) : Bool :=
  reservationTokenValid tokens now reservation && reservationActiveAt reservation now

/-- A future, otherwise valid reservation is neither valid nor stale. -/
def reservationStale (tokens : List Token) (now : Time) (reservation : Reservation) : Bool :=
  !reservationValid tokens now reservation &&
    (!reservationTokenValid tokens now reservation || !reservation.active || reservation.revoked ||
      !decide (now < reservation.expiresAt))

/-- Rows of one GPU and token; rows without a token hash are left out. -/
def reservationKey (gpu : Int) (tokenHash : String) (reservation : Reservation) : Bool :=
  reservation.tokenHash != "" && reservation.gpu == gpu && reservation.tokenHash == tokenHash

def validReservations (state : State) (now : Time) (gpu : Int) (tokenHash : String) : Bool :=
  state.reservations.any fun row => reservationKey gpu tokenHash row && reservationValid state.tokens now row

def staleReservations (state : State) (now : Time) (gpu : Int) (tokenHash : String) : Bool :=
  state.reservations.any fun row => reservationKey gpu tokenHash row && reservationStale state.tokens now row

/-- `tokenHasKnownReservation` of the two maps above: some GPU has an entry. -/
def tokenHasValidReservation (state : State) (now : Time) (tokenHash : String) : Bool :=
  state.reservations.any fun row => reservationKey row.gpu tokenHash row && reservationValid state.tokens now row

def tokenHasStaleReservation (state : State) (now : Time) (tokenHash : String) : Bool :=
  state.reservations.any fun row => reservationKey row.gpu tokenHash row && reservationStale state.tokens now row

/-- The first named reservation of one GPU and token. -/
def reservationIDOf (state : State) (gpu : Int) (tokenHash : String) : String :=
  ((state.reservations.find? fun row => reservationKey gpu tokenHash row && row.id != "").map (·.id)).getD ""

omit [Unicode] in
def authorizationGloballyValid (authorization : Authorization) (tokens : List Token) (now : Time) :
    Bool :=
  authorizationActiveAt authorization now &&
    (tokenByHash tokens authorization.tokenHash).elim false fun token =>
      !token.revoked && (!token.managed || authorization.tokenVersion == token.version) &&
        (!timeIsSet token.expiresAt || decide (now < token.expiresAt))

def authorizationEvictionMode (authorization : Authorization) (tokens : List Token) : String :=
  match tokenByHash tokens authorization.tokenHash with
  | some token => normalizeTokenMode token.mode
  | none => normalizeTokenMode authorization.tokenMode

/-- Whether a scope is entitled on a GPU, and whether it is evidence for eviction there. -/
structure EvictionState where
  entitled : Bool
  staleRelevant : Bool
deriving DecidableEq

def authorizationEvictionState (authorization : Authorization) (gpu : Int) (state : State)
    (now : Time) : EvictionState :=
  let globallyValid := authorizationGloballyValid authorization state.tokens now
  let valid := validReservations state now gpu authorization.tokenHash
  let stale := staleReservations state now gpu authorization.tokenHash
  let mode := authorizationEvictionMode authorization state.tokens
  if mode = tokenModeReserved then
    if globallyValid then if valid then ⟨true, false⟩ else ⟨false, stale⟩
    else ⟨false, valid || stale⟩
  else if mode = tokenModeClaimed then ⟨globallyValid, !globallyValid⟩
  else if mode = tokenModeManaged then
    if valid then ⟨globallyValid, !globallyValid⟩ else ⟨globallyValid, !globallyValid || stale⟩
  else ⟨false, false⟩

omit [Unicode] in
def leaseEntitledOnGPU (lease : Lease) (gpu : Int) (tokens : List Token) (now : Time) : Bool :=
  lease.active && lease.gpu == gpu && decide (now < lease.expiresAt) &&
    (lease.tokenHash == "" || (tokenByHash tokens lease.tokenHash).elim false fun token =>
      !token.revoked && (!timeIsSet token.expiresAt || decide (now < token.expiresAt)))

omit [Unicode] in
def leaseEvictionState (lease : Lease) (gpu : Int) (tokens : List Token) (now : Time) :
    EvictionState :=
  if lease.gpu ≠ gpu then ⟨false, false⟩
  else ⟨leaseEntitledOnGPU lease gpu tokens now, !leaseEntitledOnGPU lease gpu tokens now⟩

/-- Whether some scope can be evidence for eviction on some GPU. -/
def staleEvictionPossible (state : State) (now : Time) : Bool :=
  state.authorizations.any (fun authorization =>
    let globallyValid := authorizationGloballyValid authorization state.tokens now
    let stale := tokenHasStaleReservation state now authorization.tokenHash
    let valid := tokenHasValidReservation state now authorization.tokenHash
    let mode := authorizationEvictionMode authorization state.tokens
    if mode = tokenModeReserved then stale || (!globallyValid && valid)
    else if mode = tokenModeClaimed then !globallyValid
    else if mode = tokenModeManaged then !globallyValid || stale
    else false) ||
  state.leases.any fun lease => !leaseEntitledOnGPU lease lease.gpu state.tokens now

/-- Stale scopes that the assessment follows: neither bare nor in a cgroup, not valid,
and of a kind the scan can find a process for. -/
def assessesAuthorization (state : State) (now : Time) (authorization : Authorization) : Bool :=
  let mode := authorizationEvictionMode authorization state.tokens
  !(authorization.mode == modeBare || authorization.cgroupPath != "" ||
      authorizationGloballyValid authorization state.tokens now) &&
    (mode == tokenModeClaimed || mode == tokenModeManaged ||
      tokenHasStaleReservation state now authorization.tokenHash ||
      tokenHasValidReservation state now authorization.tokenHash)

omit [Unicode] in
def assessesLease (state : State) (now : Time) (lease : Lease) : Bool :=
  !(lease.mode == modeBare || lease.cgroupPath != "" ||
    leaseEntitledOnGPU lease lease.gpu state.tokens now)

def initialAssessment (state : State) (now : Time) : EvictionAssessment :=
  { authorizations := (state.authorizations.filter (assessesAuthorization state now)).foldl
      (fun flags row => flags.set row.id true) fun _ => none
    leases := (state.leases.filter (assessesLease state now)).foldl
      (fun flags row => flags.set row.id true) fun _ => none }

end Entitlement

/-- The outcome of the loop over one kind of scope for one process. -/
inductive ScopeScan (α : Type) where
  | entitled
  | failed (text : String)
  | stale (rows : List α)

/-- The scan of a sample so far. The targeted PIDs are the killed ones. -/
structure EvictionScan where
  plan : Plan := {}
  assessment : EvictionAssessment := {}

namespace EvictionScan

def fail (text : String) (scan : EvictionScan) : EvictionScan :=
  { plan := scan.plan.fail [text], assessment := markEvictionAssessmentUncertain scan.assessment }

/-- Scopes with a matching process are not quiescent. -/
def observe (authorizations : List Authorization) (leases : List Lease) (scan : EvictionScan) :
    EvictionScan :=
  { scan with assessment :=
    { authorizations := authorizations.foldl (fun flags row => flags.set row.id false)
        scan.assessment.authorizations
      leases := leases.foldl (fun flags row => flags.set row.id false) scan.assessment.leases } }

end EvictionScan

namespace Authorizer

variable (a : Authorizer)

/-- The loop over scopes: an entitled match settles the process, a failed lookup leaves
it open, and stale matches are collected. -/
def scanScopes {α : Type} (site : Site) (evictionState : α → EvictionState)
    (scopeMatches : Site → α → Except String Bool) : Nat → List α → List α → ScopeScan α
  | _, stale, [] => .stale stale
  | i, stale, row :: rest =>
    match a.ctxErr (site ++ [i]) with
    | some text => .failed text
    | none =>
      if !(evictionState row).entitled && !(evictionState row).staleRelevant then
        scanScopes site evictionState scopeMatches (i + 1) stale rest
      else match scopeMatches (site ++ [i]) row with
        | .error text => .failed text
        | .ok false => scanScopes site evictionState scopeMatches (i + 1) stale rest
        | .ok true =>
          if (evictionState row).entitled then .entitled
          else scanScopes site evictionState scopeMatches (i + 1) (stale ++ [row]) rest

variable [Unicode]

def scanAuthorizations (site : Site) (state : State) (gpu : Int) (info : ProcInfo) (now : Time) :
    ScopeScan Authorization :=
  a.scanScopes (site ++ [0]) (authorizationEvictionState · gpu state now)
    (fun site row => a.authorizationScopeMatchesForEviction site row info) 0 [] state.authorizations

def scanLeases (site : Site) (state : State) (gpu : Int) (info : ProcInfo) (now : Time) :
    ScopeScan Lease :=
  a.scanScopes (site ++ [1]) (leaseEvictionState · gpu state.tokens now)
    (fun site row => a.leaseScopeMatchesForEviction site row info) 0 [] state.leases

/-- The rows an eviction is reported with: the first stale authorization, or the first
stale lease. -/
def evictionReport (state : State) (process : GPUProcess) (authorizations : List Authorization)
    (leases : List Lease) : KillReport :=
  let authorization := authorizations.headD {}
  let lease := leases.headD {}
  let reason := s!"GPU entitlement expired or was revoked on gpu={process.gpu} pid={process.pid}"
  if authorization.id ≠ "" then
    { reason := reason
      leaseID := reservationIDOf state process.gpu authorization.tokenHash
      authID := authorization.id
      holder := authorization.holder
      tokenHash := authorization.tokenHash }
  else
    { reason := reason, leaseID := lease.id, holder := lease.holder, tokenHash := lease.tokenHash }

/-- One sampled entry whose process was read. -/
def evictProcess (awaiting : Int → Nat → Bool) (site : Site) (state : State) (process : GPUProcess)
    (info : ProcInfo) (now : Time) (scan : EvictionScan) : EvictionScan :=
  match a.scanAuthorizations site state process.gpu info now with
  | .failed text => scan.fail text
  | .entitled => scan
  | .stale authorizations =>
    match a.scanLeases site state process.gpu info now with
    | .failed text => scan.fail text
    | .entitled => scan
    | .stale leases =>
      if authorizations = [] ∧ leases = [] then scan
      else
        let scan := scan.observe authorizations leases
        if bypassMatch state.bypasses info now a.bootID then scan
        else
          let killed := { scan.plan with targeted := process.pid :: scan.plan.targeted }
          { scan with
            plan := a.kill awaiting { process := process, info := info }
              (evictionReport state process authorizations leases) now killed }

/-- The loop over the sample. The source keeps the reads of the loop in a map; the memo
of the pass answers alike. -/
def evictProcesses (awaiting : Int → Nat → Bool) (reader : ProcReader) (state : State) (now : Time) :
    Nat → List GPUProcess → EvictionScan → EvictionScan
  | _, [], scan => scan
  | i, process :: rest, scan =>
    match a.ctxErr [3, i] with
    | some text => scan.fail text
    | none =>
      if process.pid ≤ 0 ∨ process.pid ∈ scan.plan.targeted then
        evictProcesses awaiting reader state now (i + 1) rest scan
      else match reader.info process.pid with
        | .error err =>
          if err.gone then evictProcesses awaiting reader state now (i + 1) rest scan
          else
            evictProcesses awaiting reader state now (i + 1) rest
              (scan.fail s!"inspect sampled pid {process.pid} before stale-scope eviction: {err.text}")
        | .ok info =>
          evictProcesses awaiting reader state now (i + 1) rest
            (a.evictProcess awaiting [3, i] state process info now scan)

/-- The plan and the assessment of `EvictExpiredReservedProcesses`, before its kills. -/
def evictExpiredReservedProcesses (awaiting : Int → Nat → Bool) (state : State)
    (processes : List GPUProcess) (now : Time) : EvictionScan :=
  match a.proc with
  | none => {}
  | some reader =>
    let scan : EvictionScan := { assessment := initialAssessment state now }
    if !staleEvictionPossible state now then scan
    else a.evictProcesses awaiting reader state now 0 processes scan

section Sound

variable {a : Authorizer} {awaiting : Int → Nat → Bool}

theorem evictProcess_sound (hDry : a.dryRun = false) {site : Site} {state : State}
    {process : GPUProcess} {info : ProcInfo} {now : Time} (hInfo : info.pid = process.pid)
    {scan : EvictionScan} (h : scan.plan.Sound awaiting) :
    (a.evictProcess awaiting site state process info now scan).plan.Sound awaiting := by
  unfold evictProcess
  split
  · exact h.fail _
  · exact h
  · split
    · exact h.fail _
    · exact h
    · split
      · exact h
      · dsimp only
        split
        · exact h
        · have hView : ProcessView.Verified { process := process, info := info } := hInfo
          exact (Plan.Sound.target h _).kill hDry hView _ now

theorem evictProcesses_sound (hDry : a.dryRun = false) {reader : ProcReader} {state : State}
    {now : Time} (processes : List GPUProcess) (i : Nat) {scan : EvictionScan}
    (h : scan.plan.Sound awaiting) :
    (a.evictProcesses awaiting reader state now i processes scan).plan.Sound awaiting := by
  induction processes generalizing i scan with
  | nil => exact h
  | cons process processes ih =>
    unfold evictProcesses
    split
    · exact h.fail _
    · split
      · exact ih _ h
      · split
        · split
          · exact ih _ h
          · exact ih _ (h.fail _)
        · rename_i info hInfo
          exact ih _ (evictProcess_sound hDry (reader.info_pid process.pid info hInfo) h)

/-- The plan of an eviction scan keeps its promise about kills. -/
theorem evictExpiredReservedProcesses_sound (hDry : a.dryRun = false) (state : State)
    (processes : List GPUProcess) (now : Time) :
    (a.evictExpiredReservedProcesses awaiting state processes now).plan.Sound awaiting := by
  unfold evictExpiredReservedProcesses
  split
  · exact Plan.Sound.empty
  · dsimp only
    split
    · exact Plan.Sound.empty
    · exact evictProcesses_sound hDry processes 0 Plan.Sound.empty

end Sound

end Authorizer

end GPUardian
