import GPUardian.Daemon.Cleanup
import GPUardian.History.Sessions
import GPUardian.Library.Interleaving

/-! The daemon between its calls of the store. The monitor's passes and the requests take turns
on `enforceMu`; only a request for a claim key does without it, and may come between any two
calls of a pass. -/
namespace GPUardian

open GoStrings

section Reclaim

def staleDockerAuthorizationAge : Duration := 10 * 60 * second

def maxReclaimedDockerAuthorizations : Nat := 8

def hasWildcard (value : String) : Bool := value.toList.contains '*'

structure DockerContainer where
  id : String
  names : List String := []

/-- A sort by creation time. Rows of one instant may come in any order. -/
structure CreationOrder where
  sort : List Authorization → List Authorization
  perm : ∀ rows, (sort rows).Perm rows
  sorted : ∀ rows, (sort rows).Pairwise (·.createdAt ≤ ·.createdAt)

def reclaimableDockerAuthorizations (state : State) (tokenHash : String) (now : Time) :
    List Authorization :=
  state.authorizations.filter fun row =>
    row.tokenHash == tokenHash && row.mode == modeDocker && row.active && !row.revoked &&
      !authorizationExpired row now && !state.softClaims.any (·.authorizationID == row.id) &&
      decide (staleDockerAuthorizationAge ≤ now - row.createdAt) &&
      !(row.containerID == "" && (row.containerPattern == "" || hasWildcard row.containerPattern))

/-- The container of the authorization is not in the listing. -/
def containerAbsent [Unicode] (containers : List DockerContainer) (row : Authorization) : Bool :=
  if row.containerID ≠ "" then
    !containers.any (·.id == toLower (trimSpace row.containerID))
  else !containers.any (·.names.contains (trimSpace row.containerPattern))

def staleDockerAuthorizations [Unicode] (order : CreationOrder) (candidates : List Authorization)
    (containers : List DockerContainer) : List Authorization :=
  (order.sort (candidates.filter (containerAbsent containers))).take
    maxReclaimedDockerAuthorizations

end Reclaim

section Cleanups

def releasedReservations (state : State) (now : Time) : List Reservation :=
  state.reservations.filter fun row =>
    row.active && (row.revoked || !decide (now < row.expiresAt))

/-- The group that a row is reported with: its own, or the id of its token. -/
def endedGroup (tokens : List Token) (row : Reservation) : String :=
  if row.groupID ≠ "" then row.groupID
  else ((tokenByHash tokens row.tokenHash).map (·.id)).getD ""

/-- The loop over the released rows with its set of groups reported so far. -/
def reservationEndedEvents (tokens : List Token) (now : Time) :
    List String → List Reservation → List History.ReservationEnded
  | _, [] => []
  | emitted, row :: rest =>
    let group := endedGroup tokens row
    if group ≠ "" ∧ group ∉ emitted then
      { groupID := group, reason := if row.revoked then "revoked" else "expired", endedAt := now } ::
        reservationEndedEvents tokens now (group :: emitted) rest
    else reservationEndedEvents tokens now emitted rest

/-- A bare authorization whose command is gone. `emptied` says whether a managed cgroup was
empty and could be removed. -/
def finishedBare (emptied : String → Bool) («exists» : Int → Bool) (row : Authorization) : Bool :=
  row.active && row.mode == modeBare && decide (0 < row.rootPID) &&
    (if row.cgroupPath ≠ "" then emptied row.cgroupPath else !«exists» row.rootPID)

def leaseScopeReady (clean : EvictionClean) (id : String) : Bool :=
  decide (evictionCleanSamples ≤ clean.leases id)

def staleLeaseForCleanup (tokens : List Token) (now : Time) (lease : Lease) : Bool :=
  lease.active && (!decide (now < lease.expiresAt) ||
    !tokenValidForCleanup tokens now lease.tokenHash)

def heldLease (stopCgroup : String → Option String) (clean : EvictionClean) (lease : Lease) : Bool :=
  if lease.cgroupPath ≠ "" then (stopCgroup lease.cgroupPath).isSome
  else lease.mode != modeBare && !leaseScopeReady clean lease.id

end Cleanups

/-- The variables of `enforcePass`: its snapshot, what the eviction scan found, whether the scan
and the cleanups so far went well, and the time it prunes with. -/
structure PassState where
  state : State
  assessment : EvictionAssessment
  evictionOK : Bool
  cleanupOK : Bool := true
  now : Time

/-- The next store call of the monitor. The last five stages are those of a tick without a
sample. -/
inductive MonitorStage where
  | idle
  | claims (pass : PassState) (decisions : List Decision)
  | reservations (pass : PassState)
  | authorizations (pass : PassState)
  | bareAuthorizations (pass : PassState)
  | leases (pass : PassState)
  | bareLeases (pass : PassState)
  | prune (pass : PassState)
  | managedAuthorizations (tick : Tick) (filtered : State)
  | managedLeases (tick : Tick) (filtered : State)
  | managedScopes (tick : Tick)
  | entitlements (tick : Tick)
  | escalation (tick : Tick)

/-- Whether the monitor holds `enforceMu`. -/
def MonitorStage.locked : MonitorStage → Bool
  | .idle | .escalation _ => false
  | _ => true

/-- What a stage finds around it: the clock, the errors of its save, an id for a new claim, and
the answers about cgroups and processes. A lease is finished if it has a root PID and its cgroup
is emptied or, without a cgroup, that process is gone. -/
structure StageIO where
  now : Time
  errors : SaveErrors := {}
  claimHex : String := ""
  stopCgroup : String → Option String := fun _ => none
  emptied : String → Bool := fun _ => false
  «exists» : Int → Bool := fun _ => true
  leaseFinished : Lease → Bool := fun _ => false

/-- The requests that change the store, each where it comes to its store call. -/
inductive Request where
  | claimKey (rootKey : RootKeyCheck) (fresh : Fresh) (name : String) (now : Time)
  | book (rootKey : RootKeyCheck) (fresh : Fresh) (name purpose externalSessionID : String)
      (gpus : List Int) (startsAt expiresAt now : Time)
  | bookManaged (rootKey : RootKeyCheck) (fresh : Fresh)
      (userKeyID purpose externalSessionID : String) (gpus : List Int)
      (startsAt expiresAt now : Time)
  | syncKeys (rootKey : RootKeyCheck) (groupHex : Nat → String)
      (snapshot : ManagedUserKeySnapshot) (now : Time)
  | authorize (authorization : Authorization) (now : Time)
  | activate (id : String) (rootPID : Int)
  | release (id : String)
  | reclaim (tokenHash : String) (containers : List DockerContainer) (order : CreationOrder)
      (now : Time)
  | revoke (idOrToken : String) (now : Time)
  | addBypass (rule : BypassRule)

inductive DaemonEvent where
  | request (errors : SaveErrors) (request : Request)
  | monitorOnce (tick : Tick) (now : Time)
  | advance (io : StageIO)

/-- The daemon: its store, the signals it has sent, its counters of clean samples, where its
monitor is and which authorizations its runs were given. Beside them the last reading of the
clock, the assessments recorded so far and the reservation ends reported so far. -/
structure Daemon where
  store : Store := ⟨{}, {}, none⟩
  signals : Signals := {}
  clean : EvictionClean := {}
  stage : MonitorStage := .idle
  runs : List String := []
  clock : Time := 0
  recorded : List EvictionAssessment := []
  ended : List History.ReservationEnded := []

section Requests

variable [Unicode]

namespace Request

def locks : Request → Bool
  | .claimKey .. => false
  | _ => true

/-- The clock reading of a request, where it has one. -/
def time : Request → Option Time
  | .claimKey _ _ _ now | .book _ _ _ _ _ _ _ _ now | .bookManaged _ _ _ _ _ _ _ _ now
  | .syncKeys _ _ _ now | .authorize _ now | .reclaim _ _ _ now | .revoke _ now => some now
  | .activate .. | .release _ | .addBypass _ => none

/-- The store call of a request. A booking with a key of the node is refused while the keys are
managed; a run releases the authorization it was given; a reclaim that finds nothing stale
calls nothing. -/
def op (state : State) (runs : List String) : Request → Option Op
  | .claimKey rootKey fresh name now => some (.registerSoftToken rootKey fresh name now)
  | .book rootKey fresh name purpose externalSessionID gpus startsAt expiresAt now =>
    if state.managedKeys then none
    else some (.registerScheduledReservationsWithSession rootKey fresh name purpose
      externalSessionID gpus startsAt expiresAt now)
  | .bookManaged rootKey fresh userKeyID purpose externalSessionID gpus startsAt expiresAt now =>
    some (.registerManagedReservations rootKey fresh userKeyID purpose externalSessionID gpus
      startsAt expiresAt now)
  | .syncKeys rootKey groupHex snapshot now =>
    some (.syncManagedUserKeys rootKey groupHex snapshot now)
  | .authorize authorization now =>
    some (.addAuthorization { authorization with active := true, revoked := false } now)
  | .activate id rootPID => some (.activateAuthorization id rootPID)
  | .release id => if id ∈ runs then some (.releaseAuthorization id) else none
  | .reclaim tokenHash containers order now =>
    let stale := staleDockerAuthorizations order
      (reclaimableDockerAuthorizations state tokenHash now) containers
    if tokenHash = "" ∨ stale = [] then none
    else some (.releaseScopes [] (stale.map (·.id)) [])
  | .revoke idOrToken now => some (.revoke idOrToken now)
  | .addBypass rule => some (.addBypass rule)

/-- The run that an authorization is given to. -/
def runs : Request → List String
  | .authorize authorization _ => if authorization.mode = modeBare then [authorization.id] else []
  | _ => []

end Request

end Requests

namespace Daemon

variable [Unicode] [Digest] (grace : Duration) (codec : Codec)

/-- One call of the store. -/
def call (errors : SaveErrors) (op : Op) (daemon : Daemon) : Daemon :=
  { daemon with store := (daemon.store.call codec errors op).1 }

def serve (errors : SaveErrors) (request : Request) (daemon : Daemon) : Daemon :=
  if request.locks && daemon.stage.locked then daemon
  else
    let daemon :=
      { daemon with
        clock := request.time.getD daemon.clock
        runs := daemon.runs ++ request.runs }
    match request.op daemon.store.state daemon.runs with
    | none => daemon
    | some op => daemon.call codec errors op

/-- A tick begins. With a sample it takes the lock and its snapshot, evicts, records the
assessment, enforces and escalates; without one it goes to the managed cgroups. -/
def monitorOnce (tick : Tick) (now : Time) (daemon : Daemon) : Daemon :=
  match daemon.stage with
  | .idle =>
    let state := daemon.store.state
    match tick.sample with
    | .error _ =>
      let filtered := { state with
        authorizations := state.authorizations.filter (·.cgroupPath != "")
        leases := state.leases.filter (·.cgroupPath != "") }
      { daemon with clock := now, stage := .managedAuthorizations tick filtered }
    | .ok processes =>
      let evicted := tick.evict grace state processes daemon.signals
      let result := enforcePass grace tick state processes daemon.signals
      { daemon with
        clock := now
        signals := result.signals
        clean := recordEvictionAssessment evicted.assessment daemon.clean
        recorded := daemon.recorded ++ [evicted.assessment]
        stage := .claims
          { state := state, assessment := evicted.assessment
            evictionOK := evicted.errors.isEmpty, now := now } result.decisions }
  | _ => daemon

/-- The end of the scopes of a cleanup. With none the source makes no call; here the store is called
and changes nothing. -/
def releaseScopes (errors : SaveErrors) (reservationIDs authorizationIDs leaseIDs : List String)
    (daemon : Daemon) : Daemon × Option String :=
  let (store, answer) := daemon.store.call codec errors
    (.releaseScopes reservationIDs authorizationIDs leaseIDs)
  ({ daemon with store := store }, match answer with
    | .error message => some message
    | .ok () => none)

def cleanupExpiredReservationsState (io : StageIO) (state : State) (daemon : Daemon) :
    Daemon × Bool :=
  let released := releasedReservations state io.now
  match daemon.releaseScopes codec io.errors (released.map (·.id)) [] [] with
  | (daemon, some _) => (daemon, false)
  | (daemon, none) =>
    ({ daemon with
        ended := daemon.ended ++ reservationEndedEvents state.tokens io.now [] released }, true)

def cleanupExpiredAuthorizations (io : StageIO) (state : State) (daemon : Daemon) : Daemon × Bool :=
  let due := cleanupExpiredAuthorizationsState io.stopCgroup none daemon.clean state io.now
  let (after, error) := daemon.releaseScopes codec io.errors [] (due.released.map (·.id)) []
  (after, (cleanupExpiredAuthorizationsState io.stopCgroup error daemon.clean state io.now).ok)

def cleanupFinishedBareAuthorizationsState (io : StageIO) (state : State) (daemon : Daemon) :
    Daemon :=
  let released := state.authorizations.filter (finishedBare io.emptied io.exists)
  (daemon.releaseScopes codec io.errors [] (released.map (·.id)) []).1

def cleanupExpiredLeasesState (io : StageIO) (state : State) (daemon : Daemon) : Daemon × Bool :=
  let stale := state.leases.filter (staleLeaseForCleanup state.tokens io.now)
  let released := stale.filter (!heldLease io.stopCgroup daemon.clean ·)
  let (after, error) := daemon.releaseScopes codec io.errors [] [] (released.map (·.id))
  (after, !stale.any (heldLease io.stopCgroup daemon.clean) && error.isNone)

def cleanupFinishedBareLeasesState (io : StageIO) (state : State) (daemon : Daemon) : Daemon :=
  let released := state.leases.filter fun lease =>
    lease.active && lease.mode == modeBare && io.leaseFinished lease
  (daemon.releaseScopes codec io.errors [] [] (released.map (·.id))).1

/-- `cleanupExpiredManagedCgroups` after its two cleanups. -/
def pruneInactiveManagedScopes (io : StageIO) (daemon : Daemon) : Daemon :=
  let state := daemon.store.state
  let authorizations := state.authorizations.filter fun row =>
    !row.active && row.cgroupPath != "" && io.emptied row.cgroupPath
  let leases := state.leases.filter fun row =>
    !row.active && row.cgroupPath != "" && io.emptied row.cgroupPath
  daemon.call codec io.errors
    (.pruneInactiveManagedScopes (authorizations.map (·.id)) (leases.map (·.id)))

/-- The store call that one decision of a pass asks for. -/
def claimOp (io : StageIO) (now : Time) (decision : Decision) : Option Op :=
  match decision.action with
  | .claim => some (.upsertSoftClaim io.claimHex decision.claim now)
  | .releaseClaim => some (.releaseSoftClaim decision.claimID)
  | _ => none

/-- The monitor goes on with its next store call. -/
def advance (io : StageIO) (daemon : Daemon) : Daemon :=
  let daemon := { daemon with clock := io.now }
  match daemon.stage with
  | .idle => daemon
  | .claims pass [] => { daemon with stage := .reservations pass }
  | .claims pass (decision :: rest) =>
    let daemon := { daemon with stage := .claims pass rest }
    match claimOp io pass.now decision with
    | none => daemon
    | some op => daemon.call codec io.errors op
  | .reservations pass =>
    let (daemon, ok) := daemon.cleanupExpiredReservationsState codec io pass.state
    { daemon with stage := .authorizations { pass with cleanupOK := ok } }
  | .authorizations pass =>
    let (daemon, ok) := daemon.cleanupExpiredAuthorizations codec io pass.state
    { daemon with
      stage := .bareAuthorizations { pass with cleanupOK := ok && pass.cleanupOK } }
  | .bareAuthorizations pass =>
    let daemon := daemon.cleanupFinishedBareAuthorizationsState codec io pass.state
    { daemon with stage := .leases pass }
  | .leases pass =>
    let (daemon, ok) := daemon.cleanupExpiredLeasesState codec io pass.state
    { daemon with stage := .bareLeases { pass with cleanupOK := ok && pass.cleanupOK } }
  | .bareLeases pass =>
    let daemon := daemon.cleanupFinishedBareLeasesState codec io pass.state
    { daemon with stage := .prune pass }
  | .prune pass =>
    let daemon := { daemon with stage := .idle }
    if pass.evictionOK && pass.cleanupOK then daemon.call codec io.errors (.prune pass.now)
    else daemon
  | .managedAuthorizations tick filtered =>
    let (daemon, _) := daemon.cleanupExpiredAuthorizations codec io filtered
    { daemon with stage := .managedLeases tick filtered }
  | .managedLeases tick filtered =>
    let (daemon, _) := daemon.cleanupExpiredLeasesState codec io filtered
    { daemon with stage := .managedScopes tick }
  | .managedScopes tick =>
    let daemon := daemon.pruneInactiveManagedScopes codec io
    { daemon with stage := .entitlements tick }
  | .entitlements tick =>
    let daemon := { daemon with stage := .escalation tick }
    daemon.call codec io.errors (.pruneUnreferencedInvalidEntitlements io.now)
  | .escalation tick =>
    { daemon with
      stage := .idle
      signals := (escalateTerminationsWithoutSample tick daemon.store.state
        daemon.signals).signals }

def step (daemon : Daemon) : DaemonEvent → Daemon
  | .request errors request => daemon.serve codec errors request
  | .monitorOnce tick now => daemon.monitorOnce grace tick now
  | .advance io => daemon.advance codec io

end Daemon

end GPUardian
