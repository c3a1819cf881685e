import GPUardian.Daemon.RunCommand
import Mathlib.Data.List.AList
import Mathlib.Data.List.Sort

/-! The jobs that the monitor sees on the GPUs. A process that is allowed under an authorization is a
job from the pass that first sees it to the second pass in a row that does not. -/
namespace GPUardian

structure RuntimeContext where
  uid : Option Int := none
  username : String := ""
  containerID : String := ""
  dockerContainerName : String := ""
  kubernetesNamespace : String := ""
  kubernetesPodName : String := ""
  kubernetesContainerName : String := ""
deriving DecidableEq, Repr

/-- A job event with its groups, its GPUs and where it runs. -/
structure JobReport extends JobEvent where
  groupID : String := ""
  groupIDs : List String := []
  gpus : List Int := []
  procStartTicks : Nat := 0
  runtimeContext : Option RuntimeContext := none
deriving DecidableEq, Repr

structure ObservedJob where
  event : JobReport
  lastSeen : Time
  missed : Nat := 0
deriving DecidableEq, Repr

/-- What `observedJobs` is keyed by. The text of a key ends with two numbers, so it determines the
three parts. -/
@[ext]
structure JobKey where
  authorizationID : String
  pid : Int
  startTime : Nat
deriving DecidableEq, Repr

structure PendingRuntimeContext where
  key : JobKey
  mode : String
  containerID : String
deriving DecidableEq, Repr

inductive JobKind where
  | started
  | updated
  | finished
deriving DecidableEq, Repr

/-- A job event that was handed to telemetry; `observed` ones come from `observedJobs`, the others
from `runJobs`. -/
structure JobNotice where
  observed : Bool := true
  kind : JobKind
  report : JobReport
  occurredAt : Time
deriving DecidableEq, Repr

/-- The order in which a loop visits the keys of a map. -/
structure RangeOrder (κ : Type) where
  visit : List κ → List κ
  perm : ∀ keys, (visit keys).Perm keys

def RangeOrder.asGiven {κ : Type} : RangeOrder κ := ⟨id, fun _ => .rfl⟩

def maxPendingRuntimeContexts : Nat := 256

def addString (value : String) (values : List String) : List String :=
  if value ∈ values then values else values ++ [value]

def addGPU (gpu : Int) (gpus : List Int) : List Int :=
  if gpu ∈ gpus then gpus else (gpus ++ [gpu]).insertionSort (· ≤ ·)

/-- The groups of a token's active reservations, on one GPU or, for a negative one, on all. -/
def reservationGroupsForToken (reservations : List Reservation) (tokenHash : String) (gpu : Int)
    (time : Time) : List String :=
  let held := reservations.filter fun row =>
    row.tokenHash = tokenHash ∧ (0 ≤ gpu → row.gpu = gpu) ∧ reservationActiveAt row time ∧
      row.groupID ≠ ""
  (held.foldl (fun groups row => addString row.groupID groups) []).insertionSort (· ≤ ·)

def unixNano (time : Time) : Int := time - 62135596800 * second

section Names

variable [Digest]

def executionID (text : String) : String :=
  "exec_" ++ String.ofList ((Digest.sha256Hex text).toList.take 24)

def observedText (bootID : String) (key : JobKey) : String :=
  bootID ++ "\x00" ++ (key.authorizationID ++ "\x00" ++ (key.pid.repr ++ "\x00" ++ key.startTime.repr))

def continuationText (bootID : String) (key : JobKey) (time : Time) : String :=
  bootID ++ "\x00" ++ (key.authorizationID ++ "\x00" ++ (key.pid.repr ++ "\x00" ++
    (key.startTime.repr ++ "\x00" ++ (unixNano time).repr)))

def observedExecutionID (bootID : String) (key : JobKey) : String :=
  executionID (observedText bootID key)

def observedContinuationExecutionID (bootID : String) (key : JobKey) (time : Time) : String :=
  executionID (continuationText bootID key time)

end Names

/-- The jobs in memory and the events that were reported about them. -/
structure Tracker where
  bootID : String
  observedJobs : AList (fun _ : JobKey => ObservedJob) := ∅
  runJobs : AList (fun _ : String => JobReport) := ∅
  pending : List PendingRuntimeContext := []
  emitted : List JobNotice := []

/-- What a pass finds around it: `context` is what `buildJobRuntimeContext` answers for a process and
a mode, with whether a lookup is left for later. -/
structure TrackIO where
  context : ProcInfo → String → Option RuntimeContext × Bool := fun _ _ => (none, false)
  continues : RangeOrder JobKey := .asGiven
  misses : RangeOrder JobKey := .asGiven

/-- A pass over the decisions; `groups` has the groups that the keys are in now. -/
structure TrackPass where
  tracker : Tracker
  seen : List JobKey := []
  groups : List (JobKey × String) := []

namespace Tracker

def emit (kind : JobKind) (report : JobReport) (time : Time) (tracker : Tracker) : Tracker :=
  { tracker with emitted := tracker.emitted ++ [{ kind := kind, report := report, occurredAt := time }] }

def setJob (key : JobKey) (job : ObservedJob) (tracker : Tracker) : Tracker :=
  { tracker with observedJobs := tracker.observedJobs.insert key job }

def removeJob (key : JobKey) (tracker : Tracker) : Tracker :=
  { tracker with observedJobs := tracker.observedJobs.erase key }

/-- A run job that is seen on another GPU. -/
def updateRunJob (id : String) (gpu : Int) (now : Time) (tracker : Tracker) : Tracker :=
  match tracker.runJobs.lookup id with
  | none => tracker
  | some job =>
    if gpu ∈ job.gpus then tracker
    else
      let job := { job with gpus := addGPU gpu job.gpus }
      { tracker with
        runJobs := tracker.runJobs.insert id job
        emitted := tracker.emitted ++
          [{ observed := false, kind := .updated, report := job, occurredAt := now }] }

end Tracker

section Track

variable [Digest]

def newObservedTelemetryJobEvent (io : TrackIO) (authorization : Authorization) (decision : Decision)
    (groupIDs : List String) (time : Time) (executionID : String) : JobReport × Bool :=
  let (runtimeContext, lookupPending) := io.context decision.info authorization.mode
  ({ executionID := executionID, authorizationID := authorization.id, groupIDs := groupIDs
     tokenMode := authorization.tokenMode, source := "authorized_process", mode := authorization.mode
     holder := authorization.holder, runName := authorization.runName, pid := decision.process.pid
     procStartTicks := decision.info.startTime, gpus := [decision.process.gpu], startedAt := time
     startPrecision := "observed", runtimeContext := runtimeContext
     groupID := groupIDs.head?.getD "" },
    lookupPending && runtimeContext.isSome)

namespace Tracker

/-- A process of a key that no job is tracked for. -/
def start (io : TrackIO) (authorization : Authorization) (decision : Decision) (groupIDs : List String)
    (key : JobKey) (now : Time) (tracker : Tracker) : Tracker :=
  let (event, lookupPending) := newObservedTelemetryJobEvent io authorization decision groupIDs now
    (observedExecutionID tracker.bootID key)
  let tracker := (tracker.setJob key { event := event, lastSeen := now }).emit .started event now
  if lookupPending ∧ tracker.pending.length < maxPendingRuntimeContexts then
    let containerID := (event.runtimeContext.map (·.containerID)).getD ""
    { tracker with
      pending := tracker.pending ++
        [{ key := key, mode := authorization.mode, containerID := containerID }] }
  else tracker

/-- A process of a tracked job. -/
def see (gpu : Int) (groupIDs : List String) (key : JobKey) (job : ObservedJob) (now : Time)
    (tracker : Tracker) : Tracker :=
  let groups := groupIDs.foldl (fun groups group => addString group groups) job.event.groupIDs
  let changed := gpu ∉ job.event.gpus ∨ groups ≠ job.event.groupIDs
  let event := { job.event with groupIDs := groups, gpus := addGPU gpu job.event.gpus }
  let tracker := tracker.setJob key { event := event, lastSeen := now, missed := 0 }
  if changed then tracker.emit .updated event now else tracker

end Tracker

/-- The loop over the decisions. Later rows of one id or hash win. -/
def trackDecision (state : State) (io : TrackIO) (now : Time) (pass : TrackPass) (decision : Decision) :
    TrackPass :=
  if decision.action ≠ .allow ∨ decision.reason = "bypass" ∨ decision.authID = "" ∨
      decision.process.pid ≤ 0 ∨ decision.info.startTime = 0 then pass
  else match (state.authorizations.filter (·.id = decision.authID)).getLast? with
  | none => pass
  | some authorization =>
    if authorization.tokenMode ∉ [tokenModeReserved, tokenModeManaged, tokenModeClaimed] then pass
    else if authorization.mode = modeBare then
      { pass with
        tracker := pass.tracker.updateRunJob authorization.id decision.process.gpu now }
    else match (state.tokens.filter (·.hash = authorization.tokenHash)).getLast? with
    | none => pass
    | some token =>
      if token.id = "" then pass
      else
        let held := reservationGroupsForToken state.reservations authorization.tokenHash
          decision.process.gpu now
        let groupIDs :=
          if held = [] ∧ authorization.tokenMode = tokenModeReserved then [token.id] else held
        let key : JobKey := ⟨authorization.id, decision.process.pid, decision.info.startTime⟩
        { tracker :=
            match pass.tracker.observedJobs.lookup key with
            | none => pass.tracker.start io authorization decision groupIDs key now
            | some job => pass.tracker.see decision.process.gpu groupIDs key job now
          seen := pass.seen ++ [key]
          groups := pass.groups ++ groupIDs.map fun group => (key, group) }

namespace Tracker

/-- The job that goes on without its reservation. -/
def continued (bootID : String) (key : JobKey) (now : Time) (event : JobReport) : JobReport :=
  { event with
    executionID := observedContinuationExecutionID bootID key now
    groupID := "", groupIDs := [], startedAt := now, rootExitedAt := none, finishedAt := none
    startPrecision := "observed", finishPrecision := "", exitCode := none, reason := "" }

/-- A claimed or managed job that is seen without the reservation it had ends, and goes on as another
one. -/
def continueJob (seen : List JobKey) (groups : List (JobKey × String)) (now : Time) (tracker : Tracker)
    (key : JobKey) : Tracker :=
  match tracker.observedJobs.lookup key with
  | none => tracker
  | some job =>
    if key ∉ seen ∨ (groups.any (·.1 = key)) = true ∨
        (job.event.groupID = "" ∧ job.event.groupIDs = []) ∨
        (job.event.tokenMode ≠ tokenModeClaimed ∧ job.event.tokenMode ≠ tokenModeManaged) then tracker
    else
      let previous := { job.event with
        finishedAt := some now, finishPrecision := "observed", reason := "reservation_ended" }
      let event := continued tracker.bootID
        ⟨job.event.authorizationID, job.event.pid, job.event.procStartTicks⟩ now job.event
      ((tracker.emit .finished previous now).setJob key { event := event, lastSeen := now }).emit
        .started event now

/-- A job that is not seen; the second time in a row it is gone. -/
def missJob (seen : List JobKey) (tracker : Tracker) (key : JobKey) : Tracker :=
  match tracker.observedJobs.lookup key with
  | none => tracker
  | some job =>
    if key ∈ seen then tracker
    else if job.missed + 1 < 2 then tracker.setJob key { job with missed := job.missed + 1 }
    else
      let event := { job.event with
        finishedAt := some job.lastSeen, finishPrecision := "observed", reason := "process_gone" }
      (tracker.emit .finished event job.lastSeen).removeJob key

def trackObservedTelemetryJobs (state : State) (decisions : List Decision) (io : TrackIO) (now : Time)
    (tracker : Tracker) : Tracker :=
  let pass := decisions.foldl (trackDecision state io now) { tracker := tracker }
  let continued := (io.continues.visit pass.tracker.observedJobs.keys).foldl
    (continueJob pass.seen pass.groups now) pass.tracker
  (io.misses.visit continued.observedJobs.keys).foldl (missJob pass.seen) continued

end Tracker

end Track

/-- Texts that are there stay. -/
def RuntimeContext.merge (value context : RuntimeContext) : RuntimeContext :=
  let fill (current found : String) : String := if current = "" then found else current
  { context with
    dockerContainerName := fill context.dockerContainerName value.dockerContainerName
    kubernetesNamespace := fill context.kubernetesNamespace value.kubernetesNamespace
    kubernetesPodName := fill context.kubernetesPodName value.kubernetesPodName
    kubernetesContainerName := fill context.kubernetesContainerName value.kubernetesContainerName }

namespace Tracker

/-- One pending lookup; `resolved` answers for a mode and a container. -/
def completeRuntimeContext (resolved : String → String → Option RuntimeContext) (now : Time)
    (tracker : Tracker) (item : PendingRuntimeContext) : Tracker :=
  match resolved item.mode item.containerID, tracker.observedJobs.lookup item.key with
  | some value, some job =>
    match job.event.runtimeContext with
    | none => tracker
    | some context =>
      let merged := value.merge context
      if context.containerID ≠ item.containerID ∨ merged = context then tracker
      else
        let event := { job.event with runtimeContext := some merged }
        (tracker.setJob item.key { job with event := event }).emit .updated event now
  | _, _ => tracker

def completePendingRuntimeContexts (resolved : String → String → Option RuntimeContext) (now : Time)
    (tracker : Tracker) : Tracker :=
  tracker.pending.foldl (completeRuntimeContext resolved now) { tracker with pending := [] }

end Tracker

/-- A monitor pass, the lookups after it, or what runs make of their own jobs. -/
inductive TrackerEvent where
  | pass (state : State) (decisions : List Decision) (io : TrackIO) (now : Time)
  | complete (resolved : String → String → Option RuntimeContext) (now : Time)
  | runs (jobs : AList fun _ : String => JobReport)

def Tracker.step [Digest] (tracker : Tracker) : TrackerEvent → Tracker
  | .pass state decisions io now => tracker.trackObservedTelemetryJobs state decisions io now
  | .complete resolved now => tracker.completePendingRuntimeContexts resolved now
  | .runs jobs => { tracker with runJobs := jobs }

end GPUardian
