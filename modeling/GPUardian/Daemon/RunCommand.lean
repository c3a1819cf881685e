import GPUardian.Daemon.Endings

/-! The commands that the daemon runs for its clients. Each run goes through `runCommand` on its
own while the monitor and the requests go on; the jobs it reports to telemetry are ended by the run
or by the cleanups of the monitor. -/
namespace GPUardian

open GoStrings

/-- What telemetry reports about a run. -/
structure JobEvent where
  executionID : String
  authorizationID : String
  tokenMode : String
  source : String
  mode : String
  holder : String
  runName : String
  pid : Int
  startedAt : Time
  startPrecision : String
  rootExitedAt : Option Time := none
  exitCode : Option Int := none
  finishedAt : Option Time := none
  finishPrecision : String := ""
  reason : String := ""
deriving DecidableEq, Repr

/-- The jobs of runs: those in `runJobs` and the events reported about them. Without telemetry
none is remembered, and the other functions find none. -/
structure RunJobs where
  telemetry : Bool := true
  running : List JobEvent := []
  started : List JobEvent := []
  finished : List JobEvent := []

namespace RunJobs

/-- The keys of `runJobs`. -/
def keys (jobs : RunJobs) : List String := jobs.running.map (·.authorizationID)

def rememberRunJob (authorization : Authorization) (time : Time) (jobs : RunJobs) : RunJobs :=
  let event : JobEvent :=
    { executionID := "exec_" ++ authorization.id, authorizationID := authorization.id
      tokenMode := authorization.tokenMode, source := "gpuardian_run", mode := authorization.mode
      holder := authorization.holder, runName := authorization.runName
      pid := authorization.rootPID, startedAt := time, startPrecision := "exact" }
  if jobs.telemetry then
    { jobs with
      running := jobs.running.filter (·.authorizationID ≠ authorization.id) ++ [event]
      started := jobs.started ++ [event] }
  else jobs

def updateRunJobRootExit (id : String) (exitCode : Int) (time : Time) (jobs : RunJobs) : RunJobs :=
  { jobs with
    running := jobs.running.map fun event =>
      if event.authorizationID = id then
        { event with rootExitedAt := some time, exitCode := some exitCode }
      else event }

def takeFinishedRunJob (id reason : String) (time : Time) (jobs : RunJobs) : RunJobs :=
  match jobs.running.find? (·.authorizationID = id) with
  | none => jobs
  | some event =>
    { jobs with
      running := jobs.running.filter (·.authorizationID ≠ id)
      finished := jobs.finished ++
        [{ event with finishedAt := some time, finishPrecision := "exact", reason := reason }] }

/-- The loop of a cleanup over the ended authorizations, each with its reason. -/
def takeFinishedRunJobs (ended : List (String × String)) (time : Time) (jobs : RunJobs) : RunJobs :=
  ended.foldl (fun jobs (id, reason) => jobs.takeFinishedRunJob id reason time) jobs

end RunJobs

namespace Daemon

/-- The authorizations that a step of the monitor releases. -/
def releasedAuthorizations (io : StageIO) (daemon : Daemon) : List Authorization :=
  match daemon.stage with
  | .authorizations pass => daemon.dueAuthorizations io pass.state
  | .managedAuthorizations _ filtered => daemon.dueAuthorizations io filtered
  | .bareAuthorizations pass => pass.state.authorizations.filter (finishedBare io.emptied io.exists)
  | _ => []

/-- The cgroups that a step of the monitor finds empty, or stops, and removes. Leases have
cgroups of their own. -/
def removedCgroups (io : StageIO) (daemon : Daemon) : List String :=
  match daemon.stage with
  | .managedScopes _ =>
    (daemon.store.state.authorizations.filter fun row =>
      !row.active && row.cgroupPath != "" && io.emptied row.cgroupPath).map (·.cgroupPath)
  | _ => (daemon.releasedAuthorizations io).map (·.cgroupPath)

/-- The run jobs that a step of the monitor ends, with its reasons. -/
def endedRunJobs (io : StageIO) (daemon : Daemon) : List (String × String) :=
  let expired (state : State) (row : Authorization) : String × String :=
    (row.id, if row.revoked || !tokenValidForCleanup state.tokens io.now row.tokenHash then "revoked"
      else "expired")
  let released := daemon.releasedAuthorizations io
  match daemon.stage with
  | .authorizations pass => (released.filter (·.mode = modeBare)).map (expired pass.state)
  | .managedAuthorizations _ filtered => (released.filter (·.mode = modeBare)).map (expired filtered)
  | .bareAuthorizations _ => released.map fun row => (row.id, "cgroup_empty")
  | _ => []

variable [Unicode] [Digest] (codec : Codec)

/-- The cleanups report the jobs only if the store has released the authorizations. -/
def endRunJobs (io : StageIO) (daemon : Daemon) (jobs : RunJobs) : RunJobs :=
  match (daemon.releaseScopes codec io.errors [] ((daemon.releasedAuthorizations io).map (·.id)) []).2
  with
  | some _ => jobs
  | none => jobs.takeFinishedRunJobs (daemon.endedRunJobs io) io.now

end Daemon

/-- Where an execution of `runCommand` is. Its cgroup has been created. -/
inductive RunStage where
  | addAuthorization
  | start
  | activate
  | stopCgroup
  | remember
  | wait
  | release
  | removeCgroup
  | finish (released : Bool)
  | deferredRelease
  | deferredRemove
  | returned
deriving DecidableEq, Repr

/-- The stages that take `enforceMu`. -/
def RunStage.locks : RunStage → Bool
  | .addAuthorization | .activate | .release | .deferredRelease => true
  | _ => false

structure Run where
  authorization : Authorization
  stage : RunStage := .addAuthorization

def Run.id (run : Run) : String := run.authorization.id

def Run.cgroupPath (run : Run) : String := run.authorization.cgroupPath

/-- What a step of a run finds around it: the clock, the errors of its save, whether a check of the
token or the start of the command fails, the process and its exit code, whether a cgroup that is
there holds no process but the exited one, and the error of removing such a cgroup. -/
structure RunIO where
  now : Time := 0
  errors : SaveErrors := {}
  refused : Bool := false
  rootPID : Int := 0
  exitCode : Int := 0
  empty : Bool := true
  remove : Option String := none

/-- The daemon with its runs, their jobs and the cgroups that are gone. -/
structure Server where
  daemon : Daemon := {}
  jobs : RunJobs := {}
  runs : List Run := []
  removed : List String := []

inductive ServerEvent where
  | daemon (event : DaemonEvent)
  | runCommand (authorization : Authorization)
  | run (id : String) (io : RunIO)

/-- Only runs add bare authorizations, activate and release. -/
def DaemonEvent.ofRun : DaemonEvent → Bool
  | .request _ (.authorize authorization _) => authorization.mode == modeBare
  | .request _ (.activate ..) | .request _ (.release _) => true
  | _ => false

def createCgroup (cgroupRoot id : String) : String := cgroupRoot ++ "/" ++ id

namespace Server

def missing (path : String) (server : Server) : Bool := server.removed.contains path

/-- Whether a cgroup is gone after `removeCgroup`. -/
def removes (path : String) (io : RunIO) (server : Server) : Bool :=
  server.missing path || io.remove.isNone

def removeCgroup (path : String) (io : RunIO) (server : Server) : Server :=
  if server.removes path io then { server with removed := server.removed ++ [path] } else server

def setRun (run : Run) (server : Server) : Server :=
  { server with runs := server.runs.map fun other => if other.id = run.id then run else other }

variable [Unicode] [Digest] (codec : Codec)

/-- A request of a run, and whether it is answered without an error. -/
def request (errors : SaveErrors) (request : Request) (server : Server) : Server × Bool :=
  let daemon := server.daemon
  ({ server with daemon := daemon.serve codec errors request },
    match request.op daemon.store.state (daemon.runs ++ request.runs) with
    | none => true
    | some op => match (daemon.store.call codec errors op).2 with
        | .ok () => true
        | .error _ => false)

/-- A run goes on. From `deferredRelease` on, these are the deferred calls of a run that returns. -/
def advanceRun (run : Run) (io : RunIO) (server : Server) : Server :=
  if run.stage.locks && server.daemon.stage.locked then server
  else match run.stage with
  | .addAuthorization =>
    if io.refused then server.setRun { run with stage := .deferredRemove }
    else
      let (server, ok) := server.request codec io.errors (.authorize run.authorization io.now)
      server.setRun { run with stage := if ok then .start else .deferredRemove }
  | .start =>
    server.setRun { run with stage := if io.refused then .deferredRelease else .activate }
  | .activate =>
    if io.refused then server.setRun { run with stage := .stopCgroup }
    else
      let (server, ok) := server.request codec io.errors (.activate run.id io.rootPID)
      if ok then
        server.setRun
          { authorization := { run.authorization with rootPID := io.rootPID }, stage := .remember }
      else server.setRun { run with stage := .stopCgroup }
  | .stopCgroup =>
    -- a cgroup that is not stopped leaves the authorization to the monitor
    if server.removes run.cgroupPath io then
      (server.removeCgroup run.cgroupPath io).setRun { run with stage := .deferredRelease }
    else server.setRun { run with stage := .returned }
  | .remember =>
    let server := { server with jobs := server.jobs.rememberRunJob run.authorization io.now }
    server.setRun { run with stage := .wait }
  | .wait =>
    let server := { server with jobs := server.jobs.updateRunJobRootExit run.id io.exitCode io.now }
    if server.missing run.cgroupPath || io.empty then server.setRun { run with stage := .release }
    else server.setRun { run with stage := .returned }
  | .release =>
    let (server, ok) := server.request codec io.errors (.release run.id)
    server.setRun { run with stage := if ok then .removeCgroup else .finish false }
  | .removeCgroup =>
    if server.removes run.cgroupPath io then
      (server.removeCgroup run.cgroupPath io).setRun { run with stage := .finish true }
    else server.setRun { run with stage := .deferredRemove }
  | .finish released =>
    let server :=
      { server with jobs := server.jobs.takeFinishedRunJob run.id "exited" io.now }
    server.setRun { run with stage := if released then .returned else .deferredRelease }
  | .deferredRelease =>
    let (server, _) := server.request codec io.errors (.release run.id)
    server.setRun { run with stage := .deferredRemove }
  | .deferredRemove =>
    (server.removeCgroup run.cgroupPath io).setRun { run with stage := .returned }
  | .returned => server

variable (grace : Duration) (cgroupRoot : String)

def step (server : Server) : ServerEvent → Server
  | .daemon event =>
    if event.ofRun then server
    else
      let daemon := server.daemon.step grace codec event
      match event with
      | .advance io =>
        { server with
          daemon := daemon
          jobs := server.daemon.endRunJobs codec io server.jobs
          removed := server.removed ++ server.daemon.removedCgroups io }
      | _ => { server with daemon := daemon }
  | .runCommand authorization =>
    let path := createCgroup cgroupRoot authorization.id
    { server with
      runs := server.runs ++
        [{ authorization := { authorization with
            mode := modeBare, cgroupPath := path, rootPID := 0, active := true } }]
      removed := server.removed.filter (· ≠ path) }
  | .run id io =>
    match server.runs.find? (·.id = id) with
    | none => server
    | some run => server.advanceRun codec run io

end Server

end GPUardian
