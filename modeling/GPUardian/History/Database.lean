import GPUardian.Daemon.Emission
import GPUardian.Daemon.Sampling
import GPUardian.Library.Tables

/-! The tables of the history database, and the statements of the gateway about one session. The
sessions and their GPUs are in `History`; the other tables are kept by their primary keys. A foreign
key can fail only where a summary is inserted for a GPU that the session may not have. -/
namespace GPUardian

open GoStrings Tables

/-- A row of `nodes`. -/
structure NodeRow where
  nodeID : String
  lastServerID : String
  firstSeenAt : Int
  lastSeenAt : Int
deriving DecidableEq, Repr

/-- A row of `node_sync_state`. -/
structure SyncState where
  serverID : String
  nodeID : String
  streamID : String
  cursor : String
  lastSeq : Nat
  lastSyncAt : Option Int
  syncError : String := ""
  gapAt : Option Int := none
deriving DecidableEq, Repr

/-- A row of `ingested_event_ids`. -/
structure IngestedEvent where
  nodeID : String
  streamID : String
  seq : Nat
  ingestedAt : Int
deriving DecidableEq, Repr

def IngestedEvent.key (row : IngestedEvent) : String × String × Nat :=
  (row.nodeID, row.streamID, row.seq)

/-- A row of `authorization_scopes`. The command is kept as the list that its text encodes. -/
structure AuthorizationScope where
  nodeID : String
  authorizationID : String
  sessionID : Option String
  mode : String
  holder : String
  selector : String
  command : Option (List String)
  createdAt : Int
  expiresAt : Option Int
  endedAt : Option Int := none
  endReason : String := ""
deriving DecidableEq, Repr

def AuthorizationScope.key (row : AuthorizationScope) : String × String :=
  (row.nodeID, row.authorizationID)

/-- A row of `authorization_sessions`. -/
structure AuthorizationSession where
  nodeID : String
  authorizationID : String
  sessionID : String
deriving DecidableEq, Repr

/-- A row of `jobs`. -/
structure JobRow where
  nodeID : String
  jobID : String
  sessionID : String
  authorizationID : String
  source : String
  mode : String
  holder : String
  command : Option (List String)
  startedAt : Option Int
  rootExitedAt : Option Int
  finishedAt : Option Int
  startPrecision : String
  finishPrecision : String
  exitCode : Option Int
  endReason : String
  updatedAt : Int
  runtimeContext : RuntimeContext
deriving DecidableEq, Repr

def JobRow.key (row : JobRow) : String × String := (row.nodeID, row.jobID)

/-- A row of `job_sessions`. -/
structure JobSession where
  nodeID : String
  jobID : String
  sessionID : String
deriving DecidableEq, Repr

/-- A row of `job_gpus`. -/
structure JobGPU where
  nodeID : String
  jobID : String
  gpu : Int
deriving DecidableEq, Repr

/-- What the rollups and summaries count. -/
structure Usage where
  observed : Int := 0
  busy : Int := 0
  utilizationIntegral : Rat := 0
  memoryIntegral : Rat := 0
  memoryObserved : Int := 0
  peakMemory : Option Nat := none
  validSamples : Nat := 0
  missingSamples : Nat := 0
deriving DecidableEq, Repr

/-- A row of `gpu_minute_rollups`. -/
structure MinuteRollup extends Usage where
  sessionID : String
  gpu : Int
  minute : Int
deriving DecidableEq, Repr

def MinuteRollup.key (row : MinuteRollup) : String × Int × Int :=
  (row.sessionID, row.gpu, row.minute)

/-- A row of `session_gpu_summaries`. -/
structure GPUSummary extends Usage where
  sessionID : String
  gpu : Int
deriving DecidableEq, Repr

def GPUSummary.key (row : GPUSummary) : String × Int := (row.sessionID, row.gpu)

/-- A row of `node_gpu_minute_rollups`. -/
structure NodeRollup where
  nodeID : String
  gpu : Int
  minute : Int
  observed : Int := 0
  busy : Int := 0
  utilizationIntegral : Rat := 0
  validSamples : Nat := 0
  missingSamples : Nat := 0
deriving DecidableEq, Repr

def NodeRollup.key (row : NodeRollup) : String × Int × Int := (row.nodeID, row.gpu, row.minute)

/-- A row of `session_results`. -/
structure SessionResult where
  sessionID : String
  outcome : Option String := none
  note : String := ""
  version : Nat := 0
  updatedAt : Option Int := none
deriving DecidableEq, Repr

structure Database where
  history : History := .empty
  nodes : Table NodeRow.nodeID := {}
  syncStates : Table SyncState.serverID := {}
  ingested : Table IngestedEvent.key := {}
  authorizations : Table AuthorizationScope.key := {}
  authorizationSessions : Table (id : AuthorizationSession → AuthorizationSession) := {}
  jobs : Table JobRow.key := {}
  jobSessions : Table (id : JobSession → JobSession) := {}
  jobGPUs : Table (id : JobGPU → JobGPU) := {}
  rollups : Table MinuteRollup.key := {}
  summaries : Table GPUSummary.key := {}
  nodeRollups : Table NodeRollup.key := {}
  results : Table SessionResult.sessionID := {}

/-- The session may have lost events. -/
def SessionRow.markPartial (atMS : Int) (row : SessionRow) : SessionRow :=
  { row with historyQuality := .partly, updatedAt := atMS }

def errForeignKey : String := "FOREIGN KEY constraint failed"

namespace Database

/-- A column is written that no constraint mentions. -/
def amendSessions (f : SessionRow → SessionRow) (hKeys : ∀ row, History.SameKeys row (f row))
    (db : Database) : Database :=
  { db with history := db.history.amend f hKeys }

def sessionByGroup (nodeID groupID : String) (db : Database) : Option SessionRow :=
  db.history.sessions.find? (·.group == (nodeID, groupID))

def seeNode (nodeID serverID : String) (nowMS : Int) (db : Database) : Database :=
  { db with
    nodes := db.nodes.upsert
      { nodeID, lastServerID := serverID, firstSeenAt := nowMS, lastSeenAt := nowMS }
      (fun old => { old with lastServerID := serverID, lastSeenAt := nowMS }) fun _ => rfl }

def addSummary (sessionID : String) (gpu : Int) (db : Database) : Except String Database :=
  if db.history.gpus.any fun row => row.sessionID == sessionID && row.gpu == gpu then
    .ok { db with summaries := db.summaries.insertIgnore { sessionID, gpu } }
  else .error errForeignKey

def addResult (sessionID : String) (db : Database) : Database :=
  { db with results := db.results.insertIgnore { sessionID } }

/-- A transaction that fails is rolled back. -/
def commit (db : Database) : Except String Database → Database
  | .ok after => after
  | .error _ => db

def prepareSession (now : Time) (id nodeID serverID serverName owner purpose : String)
    (startsAt expiresAt : Time) (gpus : List Int) (db : Database) : Except String Database := do
  let db := db.seeNode nodeID serverID (millis now)
  let history ← db.history.prepareSession now id nodeID serverID serverName owner purpose startsAt
    expiresAt gpus
  return { db with history }.addResult id

def confirmSession (now : Time) (id groupID : String) (reservationIDs : List String)
    (gpus : List Int) (db : Database) : Except String Database := do
  let history ← db.history.confirmSession now id groupID reservationIDs gpus
  gpus.foldlM (fun db gpu => db.addSummary id gpu) { db with history }

/-- The rows of a deleted session go with it. A scope that refers to it is not deleted, and then the
statement fails. -/
def dropProvisioningSession (id : String) (db : Database) : Except String Database :=
  let drops (row : SessionRow) : Bool := row.sessionID == id && row.provisioning
  if db.history.sessions.any drops then
    if db.authorizations.rows.any (·.sessionID == some id) then .error errForeignKey
    else
      let gone (job : JobRow) : Bool := job.sessionID == id
      let goneJob (nodeID jobID : String) : Bool :=
        db.jobs.rows.any fun job => gone job && job.nodeID == nodeID && job.jobID == jobID
      .ok
        { db with
          history := db.history.dropProvisioningSession id
          authorizationSessions := db.authorizationSessions.delete (·.sessionID == id)
          jobs := db.jobs.delete gone
          jobSessions := db.jobSessions.delete fun row =>
            row.sessionID == id || goneJob row.nodeID row.jobID
          jobGPUs := db.jobGPUs.delete fun row => goneJob row.nodeID row.jobID
          rollups := db.rollups.delete (·.sessionID == id)
          summaries := db.summaries.delete (·.sessionID == id)
          results := db.results.delete (·.sessionID == id) }
  else .ok db

def lastSync (serverID : String) (db : Database) : Option Int :=
  (db.syncStates.find? serverID).bind (·.lastSyncAt)

/-- The server's sessions that may have lost events are partial from now on. -/
def markGap (now : Time) (serverID reason : String) (db : Database) : Database :=
  let cutoff := (db.lastSync serverID).getD 0
  let nowMS := millis now
  { db with
    syncStates := db.syncStates.amend
      (fun row =>
        if row.serverID = serverID then { row with gapAt := some nowMS, syncError := reason } else row)
      fun row => by
        split
        · rfl
        · rfl }.amendSessions
    (fun row =>
      if row.serverID = serverID ∧ cutoff ≤ row.expiresAt then row.markPartial nowMS else row)
    fun row => by
      split
      · exact ⟨rfl, rfl, rfl, rfl⟩
      · exact ⟨rfl, rfl, rfl, rfl⟩

def ingestedEventRetention : Duration := 48 * 60 * 60 * second

def minuteRollupRetention : Duration := 90 * 24 * 60 * 60 * second

/-- A run of the retention job to its end. -/
def pruneRetention (now : Time) (db : Database) : Database :=
  { db with
    ingested := db.ingested.delete (·.ingestedAt < millis (now - ingestedEventRetention))
    rollups := db.rollups.delete (·.minute < millis (now - minuteRollupRetention))
    nodeRollups := db.nodeRollups.delete (·.minute < millis (now - minuteRollupRetention)) }

end Database

end GPUardian
