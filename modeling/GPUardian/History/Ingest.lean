import GPUardian.History.Database

/-! How the gateway applies the telemetry of a node. A page is applied in one transaction; an event
whose number was ingested before is passed over. -/
namespace GPUardian

open GoStrings Tables

namespace History

structure AuthorizationUpsert where
  authorizationID : String
  groupID : String := ""
  groupIDs : List String := []
  mode : String
  holder : String
  command : Option (List String) := none
  containerID : String := ""
  containerPattern : String := ""
  «namespace» : String := ""
  username : String := ""
  createdAt : Time
  expiresAt : Time := 0
deriving DecidableEq, Repr

structure AuthorizationEnded where
  authorizationID : String
  endedAt : Time
  reason : String := ""
deriving DecidableEq, Repr

/-- A job event as it is sent. -/
structure JobEvent where
  executionID : String
  authorizationID : String := ""
  groupID : String := ""
  groupIDs : List String := []
  tokenMode : String := ""
  source : String
  mode : String
  holder : String
  runName : String := ""
  command : Option (List String) := none
  gpus : List Int := []
  startedAt : Option Time := none
  rootExitedAt : Option Time := none
  finishedAt : Option Time := none
  startPrecision : String := ""
  finishPrecision : String := ""
  exitCode : Option Int := none
  reason : String := ""
  runtimeContext : Option RuntimeContext := none
deriving DecidableEq, Repr

end History

open History (ReservationUpsert ReservationEnded AuthorizationUpsert AuthorizationEnded)

/-- What an event says. The three job events are applied alike, and events of other types not at
all. -/
inductive EventPayload where
  | reservationUpsert (payload : ReservationUpsert)
  | reservationEnded (payload : ReservationEnded)
  | authorizationUpsert (payload : AuthorizationUpsert)
  | authorizationEnded (payload : AuthorizationEnded)
  | job (payload : History.JobEvent)
  | gpuSample (payload : GPUSample)
  | gap (payload : Telemetry.Gap)
  | other
deriving DecidableEq, Repr

/-- How the payloads are written. -/
structure PayloadFormat where
  reservationUpsert : GoLines.Bytes → Except String ReservationUpsert
  reservationEnded : GoLines.Bytes → Except String ReservationEnded
  authorizationUpsert : GoLines.Bytes → Except String AuthorizationUpsert
  authorizationEnded : GoLines.Bytes → Except String AuthorizationEnded
  jobEvent : GoLines.Bytes → Except String History.JobEvent
  gpuSample : GoLines.Bytes → Except String GPUSample
  gap : GoLines.Bytes → Except String Telemetry.Gap

def PayloadFormat.decode (format : PayloadFormat) (event : Telemetry.Event) :
    Except String EventPayload :=
  match event.type with
  | "reservation.upsert" => (format.reservationUpsert event.payload).map .reservationUpsert
  | "reservation.ended" => (format.reservationEnded event.payload).map .reservationEnded
  | "authorization.upsert" => (format.authorizationUpsert event.payload).map .authorizationUpsert
  | "authorization.ended" => (format.authorizationEnded event.payload).map .authorizationEnded
  | "job.started" | "job.updated" | "job.finished" => (format.jobEvent event.payload).map .job
  | "gpu.sample" => (format.gpuSample event.payload).map .gpuSample
  | "telemetry.gap" => (format.gap event.payload).map .gap
  | _ => .ok .other

/-- A format in which a payload is as many bytes long as its place in the list says. -/
def listFormat (payloads : List EventPayload) : PayloadFormat :=
  let read {α : Type} (select : EventPayload → Option α) (bytes : GoLines.Bytes) : Except String α :=
    match payloads[bytes.length]?.bind select with
    | some payload => .ok payload
    | none => .error "unexpected payload"
  { reservationUpsert := read fun | .reservationUpsert payload => some payload | _ => none
    reservationEnded := read fun | .reservationEnded payload => some payload | _ => none
    authorizationUpsert := read fun | .authorizationUpsert payload => some payload | _ => none
    authorizationEnded := read fun | .authorizationEnded payload => some payload | _ => none
    jobEvent := read fun | .job payload => some payload | _ => none
    gpuSample := read fun | .gpuSample payload => some payload | _ => none
    gap := read fun | .gap payload => some payload | _ => none }

def timeFromMillis (value : Int) : Time := value * 1000000 + 62135596800 * second

/-- A time column that may be empty. -/
def nullableMillis (value : Option Time) : Option Int :=
  value.bind fun time => if time = 0 then none else some (millis time)

def telemetryGroups (primary : String) (additional : List String) : List String :=
  (primary :: additional).foldl
    (fun groups group => if group ≠ "" then addString group groups else groups) []

def clampTime (value : Option Time) (maximum : Time) : Option Time := value.map (min · maximum)

def isClaimedRun (tokenMode : String) : Bool :=
  tokenMode == "" || tokenMode == tokenModeClaimed || tokenMode == tokenModeManaged

/-- The end of a reservation, as far as the row knows it. -/
def SessionRow.effectiveEnd (row : SessionRow) : Time :=
  match row.revokedAt with
  | some revoked => min (timeFromMillis revoked) (timeFromMillis row.expiresAt)
  | none => timeFromMillis row.expiresAt

/-- The columns of `excluded` that a job row takes over. -/
def JobRow.update (old excluded : JobRow) : JobRow :=
  let kept (old excluded : String) : String := if excluded = "" then old else excluded
  let first (old excluded : String) : String := if old = "" then excluded else old
  { old with
    sessionID := excluded.sessionID
    authorizationID := excluded.authorizationID
    command := if excluded.command.getD [] = [] then old.command else excluded.command
    startedAt := old.startedAt.or excluded.startedAt
    rootExitedAt := excluded.rootExitedAt.or old.rootExitedAt
    finishedAt := excluded.finishedAt.or old.finishedAt
    startPrecision := kept old.startPrecision excluded.startPrecision
    finishPrecision := kept old.finishPrecision excluded.finishPrecision
    exitCode := excluded.exitCode.or old.exitCode
    endReason := kept old.endReason excluded.endReason
    updatedAt := excluded.updatedAt
    runtimeContext :=
      let known := old.runtimeContext
      let new := excluded.runtimeContext
      { uid := known.uid.or new.uid
        username := first known.username new.username
        containerID := first known.containerID new.containerID
        dockerContainerName := first known.dockerContainerName new.dockerContainerName
        kubernetesNamespace := first known.kubernetesNamespace new.kubernetesNamespace
        kubernetesPodName := first known.kubernetesPodName new.kubernetesPodName
        kubernetesContainerName := first known.kubernetesContainerName new.kubernetesContainerName } }

@[simp]
theorem JobRow.update_key (old excluded : JobRow) : (old.update excluded).key = old.key := rfl

/-- The columns of `excluded` that a scope takes over. -/
def AuthorizationScope.update (old excluded : AuthorizationScope) : AuthorizationScope :=
  { old with
    sessionID := excluded.sessionID, mode := excluded.mode, holder := excluded.holder
    selector := excluded.selector, command := excluded.command, expiresAt := excluded.expiresAt }

/-- The parts of a window, each with the minute it is in and its length in milliseconds. The loop
stops at a part that is shorter than a millisecond; `fuel` is more than the minutes of the window. -/
def windowParts : Nat → Time → Time → List (Time × Int)
  | 0, _, _ => []
  | fuel + 1, cursor, windowEnd =>
    if cursor < windowEnd then
      let minute := cursor - cursor % (60 * second)
      let partEnd := min (minute + 60 * second) windowEnd
      let duration := (partEnd - cursor) / 1000000
      if duration ≤ 0 then [] else (minute, duration) :: windowParts fuel partEnd windowEnd
    else []

def minuteParts (windowStart windowEnd : Time) : List (Time × Int) :=
  windowParts (((windowEnd - windowStart) / (60 * second)).toNat + 2) windowStart windowEnd

/-- The utilization of an entry, if it is one. -/
def GPUSampleEntry.validUtilization (entry : GPUSampleEntry) : Option Rat :=
  entry.utilizationPct.filter fun value => decide (0 ≤ value ∧ value ≤ 100)

def maxMemory (old new : Option Nat) : Option Nat :=
  match old, new with
  | old, none => old
  | none, new => new
  | some old, some new => some (max old new)

def Usage.add (usage more : Usage) : Usage where
  observed := usage.observed + more.observed
  busy := usage.busy + more.busy
  utilizationIntegral := usage.utilizationIntegral + more.utilizationIntegral
  memoryIntegral := usage.memoryIntegral + more.memoryIntegral
  memoryObserved := usage.memoryObserved + more.memoryObserved
  peakMemory := maxMemory usage.peakMemory more.peakMemory
  validSamples := usage.validSamples + more.validSamples
  missingSamples := usage.missingSamples + more.missingSamples

/-- What one part of a sample adds. -/
def partUsage (entry : GPUSampleEntry) (duration : Int) : Usage :=
  let memory := entry.memoryUsedBytes.map (min · (2 ^ 63 - 1))
  let usage : Usage :=
    { memoryIntegral := (memory.getD 0 : Nat) * duration
      memoryObserved := if memory.isSome then duration else 0
      peakMemory := memory }
  match entry.validUtilization with
  | some value =>
    { usage with
      observed := duration, busy := if 5 ≤ value then duration else 0
      utilizationIntegral := value * duration, validSamples := 1 }
  | none => { usage with missingSamples := 1 }

namespace Database

section Reservations

variable [Unicode] [Digest]

/-- The session that a reservation event writes, and whether it is found by its id. -/
def upsertTarget (nodeID : String) (payload : ReservationUpsert) (db : Database) : String × Bool :=
  let id := History.reservationSessionID nodeID payload
  if payload.externalSessionID ≠ "" ∧ db.history.sessions.any (·.sessionID == id) then (id, true)
  else (((db.sessionByGroup nodeID payload.groupID).map (·.sessionID)).getD id, false)

def applyReservation (nodeID serverID serverName : String) (payload : ReservationUpsert)
    (occurredAt : Time) (knownOwners : List String) (db : Database) : Except String Database := do
  let (id, found) := db.upsertTarget nodeID payload
  let history ← db.history.applyReservation nodeID serverID serverName payload occurredAt knownOwners
  let db ← payload.members.foldlM (fun db member => db.addSummary id member.gpu) { db with history }
  return if found then db else db.addResult id

end Reservations

/-- The job after the end of a reservation. -/
def endedJob (nodeID : String) (payload : History.ReservationEnded) (db : Database) (job : JobRow) :
    JobRow :=
  if some job.sessionID = (db.sessionByGroup nodeID payload.groupID).map (·.sessionID) then
    { job with
      finishedAt := some (job.finishedAt.elim (millis payload.endedAt) (min · (millis payload.endedAt)))
      rootExitedAt := job.rootExitedAt.map (min · (millis payload.endedAt)) }
  else job

theorem endedJob_frame {nodeID : String} {db : Database} (payload : ReservationEnded)
    (job : JobRow) :
    (endedJob nodeID payload db job).nodeID = job.nodeID ∧
      (endedJob nodeID payload db job).jobID = job.jobID ∧
      (endedJob nodeID payload db job).sessionID = job.sessionID := by
  unfold endedJob
  split
  · exact ⟨rfl, rfl, rfl⟩
  · exact ⟨rfl, rfl, rfl⟩

def applyReservationEnded (nodeID : String) (payload : ReservationEnded) (occurredAt : Time)
    (db : Database) : Database :=
  { db with
    history := db.history.applyReservationEnded nodeID payload occurredAt
    jobs := db.jobs.amend (endedJob nodeID payload db) fun job =>
      Prod.ext (endedJob_frame payload job).1 (endedJob_frame payload job).2.1 }

def firstNonempty [Unicode] (values : List String) : String :=
  (values.find? (trimSpace · ≠ "")).getD ""

/-- The sessions of the groups that have one. -/
def groupSessions (nodeID : String) (groups : List String) (db : Database) : List SessionRow :=
  groups.filterMap (db.sessionByGroup nodeID ·)

def linkAuthorization (nodeID authorizationID sessionID : String) (db : Database) : Database :=
  { db with
    authorizationSessions :=
      db.authorizationSessions.insertIgnore { nodeID, authorizationID, sessionID } }

def authorizationRow [Unicode] (nodeID : String) (payload : AuthorizationUpsert)
    (sessions : List SessionRow) : AuthorizationScope :=
  { nodeID, authorizationID := payload.authorizationID
    sessionID := sessions.head?.map (·.sessionID), mode := payload.mode, holder := payload.holder
    selector := firstNonempty
      [payload.containerID, payload.containerPattern, payload.namespace, payload.username]
    command := payload.command, createdAt := millis payload.createdAt
    expiresAt := nullableMillis (some payload.expiresAt) }

def putAuthorization (row : AuthorizationScope) (db : Database) : Database :=
  { db with authorizations := db.authorizations.upsert row (·.update row) fun _ => rfl }

def applyAuthorization [Unicode] (nodeID : String) (payload : AuthorizationUpsert) (db : Database) :
    Database :=
  let sessions := db.groupSessions nodeID (telemetryGroups payload.groupID payload.groupIDs)
  let row := authorizationRow nodeID payload sessions
  sessions.foldl (fun db session =>
    db.linkAuthorization nodeID payload.authorizationID session.sessionID) (db.putAuthorization row)

def applyAuthorizationEnded (nodeID : String) (payload : AuthorizationEnded) (db : Database) :
    Database :=
  { db with
    authorizations := db.authorizations.amend
      (fun row =>
        if row.key = (nodeID, payload.authorizationID) then
          { row with endedAt := some (millis payload.endedAt), endReason := payload.reason }
        else row)
      fun row => by
        split
        · rfl
        · rfl }

section Jobs

variable [Unicode] [Digest]

def claimedSessionGroup (payload : History.JobEvent) : String :=
  if trimSpace payload.authorizationID ≠ "" then "claimed-auth:" ++ payload.authorizationID
  else "claimed:" ++ payload.executionID

/-- The session of a run without a reservation is made or extended. -/
def claimSession (nodeID serverID serverName : String) (payload : History.JobEvent)
    (occurredAt : Time) (db : Database) : Except String Database := do
  let startedAt := payload.startedAt.getD occurredAt
  let endAt := max (max occurredAt (payload.rootExitedAt.getD occurredAt))
    (payload.finishedAt.getD occurredAt)
  let endAt := if startedAt < endAt then endAt else startedAt + 1000000
  let groupID := claimedSessionGroup payload
  let purpose := if trimSpace payload.runName = "" then "Claimed run" else trimSpace payload.runName
  let excluded : SessionRow :=
    { sessionID := History.sessionID nodeID groupID, nodeID, serverID, serverName, groupID
      kind := .claimedRun, ownerUsername := payload.holder, ownerEditable := false, purpose
      source := .cli, createdAt := millis startedAt, startsAt := millis startedAt
      expiresAt := max (millis startedAt + 1) (millis endAt), historyQuality := .complete
      provisioning := false, updatedAt := millis occurredAt }
  let history ← match db.sessionByGroup nodeID groupID with
    | some _ => db.history.writeSessions (db.history.sessions.map fun row =>
      if row.group = (nodeID, groupID) then
        { row with
          serverID, serverName, ownerUsername := payload.holder
          purpose := if purpose = "Claimed run" then row.purpose else purpose
          startsAt := min row.startsAt excluded.startsAt
          expiresAt := max row.expiresAt excluded.expiresAt, updatedAt := excluded.updatedAt }
      else row)
    | none => db.history.writeSessions (db.history.sessions ++ [excluded])
  return { db with history }

/-- The jobs that were linked to a session. -/
def linkedJobs (sessionID : String) (db : Database) : List JobRow :=
  db.jobs.rows.filter fun job =>
    db.jobSessions.rows.any fun row =>
      row.sessionID == sessionID && row.nodeID == job.nodeID && row.jobID == job.jobID

/-- The bounds of a claimed session are those of its jobs. -/
def SessionRow.refresh (jobs : List JobRow) (row : SessionRow) : SessionRow :=
  let startsAt := ((jobs.filterMap (·.startedAt)).min?).getD row.startsAt
  let endsAt := ((jobs.map fun job =>
    ((job.finishedAt.or job.rootExitedAt).getD job.updatedAt)).max?).getD row.expiresAt
  { row with
    startsAt
    expiresAt := max (startsAt + 1) endsAt
    finalizedAt :=
      if jobs.any (·.finishedAt.isNone) then none else (jobs.filterMap (·.finishedAt)).max?
    updatedAt := max row.updatedAt (((jobs.map (·.updatedAt)).max?).getD row.updatedAt) }

/-- A claimed session that the job was ever linked to gets the bounds of its jobs. -/
def refreshedRow (nodeID jobID : String) (db : Database) (row : SessionRow) : SessionRow :=
  if row.kind = .claimedRun ∧ row.provisioning = false ∧
      (db.jobSessions.rows.any fun link =>
        link.nodeID == nodeID && link.jobID == jobID && link.sessionID == row.sessionID) ∧
      db.linkedJobs row.sessionID ≠ [] then
    SessionRow.refresh (db.linkedJobs row.sessionID) row
  else row

/-- `refreshJobClaimedSessionsSQL`. -/
def refreshClaimedSessions (nodeID jobID : String) (db : Database) : Except String Database := do
  let history ← db.history.writeSessions
    (db.history.sessions.map (db.refreshedRow nodeID jobID))
  return { db with history }

/-- The link of a job to one of its sessions. -/
def linkJob (nodeID : String) (payload : History.JobEvent) (sessionID : String) (db : Database) :
    Database :=
  let db :=
    { db with
      jobSessions := db.jobSessions.insertIgnore
        { nodeID, jobID := payload.executionID, sessionID } }
  if payload.authorizationID = "" then db
  else
    let db := db.linkAuthorization nodeID payload.authorizationID sessionID
    { db with
      authorizations := db.authorizations.amend
        (fun row =>
          if row.key = (nodeID, payload.authorizationID) then
            { row with sessionID := some sessionID }
          else row)
        fun row => by
          split
          · rfl
          · rfl }

/-- `INSERT OR IGNORE INTO session_gpus`. -/
def insertSessionGPU (row : SessionGPU) (history : History) : Except String History :=
  if history.gpus.any fun other => other.sessionID == row.sessionID &&
      (other.gpu == row.gpu || other.reservationID == row.reservationID) then .ok history
  else history.writeGPUs (history.gpus ++ [row])

/-- A GPU of a job, which is one of the session too if the session is a claimed run. -/
def addJobGPU (nodeID : String) (payload : History.JobEvent) (session : SessionRow) (gpu : Int)
    (db : Database) : Except String Database := do
  let db := { db with jobGPUs := db.jobGPUs.insertIgnore { nodeID, jobID := payload.executionID, gpu } }
  if session.kind = .claimedRun then
    let history ← insertSessionGPU
      ⟨session.sessionID, gpu, s!"claimed:{payload.executionID}:{gpu}"⟩ db.history
    { db with history }.addSummary session.sessionID gpu
  else return db

def jobSources : List String := ["gpuardian_run", "authorized_process"]

def errJobSource : String := "CHECK constraint failed: source IN ('gpuardian_run','authorized_process')"

def jobRow (nodeID : String) (payload : History.JobEvent) (session : SessionRow)
    (occurredAt : Time) : JobRow :=
  let clamp (value : Option Time) : Option Time :=
    if session.kind = .claimedRun then value else clampTime value session.effectiveEnd
  { nodeID, jobID := payload.executionID, sessionID := session.sessionID
    authorizationID := payload.authorizationID, source := payload.source, mode := payload.mode
    holder := payload.holder, command := payload.command
    startedAt := nullableMillis payload.startedAt
    rootExitedAt := nullableMillis (clamp payload.rootExitedAt)
    finishedAt := nullableMillis (clamp payload.finishedAt)
    startPrecision := payload.startPrecision, finishPrecision := payload.finishPrecision
    exitCode := payload.exitCode, endReason := payload.reason, updatedAt := millis occurredAt
    runtimeContext := payload.runtimeContext.getD {} }

def putJob (row : JobRow) (db : Database) : Database :=
  { db with jobs := db.jobs.upsert row (·.update row) fun _ => rfl }

/-- A claimed run has a result from its first job on. -/
def startResult (session : SessionRow) (db : Database) : Database :=
  if session.kind = .claimedRun then db.addResult session.sessionID else db

/-- A job event for the sessions that it is about. -/
def recordJob (nodeID : String) (payload : History.JobEvent) (occurredAt : Time)
    (sessions : List SessionRow) (db : Database) : Except String Database := do
  match sessions with
  | [] => return db
  | session :: _ =>
    if payload.source ∉ jobSources then throw errJobSource
    let db := (db.startResult session).putJob (jobRow nodeID payload session occurredAt)
    let db := sessions.foldl (fun db linked => db.linkJob nodeID payload linked.sessionID) db
    let db ← payload.gpus.foldlM (fun db gpu => db.addJobGPU nodeID payload session gpu) db
    db.refreshClaimedSessions nodeID payload.executionID

def applyJob (nodeID serverID serverName : String) (payload : History.JobEvent) (occurredAt : Time)
    (db : Database) : Except String Database := do
  let groups := telemetryGroups payload.groupID payload.groupIDs
  if groups = [] ∧ isClaimedRun payload.tokenMode then
    if trimSpace payload.executionID = "" then return db
    else
      let db ← db.claimSession nodeID serverID serverName payload occurredAt
      db.recordJob nodeID payload occurredAt (db.groupSessions nodeID [claimedSessionGroup payload])
  else db.recordJob nodeID payload occurredAt (db.groupSessions nodeID groups)

end Jobs

section GPUSamples

def addNodePart (nodeID : String) (entry : GPUSampleEntry) (db : Database) (part : Time × Int) :
    Database :=
  let usage := partUsage entry part.2
  let row : NodeRollup :=
    { nodeID, gpu := entry.gpu, minute := millis part.1, observed := usage.observed
      busy := usage.busy, utilizationIntegral := usage.utilizationIntegral
      validSamples := usage.validSamples, missingSamples := usage.missingSamples }
  { db with
    nodeRollups := db.nodeRollups.upsert row
      (fun old =>
        { old with
          observed := old.observed + row.observed, busy := old.busy + row.busy
          utilizationIntegral := old.utilizationIntegral + row.utilizationIntegral
          validSamples := old.validSamples + row.validSamples
          missingSamples := old.missingSamples + row.missingSamples })
      fun _ => rfl }

def applyNodeGPUIntervals (nodeID : String) (entry : GPUSampleEntry) (windowStart windowEnd : Time)
    (db : Database) : Database :=
  (minuteParts windowStart windowEnd).foldl (addNodePart nodeID entry) db

/-- A part is counted twice: for its minute, and for the GPU of the session if it has a summary. -/
def addSessionPart (sessionID : String) (entry : GPUSampleEntry) (db : Database)
    (part : Time × Int) : Database :=
  let usage := partUsage entry part.2
  { db with
    rollups := db.rollups.upsert
      { toUsage := usage, sessionID, gpu := entry.gpu, minute := millis part.1 }
      (fun old => { old with toUsage := old.toUsage.add usage }) fun _ => rfl
    summaries := db.summaries.amend
      (fun row =>
        if row.key = (sessionID, entry.gpu) then { row with toUsage := row.toUsage.add usage }
        else row)
      fun row => by
        split
        · rfl
        · rfl }

def applyGPUIntervals (sessionID : String) (entry : GPUSampleEntry) (windowStart windowEnd : Time)
    (db : Database) : Database :=
  (minuteParts windowStart windowEnd).foldl (addSessionPart sessionID entry) db

/-- The session of a job that has one keeps the samples of its claim. -/
def resolveGPUSampleSession (nodeID groupID : String) (db : Database) : Option SessionRow :=
  let job := if hasPrefix groupID "claimed:" then
    db.jobs.find? (nodeID, String.ofList (groupID.toList.drop 8)) else none
  match job with
  | some job => db.history.sessions.find? (·.sessionID == job.sessionID)
  | none => db.sessionByGroup nodeID groupID

/-- The bounds of the window that count for a session. -/
def sampledStart (payload : GPUSample) (session : SessionRow) : Time :=
  max payload.windowStart (timeFromMillis session.startsAt)

def sampledEnd (payload : GPUSample) (session : SessionRow) : Time :=
  if session.kind = .claimedRun then
    session.finalizedAt.elim payload.windowEnd fun finalized =>
      min payload.windowEnd (timeFromMillis finalized)
  else min payload.windowEnd session.effectiveEnd

/-- A window extends a claimed run that goes on. -/
def extendClaim (endMS : Int) (row : SessionRow) : SessionRow :=
  if row.kind = .claimedRun ∧ row.finalizedAt = none then
    { row with expiresAt := max row.expiresAt endMS, updatedAt := max row.updatedAt endMS }
  else row

/-- An error makes the session partial. -/
def sampledSession (payload : GPUSample) (row : SessionRow) : SessionRow :=
  let endMS := millis payload.windowEnd
  extendClaim endMS (if payload.status ≠ "ok" then row.markPartial endMS else row)

def seeSession (payload : GPUSample) (session : SessionRow) (db : Database) :
    Except String Database := do
  let history ← db.history.writeSessions (db.history.sessions.map fun row =>
    if row.sessionID = session.sessionID then sampledSession payload row else row)
  return { db with history }

def applyGroupSample (nodeID : String) (payload : GPUSample) (entry : GPUSampleEntry)
    (db : Database) (groupID : String) : Except String Database := do
  match db.resolveGPUSampleSession nodeID groupID with
  | none => return db
  | some session =>
    let db ← db.seeSession payload session
    return if sampledStart payload session < sampledEnd payload session then
      db.applyGPUIntervals session.sessionID entry (sampledStart payload session)
        (sampledEnd payload session)
    else db

def applyGPUSample (nodeID : String) (payload : GPUSample) (db : Database) :
    Except String Database :=
  if payload.windowStart < payload.windowEnd then
    payload.gpus.foldlM (fun db entry =>
      (telemetryGroups entry.groupID entry.groupIDs).foldlM (applyGroupSample nodeID payload entry)
        (db.applyNodeGPUIntervals nodeID entry payload.windowStart payload.windowEnd)) db
  else .ok db

end GPUSamples

/-- Where a gap begins. One that does not say so is a day long. -/
def gapStart (payload : Telemetry.Gap) (occurredAt : Time) : Time :=
  if payload.from = 0 then occurredAt - 24 * 60 * 60 * second else payload.from

def applyGap (nodeID : String) (payload : Telemetry.Gap) (occurredAt : Time) (db : Database) :
    Database :=
  db.amendSessions
    (fun row =>
      if row.nodeID = nodeID ∧ millis (gapStart payload occurredAt) ≤ row.expiresAt then
        row.markPartial (millis occurredAt)
      else row)
    fun row => by
      split
      · exact ⟨rfl, rfl, rfl, rfl⟩
      · exact ⟨rfl, rfl, rfl, rfl⟩

section Pages

variable [Unicode] [Digest]

def applyPayload (nodeID serverID serverName : String) (knownOwners : List String)
    (occurredAt : Time) (db : Database) : EventPayload → Except String Database
  | .reservationUpsert payload =>
    db.applyReservation nodeID serverID serverName payload occurredAt knownOwners
  | .reservationEnded payload => .ok (db.applyReservationEnded nodeID payload occurredAt)
  | .authorizationUpsert payload => .ok (db.applyAuthorization nodeID payload)
  | .authorizationEnded payload => .ok (db.applyAuthorizationEnded nodeID payload)
  | .job payload => db.applyJob nodeID serverID serverName payload occurredAt
  | .gpuSample payload => db.applyGPUSample nodeID payload
  | .gap payload => .ok (db.applyGap nodeID payload occurredAt)
  | .other => .ok db

def applyEvent (format : PayloadFormat) (nodeID serverID serverName : String)
    (knownOwners : List String) (event : Telemetry.Event) (db : Database) :
    Except String Database := do
  let payload ← format.decode event
  db.applyPayload nodeID serverID serverName knownOwners event.occurredAt payload

def addIngested (row : IngestedEvent) (db : Database) : Database :=
  { db with ingested := db.ingested.insertIgnore row }

/-- The event has been applied and is remembered. -/
def Ingested (db : Database) (page : Telemetry.Page) (event : Telemetry.Event) : Prop :=
  (db.ingested.find? (page.nodeID, page.streamID, event.seq)).isSome = true

/-- The loop over the events of a page. An event is applied if its number could be inserted. -/
def ingestEvent (format : PayloadFormat) (serverID serverName : String) (knownOwners : List String)
    (page : Telemetry.Page) (nowMS : Int) (db : Database) (event : Telemetry.Event) :
    Except String Database :=
  let row : IngestedEvent :=
    { nodeID := page.nodeID, streamID := page.streamID, seq := event.seq, ingestedAt := nowMS }
  if (db.ingested.find? row.key).isSome then .ok db
  else
    match (db.addIngested row).applyEvent format page.nodeID serverID serverName knownOwners event with
    | .ok db => .ok db
    | .error message =>
      .error s!"apply telemetry event {event.seq} ({event.type}): {message}"

def idleSyncRefreshInterval : Duration := 30 * second

def idleSyncStateCurrent (serverID : String) (page : Telemetry.Page) (nowMS : Int)
    (db : Database) : Bool :=
  (db.syncStates.find? serverID).any fun state =>
    state.nodeID == page.nodeID && state.streamID == page.streamID &&
      state.cursor == page.nextCursor && state.syncError == "" &&
      (db.nodes.find? page.nodeID).any (·.lastServerID == serverID) &&
      state.lastSyncAt.any fun lastSync =>
        decide (lastSync ≤ nowMS ∧ nowMS - lastSync < idleSyncRefreshInterval / 1000000)

def errPageIdentity : String := "telemetry page is missing node or stream identity"

def applyPageWithOwners (format : PayloadFormat) (now : Time) (serverID serverName : String)
    (page : Telemetry.Page) (knownOwners : List String) (db : Database) : Except String Database :=
  let nowMS := millis now
  if trimSpace page.nodeID = "" ∨ trimSpace page.streamID = "" then .error errPageIdentity
  else if page.events = [] ∧ db.idleSyncStateCurrent serverID page nowMS = true then .ok db
  else do
    let db := db.seeNode page.nodeID serverID nowMS
    let db ← page.events.foldlM (ingestEvent format serverID serverName knownOwners page nowMS) db
    let excluded : SyncState :=
      { serverID, nodeID := page.nodeID, streamID := page.streamID, cursor := page.nextCursor
        lastSeq := (page.events.getLast?.map (·.seq)).getD 0, lastSyncAt := some nowMS }
    return { db with
      syncStates := db.syncStates.upsert excluded
        (fun old =>
          { old with
            nodeID := excluded.nodeID, streamID := excluded.streamID, cursor := excluded.cursor
            lastSeq := max old.lastSeq excluded.lastSeq, lastSyncAt := excluded.lastSyncAt
            syncError := "" })
        fun _ => rfl }

end Pages

end Database

end GPUardian
