import GPUardian.Model.State
import Mathlib.Data.List.Nodup

/-! The sessions that the gateway keeps of the reservations of its nodes, and the statements
that write them. A statement that would break a constraint of the table fails, and with it
the transaction it is in. The GPUs of a session are in a table of their own. -/
namespace GPUardian

open GoStrings List

/-- `UnixMilli`, with the origin of `Time` in the year 1. -/
def millis (value : Time) : Int := (value - 62135596800 * second) / 1000000

inductive SessionKind where
  | reservation
  | claimedRun
deriving DecidableEq, Repr

inductive SessionSource where
  | web
  | cli
deriving DecidableEq, Repr

inductive HistoryQuality where
  | complete
  | partly
deriving DecidableEq, Repr

/-- A row of `reservation_sessions`. Its times are in milliseconds. -/
structure SessionRow where
  sessionID : String
  nodeID : String
  serverID : String
  serverName : String
  groupID : String
  kind : SessionKind := .reservation
  ownerUsername : String
  ownerEditable : Bool
  purpose : String
  source : SessionSource
  createdAt : Int
  startsAt : Int
  expiresAt : Int
  revokedAt : Option Int := none
  finalizedAt : Option Int := none
  historyQuality : HistoryQuality
  provisioning : Bool
  updatedAt : Int
deriving DecidableEq, Repr

def SessionRow.group (row : SessionRow) : String × String := (row.nodeID, row.groupID)

/-- The session has neither been revoked nor finalized. -/
def SessionRow.isOpen (row : SessionRow) : Bool :=
  row.revokedAt.isNone && row.finalizedAt.isNone

/-- A row of `session_gpus`. -/
structure SessionGPU where
  sessionID : String
  gpu : Int
  reservationID : String
deriving DecidableEq, Repr

/-- The two tables under their constraints. -/
structure History where
  sessions : List SessionRow := []
  gpus : List SessionGPU := []
  windows : ∀ row ∈ sessions, row.startsAt < row.expiresAt := by simp
  sessionIDs : (sessions.map (·.sessionID)).Nodup := by simp
  groups : (sessions.map SessionRow.group).Nodup := by simp
  gpuKeys : (gpus.map fun row => (row.sessionID, row.gpu)).Nodup := by simp
  reservationIDs : (gpus.map fun row => (row.sessionID, row.reservationID)).Nodup := by simp

namespace History

def empty : History := {}

/-- What a statement on the sessions leaves, if the constraints allow it. -/
def writeSessions (db : History) (sessions : List SessionRow) : Except String History :=
  if windows : ∀ row ∈ sessions, row.startsAt < row.expiresAt then
    if sessionIDs : (sessions.map (·.sessionID)).Nodup then
      if groups : (sessions.map SessionRow.group).Nodup then
        .ok { db with sessions, windows, sessionIDs, groups }
      else .error ("UNIQUE constraint failed: " ++
        "reservation_sessions.node_id, reservation_sessions.group_id")
    else .error "UNIQUE constraint failed: reservation_sessions.session_id"
  else .error "CHECK constraint failed: expires_at_ms > starts_at_ms"

def writeGPUs (db : History) (gpus : List SessionGPU) : Except String History :=
  if gpuKeys : (gpus.map fun row => (row.sessionID, row.gpu)).Nodup then
    if reservationIDs : (gpus.map fun row => (row.sessionID, row.reservationID)).Nodup then
      .ok { db with gpus, gpuKeys, reservationIDs }
    else .error "UNIQUE constraint failed: session_gpus.session_id, session_gpus.reservation_id"
  else .error "UNIQUE constraint failed: session_gpus.session_id, session_gpus.gpu"

/-- The row is the same, except that columns which no constraint mentions may differ. -/
structure SameKeys (before after : SessionRow) : Prop where
  sessionID : after.sessionID = before.sessionID
  group : after.group = before.group
  startsAt : after.startsAt = before.startsAt
  expiresAt : after.expiresAt = before.expiresAt

/-- A statement that writes no column of a constraint cannot fail. -/
def amend (db : History) (f : SessionRow → SessionRow) (hKeys : ∀ row, SameKeys row (f row)) :
    History :=
  { db with
    sessions := db.sessions.map f
    windows := by
      intro row hRow
      obtain ⟨old, hOld, rfl⟩ := mem_map.mp hRow
      rw [(hKeys old).startsAt, (hKeys old).expiresAt]
      exact db.windows old hOld
    sessionIDs := by
      simp only [map_map, Function.comp_def, (hKeys _).sessionID]
      exact db.sessionIDs
    groups := by
      simp only [map_map, Function.comp_def, (hKeys _).group]
      exact db.groups }

/-- The GPUs of a deleted session go with it. -/
def deleteSessions (db : History) (deletes : SessionRow → Bool) : History :=
  { sessions := db.sessions.filter (!deletes ·)
    gpus := db.gpus.filter fun row =>
      !(db.sessions.filter deletes).any (·.sessionID == row.sessionID)
    windows := fun row hRow => db.windows row (mem_filter.mp hRow).1
    sessionIDs := db.sessionIDs.sublist (filter_sublist.map _)
    groups := db.groups.sublist (filter_sublist.map _)
    gpuKeys := db.gpuKeys.sublist (filter_sublist.map _)
    reservationIDs := db.reservationIDs.sublist (filter_sublist.map _) }

def prepareSession (db : History) (now : Time)
    (id nodeID serverID serverName owner purpose : String) (startsAt expiresAt : Time)
    (gpus : List Int) : Except String History := do
  let db ← db.writeSessions (db.sessions ++
    [{ sessionID := id, nodeID, serverID, serverName, groupID := "pending:" ++ id
       ownerUsername := owner, ownerEditable := true, purpose, source := .web
       createdAt := millis now, startsAt := millis startsAt, expiresAt := millis expiresAt
       historyQuality := .complete, provisioning := true, updatedAt := millis now }])
  gpus.foldlM (fun db gpu => db.writeGPUs (db.gpus ++ [⟨id, gpu, s!"pending-{gpu}"⟩])) db

/-- The GPU at an index gets the reservation at that index, or a made up one where the node
returned fewer reservations than GPUs. -/
def confirmGPUs (id : String) : List Int → List String → History → Except String History
  | [], _, db => .ok db
  | gpu :: gpus, reservationIDs, db => do
      let reservationID := reservationIDs.head?.getD s!"reservation-{gpu}"
      let db ← db.writeGPUs (db.gpus.map fun row =>
        if row.sessionID = id ∧ row.gpu = gpu then { row with reservationID } else row)
      confirmGPUs id gpus reservationIDs.tail db

def errNotFound : String := "history session not found"

def confirmSession (db : History) (now : Time) (id groupID : String)
    (reservationIDs : List String) (gpus : List Int) : Except String History :=
  if db.sessions.any fun row => row.sessionID == id && row.provisioning then do
    let db ← db.writeSessions (db.sessions.map fun row =>
      if row.sessionID = id ∧ row.provisioning then
        { row with groupID, provisioning := false, updatedAt := millis now }
      else row)
    confirmGPUs id gpus reservationIDs db
  else .error errNotFound

def dropProvisioningSession (db : History) (id : String) : History :=
  db.deleteSessions fun row => row.sessionID == id && row.provisioning

/-- A GPU of a reservation in telemetry. -/
structure ReservationMember where
  reservationID : String
  gpu : Int
deriving DecidableEq, Repr

structure ReservationUpsert where
  groupID : String
  externalSessionID : String := ""
  holder : String
  purpose : String := ""
  createdAt : Time := 0
  startsAt : Time
  expiresAt : Time
  historyQuality : String := ""
  members : List ReservationMember := []
deriving DecidableEq, Repr

structure ReservationEnded where
  groupID : String
  reason : String := ""
  endedAt : Time
deriving DecidableEq, Repr

section Telemetry

variable [Unicode] [Digest]

/-- Twelve bytes of a digest name the session of a group that came without one. -/
def sessionID (nodeID groupID : String) : String :=
  "sess_" ++ String.ofList ((Digest.sha256Hex (nodeID ++ "\x00" ++ groupID)).toList.take 24)

/-- One round of `upsertGPUs`. -/
def upsertGPU (id : String) (db : History) (member : ReservationMember) : Except String History :=
  if db.gpus.any fun row => row.sessionID == id && row.gpu == member.gpu then
    db.writeGPUs (db.gpus.map fun row =>
      if row.sessionID = id ∧ row.gpu = member.gpu then
        { row with reservationID := member.reservationID }
      else row)
  else db.writeGPUs (db.gpus ++ [⟨id, member.gpu, member.reservationID⟩])

def upsertGPUs (id : String) (members : List ReservationMember) (db : History) :
    Except String History :=
  members.foldlM (upsertGPU id) db

/-- The session that a reservation event is about: the one that the gateway prepared, if its
name has the form that the gateway gives. -/
def reservationSessionID (nodeID : String) (payload : ReservationUpsert) : String :=
  let id := trimSpace payload.externalSessionID
  if !hasPrefix id "sess_" || 128 < byteLen id then sessionID nodeID payload.groupID else id

/-- The quality of an event, and of a row that takes it up: once partial, always partial. -/
def upsertQuality (payload : ReservationUpsert) : HistoryQuality :=
  if payload.historyQuality = "partial" then .partly else .complete

section Rows

variable (nodeID serverID serverName : String) (payload : ReservationUpsert) (occurredAt : Time)

/-- The row of the session that the event names. -/
def updatedByID (row : SessionRow) : SessionRow :=
  { row with
    nodeID, serverID, serverName, groupID := payload.groupID
    ownerUsername := payload.holder, ownerEditable := true, purpose := payload.purpose
    startsAt := millis payload.startsAt, expiresAt := millis payload.expiresAt
    historyQuality := if upsertQuality payload = .partly then .partly else row.historyQuality
    provisioning := false, updatedAt := millis occurredAt }

/-- The row of the session that the group has already. -/
def updatedByGroup (ownerEditable : Bool) (row : SessionRow) : SessionRow :=
  { row with
    serverID, serverName, ownerUsername := payload.holder
    ownerEditable := row.ownerEditable || ownerEditable, purpose := payload.purpose
    startsAt := millis payload.startsAt, expiresAt := millis payload.expiresAt
    provisioning := false, updatedAt := millis occurredAt }

def insertedSession (ownerEditable : Bool) : SessionRow :=
  { sessionID := reservationSessionID nodeID payload, nodeID, serverID, serverName
    groupID := payload.groupID, ownerUsername := payload.holder, ownerEditable
    purpose := payload.purpose
    source := if payload.externalSessionID ≠ "" then .web else .cli
    createdAt := millis payload.createdAt, startsAt := millis payload.startsAt
    expiresAt := millis payload.expiresAt, historyQuality := upsertQuality payload
    provisioning := false, updatedAt := millis occurredAt }

end Rows

def applyReservation (db : History) (nodeID serverID serverName : String)
    (payload : ReservationUpsert) (occurredAt : Time) (knownOwners : List String) :
    Except String History :=
  if payload.groupID = "" ∨ payload.holder = "" ∨ payload.expiresAt ≤ payload.startsAt then
    .error "invalid reservation telemetry"
  else
    let id := reservationSessionID nodeID payload
    let web := payload.externalSessionID ≠ ""
    if web ∧ db.sessions.any (·.sessionID == id) then do
      let db ← db.writeSessions (db.sessions.map fun row =>
        if row.sessionID = id then updatedByID nodeID serverID serverName payload occurredAt row
        else row)
      upsertGPUs id payload.members db
    else
      let ownerEditable := web || knownOwners.contains (toLower (trimSpace payload.holder))
      match db.sessions.find? (·.group == (nodeID, payload.groupID)) with
      | some found => do
          -- The group has a session already, whatever its id: the insert updates that row.
          let db ← db.writeSessions (db.sessions.map fun row =>
            if row.group = (nodeID, payload.groupID) then
              updatedByGroup serverID serverName payload occurredAt ownerEditable row
            else row)
          upsertGPUs found.sessionID payload.members db
      | none => do
          let db ← db.writeSessions (db.sessions ++
            [insertedSession nodeID serverID serverName payload occurredAt ownerEditable])
          upsertGPUs id payload.members db

end Telemetry

def applyReservationEnded (db : History) (nodeID : String) (payload : ReservationEnded)
    (occurredAt : Time) : History :=
  db.amend (fun row =>
    if row.group = (nodeID, payload.groupID) then
      { row with
        revokedAt :=
          if payload.reason = "revoked" then some (millis payload.endedAt) else row.revokedAt
        finalizedAt := some (millis payload.endedAt), updatedAt := millis occurredAt }
    else row) fun row => by
      split
      · exact ⟨rfl, rfl, rfl, rfl⟩
      · exact ⟨rfl, rfl, rfl, rfl⟩

/-- The rows that `openReservationSessionsSQL` selects. -/
def openReservation (serverID : String) (atMS : Int) (row : SessionRow) : Bool :=
  row.serverID == serverID && row.kind == .reservation && !row.provisioning && row.isOpen &&
    decide (atMS < row.expiresAt)

def missingOpenSessions (db : History) (serverID : String) (live : List String) (atMS : Int) :
    List String :=
  (db.sessions.filter fun row =>
    openReservation serverID atMS row && !live.contains row.groupID).map (·.sessionID)

def closeSessions (db : History) (missing : List String) (atMS : Int) : History :=
  db.amend (fun row =>
    if missing.contains row.sessionID && row.isOpen then
      { row with
        revokedAt := some atMS, finalizedAt := some atMS, historyQuality := .partly
        updatedAt := atMS }
    else row) fun row => by
      split
      · exact ⟨rfl, rfl, rfl, rfl⟩
      · exact ⟨rfl, rfl, rfl, rfl⟩

def liveGroups (liveGroupIDs : List String) : List String :=
  (liveGroupIDs.map trimSpace).filter (· ≠ "")

/-- A session keeps its row if the snapshot lists its group as it stands. -/
theorem closeSessions_keeps (db : History) {serverID : String} {liveGroupIDs : List String}
    {atMS : Int} {row : SessionRow} (hRow : row ∈ db.sessions)
    (hLive : openReservation serverID atMS row = true → row.groupID ∈ liveGroups liveGroupIDs) :
    row ∈ (db.closeSessions (db.missingOpenSessions serverID (liveGroups liveGroupIDs) atMS)
      atMS).sessions := by
  have hNotMissing : row.sessionID ∉
      db.missingOpenSessions serverID (liveGroups liveGroupIDs) atMS := by
    intro hMissing
    obtain ⟨other, hOther, hSame⟩ := mem_map.mp hMissing
    obtain ⟨hMem, hSelected⟩ := mem_filter.mp hOther
    obtain rfl := inj_on_of_nodup_map db.sessionIDs hMem hRow hSame
    simp only [Bool.and_eq_true, Bool.not_eq_true', contains_eq_mem,
      decide_eq_false_iff_not] at hSelected
    exact hSelected.2 (hLive hSelected.1)
  refine mem_map.mpr ⟨row, hRow, if_neg ?_⟩
  simp [hNotMissing]

end History

end GPUardian
