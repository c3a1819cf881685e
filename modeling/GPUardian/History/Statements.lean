import GPUardian.History.Upserts
import Mathlib.Logic.Relation

/-! What a transaction of the ingest can do to the database, statement by statement. Every event of a
node is applied by statements of that node, so a property of the tables that they keep is kept by
every page. -/
namespace GPUardian

open GoStrings Tables List Interleaving

open History (ReservationUpsert ReservationEnded AuthorizationEnded)

namespace Database

/-- The session is one of the node. -/
def Owns (nodeID : String) (db : Database) (sessionID : String) : Prop :=
  ∃ row ∈ db.history.sessions, row.sessionID = sessionID ∧ row.nodeID = nodeID

/-- The session is one of the node, or one that a job of the node is in. -/
def Reaches (nodeID : String) (db : Database) (sessionID : String) : Prop :=
  db.Owns nodeID sessionID ∨ ∃ job ∈ db.jobs.rows, job.nodeID = nodeID ∧ job.sessionID = sessionID

variable {nodeID groupID sessionID serverID serverName : String} {db after : Database} {gpu : Int}

variable {row session : SessionRow} {sessions : List SessionRow} {occurredAt : Time}

theorem sessionByGroup_mem (h : db.sessionByGroup nodeID groupID = some row) :
    row ∈ db.history.sessions ∧ row.nodeID = nodeID ∧ row.groupID = groupID := by
  have hGroup : row.group = (nodeID, groupID) := by simpa using find?_some h
  exact ⟨mem_of_find?_eq_some h, congrArg Prod.fst hGroup, congrArg Prod.snd hGroup⟩

theorem groupSessions_mem {groups : List String} (h : row ∈ db.groupSessions nodeID groups) :
    row ∈ db.history.sessions ∧ row.nodeID = nodeID := by
  obtain ⟨group, _, hRow⟩ := mem_filterMap.mp h
  obtain ⟨hMem, hNode, _⟩ := sessionByGroup_mem hRow
  exact ⟨hMem, hNode⟩

theorem sessionByGroup_of_mem (hRow : row ∈ db.history.sessions)
    (hGroup : row.group = (nodeID, groupID)) : db.sessionByGroup nodeID groupID = some row := by
  cases hFind : db.sessionByGroup nodeID groupID with
  | none =>
    exact absurd (by simpa using hGroup) (find?_eq_none.mp hFind row hRow)
  | some other =>
    obtain ⟨hOther, hNode, hID⟩ := sessionByGroup_mem hFind
    rw [inj_on_of_nodup_map db.history.groups hOther hRow
      (hGroup ▸ by rw [SessionRow.group, hNode, hID])]

/-- The reported session is one of the node. -/
theorem upserted_owns [Digest] {payload : ReservationUpsert} {id : String}
    (h : History.UpsertedSessions nodeID serverID serverName payload occurredAt db.history sessions
      id) :
    id = (db.upsertTarget nodeID payload).1 ∧
      ∃ row ∈ sessions, row.sessionID = id ∧ row.nodeID = nodeID := by
  cases h with
  | byID hNamed hFound =>
    obtain ⟨row, hRow, hID⟩ := hFound
    constructor
    · rw [upsertTarget, if_pos ⟨hNamed, any_eq_true.mpr ⟨row, hRow, by simpa using hID⟩⟩]
    · exact ⟨_, mem_map.mpr ⟨row, hRow, if_pos hID⟩, hID, rfl⟩
  | byGroup ownerEditable found hFound hGroup hUnnamed =>
    have hNot : ¬(payload.externalSessionID ≠ "" ∧ db.history.sessions.any
        (·.sessionID == History.reservationSessionID nodeID payload) = true) := by
      rintro ⟨hNamed, hAny⟩
      obtain ⟨row, hRow, hID⟩ := any_eq_true.mp hAny
      exact hUnnamed hNamed row hRow (by simpa using hID)
    constructor
    · simp only [upsertTarget, if_neg hNot, sessionByGroup_of_mem hFound hGroup,
        Option.map_some, Option.getD_some]
    · exact ⟨_, mem_map.mpr ⟨found, hFound, if_pos hGroup⟩, rfl, congrArg Prod.fst hGroup⟩
  | inserted ownerEditable hNone hUnnamed =>
    have hFind : db.sessionByGroup nodeID payload.groupID = none :=
      find?_eq_none.mpr fun row hRow hGroup => hNone row hRow (by simpa using hGroup)
    constructor
    · unfold upsertTarget
      rw [hFind]
      generalize History.reservationSessionID nodeID payload = id
      dsimp only
      split
      · rfl
      · rfl
    · exact ⟨History.insertedSession nodeID serverID serverName payload occurredAt ownerEditable,
        mem_append_right _ mem_cons_self, History.insertedSession_sessionID .., rfl⟩

theorem addSummary_ok (h : db.addSummary sessionID gpu = .ok after) :
    after = { db with summaries := db.summaries.insertIgnore { sessionID, gpu } } := by
  unfold addSummary at h
  split at h
  · cases h
    rfl
  · cases h

theorem addSummary_history (h : db.addSummary sessionID gpu = .ok after) :
    after.history = db.history := by
  rw [addSummary_ok h]

theorem addSummaries_ok {α : Type} {gpu : α → Int} {items : List α}
    (h : items.foldlM (fun (db : Database) item => db.addSummary sessionID (gpu item)) db =
      .ok after) : ∃ summaries, after = { db with summaries } :=
  (foldlM_relates (R := fun db after : Database => ∃ summaries, after = { db with summaries })
    (I := fun _ => True) (fun _ => ⟨_, rfl⟩) (fun _ _ _ ⟨_, h⟩ ⟨_, h'⟩ => ⟨_, h ▸ h'⟩)
    (fun _ _ _ _ _ hAdd => ⟨⟨_, addSummary_ok hAdd⟩, trivial⟩) trivial h).1

theorem confirmSession_ok {now : Time} {id : String} {reservationIDs : List String}
    {gpus : List Int} (h : db.confirmSession now id groupID reservationIDs gpus = .ok after) :
    ∃ history summaries,
      db.history.confirmSession now id groupID reservationIDs gpus = .ok history ∧
      after = { db with history, summaries } := by
  obtain ⟨history, hConfirm, hSummaries⟩ := bind_ok h
  obtain ⟨summaries, rfl⟩ := addSummaries_ok hSummaries
  exact ⟨history, summaries, hConfirm, rfl⟩

/-- The sessions are still there, and are the node's. -/
def Holds (nodeID : String) (sessions : List SessionRow) (db : Database) : Prop :=
  ∀ row ∈ sessions, row ∈ db.history.sessions ∧ row.nodeID = nodeID

theorem linkJob_history (payload : History.JobEvent) (sessionID : String) :
    (db.linkJob nodeID payload sessionID).history = db.history := by
  unfold linkJob
  split
  · rfl
  · rfl

variable {payload : History.JobEvent}

theorem linkJob_holds (h : db.Holds nodeID sessions) :
    (db.linkJob nodeID payload sessionID).Holds nodeID sessions := by
  intro row hRow
  rw [linkJob_history]
  exact h row hRow

/-- A GPU of a job leaves the sessions, and the GPUs of the other sessions. -/
theorem addJobGPU_ok (h : db.addJobGPU nodeID payload session gpu = .ok after) :
    ∃ history summaries, History.KeepsOthers session.sessionID db.history history ∧
      (summaries = db.summaries ∨
        summaries = db.summaries.insertIgnore { sessionID := session.sessionID, gpu }) ∧
      after = { db with
        jobGPUs := db.jobGPUs.insertIgnore { nodeID, jobID := payload.executionID, gpu }
        history, summaries } := by
  unfold addJobGPU at h
  dsimp only at h
  split at h
  · obtain ⟨history, hWrite, hAdd⟩ := bind_ok h
    refine ⟨history, _, ?_, .inr rfl, addSummary_ok hAdd⟩
    unfold insertSessionGPU at hWrite
    split at hWrite
    · cases hWrite
      exact .refl _
    · exact .append hWrite
  · cases h
    exact ⟨_, _, .refl _, .inl rfl, rfl⟩

theorem addJobGPU_holds (h : db.Holds nodeID sessions)
    (hAdd : db.addJobGPU nodeID payload session gpu = .ok after) : after.Holds nodeID sessions := by
  obtain ⟨history, _, hKeeps, _, rfl⟩ := addJobGPU_ok hAdd
  unfold Holds
  rwa [hKeeps.sessions]

/-- What a job event does if it has a session: the job is written, linked and given its GPUs, and then
the claimed sessions that it was ever linked to are refreshed. -/
theorem recordJob_cases (h : db.recordJob nodeID payload occurredAt sessions = .ok after) :
    (sessions = [] ∧ after = db) ∨
      ∃ session rest withGPUs, sessions = session :: rest ∧
        payload.gpus.foldlM (fun db gpu => addJobGPU nodeID payload session gpu db)
          ((session :: rest).foldl (fun db linked => db.linkJob nodeID payload linked.sessionID)
            ((db.startResult session).putJob (jobRow nodeID payload session occurredAt))) =
              .ok withGPUs ∧
        withGPUs.refreshClaimedSessions nodeID payload.executionID = .ok after := by
  unfold recordJob at h
  split at h
  · cases h
    exact .inl ⟨rfl, rfl⟩
  · rename_i session rest
    dsimp only at h
    split at h
    · cases h
    obtain ⟨withGPUs, hGPUs, hRefresh⟩ := bind_ok h
    exact .inr ⟨session, rest, withGPUs, rfl, hGPUs, hRefresh⟩

theorem startResult_history (session : SessionRow) : (db.startResult session).history = db.history := by
  unfold startResult
  split
  · rfl
  · rfl

/-- A job event is about the session of its claimed run, or about the sessions of its groups. -/
theorem applyJob_cases [Digest] (h : db.applyJob nodeID serverID serverName payload occurredAt = .ok after) :
    after = db ∨
      (∃ claimed, telemetryGroups payload.groupID payload.groupIDs = [] ∧
        db.claimSession nodeID serverID serverName payload occurredAt = .ok claimed ∧
        claimed.recordJob nodeID payload occurredAt
          (claimed.groupSessions nodeID [claimedSessionGroup payload]) = .ok after) ∨
      db.recordJob nodeID payload occurredAt
        (db.groupSessions nodeID (telemetryGroups payload.groupID payload.groupIDs)) = .ok after := by
  unfold applyJob at h
  dsimp only at h
  split at h
  · rename_i hClaimed
    split at h
    · cases h
      exact .inl rfl
    · obtain ⟨claimed, hClaim, hRecord⟩ := bind_ok h
      exact .inr (.inl ⟨claimed, hClaimed.1, hClaim, hRecord⟩)
  · exact .inr (.inr h)

theorem sampledSession_frame (payload : GPUSample) (row : SessionRow) :
    (sampledSession payload row).sessionID = row.sessionID ∧
      (sampledSession payload row).nodeID = row.nodeID := by
  have hExtend : ∀ endMS (row : SessionRow), (extendClaim endMS row).sessionID = row.sessionID ∧
      (extendClaim endMS row).nodeID = row.nodeID := by
    intro endMS row
    unfold extendClaim
    split
    · exact ⟨rfl, rfl⟩
    · exact ⟨rfl, rfl⟩
  unfold sampledSession
  dsimp only
  split
  · exact hExtend _ (row.markPartial _)
  · exact hExtend _ row

/-- The sessions are there after a sample, and no other table changes. -/
theorem seeSession_reaches {payload : GPUSample} (hReaches : db.Reaches nodeID sessionID)
    (h : db.seeSession payload session = .ok after) : after.Reaches nodeID sessionID := by
  unfold seeSession at h
  obtain ⟨history, hWrite, h⟩ := bind_ok h
  cases h
  rcases hReaches with ⟨row, hRow, hID, hNode⟩ | hJob
  · left
    refine ⟨_, (History.writeSessions_ok hWrite).1 ▸ mem_map_of_mem hRow, ?_, ?_⟩
    all_goals split
    · exact (sampledSession_frame payload row).1.trans hID
    · exact hID
    · exact (sampledSession_frame payload row).2.trans hNode
    · exact hNode
  · exact .inr hJob

/-- A sample is attributed to a session that the node can reach. -/
theorem resolveGPUSampleSession_reaches
    (h : db.resolveGPUSampleSession nodeID groupID = some session) :
    session ∈ db.history.sessions ∧ db.Reaches nodeID session.sessionID := by
  unfold resolveGPUSampleSession at h
  dsimp only at h
  split at h
  · rename_i job hJob
    have hID : session.sessionID = job.sessionID := by simpa using find?_some h
    split at hJob
    · obtain ⟨hMem, hKey⟩ := Table.find?_mem hJob
      exact ⟨mem_of_find?_eq_some h, .inr ⟨job, hMem, congrArg Prod.fst hKey, hID.symm⟩⟩
    · cases hJob
  · obtain ⟨hMem, hNode, _⟩ := sessionByGroup_mem h
    exact ⟨hMem, .inl ⟨session, hMem, rfl, hNode⟩⟩

section Statements

variable [Unicode] [Digest]

/-- The statements of the transactions that apply events of a node, each being one of the given. -/
inductive Statement (nodeID : String) (applied : EventPayload → Prop) :
    Database → Database → Prop where
  | node db serverID nowMS : Statement nodeID applied db (db.seeNode nodeID serverID nowMS)
  | ingested db row : Statement nodeID applied db (db.addIngested row)
  | sync (db : Database) syncStates : Statement nodeID applied db { db with syncStates }
  | reservation (db : Database) serverID serverName payload occurredAt knownOwners history
      (hEvent : applied (.reservationUpsert payload))
      (h : db.history.applyReservation nodeID serverID serverName payload occurredAt knownOwners =
        .ok history) : Statement nodeID applied db { db with history }
  | summary (db after : Database) sessionID gpu (hOwns : db.Owns nodeID sessionID)
      (h : db.addSummary sessionID gpu = .ok after) :
      Statement nodeID applied db after
  | result (db : Database) sessionID (hOwns : db.Owns nodeID sessionID) :
      Statement nodeID applied db (db.addResult sessionID)
  | ended db payload occurredAt (hEvent : applied (.reservationEnded payload)) :
      Statement nodeID applied db (db.applyReservationEnded nodeID payload occurredAt)
  | authorization db (row : AuthorizationScope) (hNode : row.nodeID = nodeID) :
      Statement nodeID applied db (db.putAuthorization row)
  | linkAuthorization db authorizationID sessionID :
      Statement nodeID applied db (db.linkAuthorization nodeID authorizationID sessionID)
  | authorizationEnded db payload :
      Statement nodeID applied db (db.applyAuthorizationEnded nodeID payload)
  | claim (db after : Database) serverID serverName payload occurredAt
      (h : db.claimSession nodeID serverID serverName payload occurredAt = .ok after)
      (hEvent : applied (.job payload)) : Statement nodeID applied db after
  | job (db : Database) payload session occurredAt
      (hSession : session ∈ db.history.sessions) (hNode : session.nodeID = nodeID)
      (hEvent : applied (.job payload)) :
      Statement nodeID applied db (db.putJob (jobRow nodeID payload session occurredAt))
  | linkJob (db : Database) payload sessionID (hOwns : db.Owns nodeID sessionID)
      (hEvent : applied (.job payload)) :
      Statement nodeID applied db (db.linkJob nodeID payload sessionID)
  | jobGPU (db after : Database) payload session gpu
      (hSession : session ∈ db.history.sessions) (hNode : session.nodeID = nodeID)
      (h : db.addJobGPU nodeID payload session gpu = .ok after) :
      Statement nodeID applied db after
  | refresh (db after : Database) (payload : History.JobEvent)
      (h : db.refreshClaimedSessions nodeID payload.executionID = .ok after)
      (hEvent : applied (.job payload)) : Statement nodeID applied db after
  | nodePart db entry part :
      Statement nodeID applied db (db.addNodePart nodeID entry part)
  | sample (db after : Database) payload session
      (hSession : session ∈ db.history.sessions) (hReaches : db.Reaches nodeID session.sessionID)
      (h : db.seeSession payload session = .ok after) : Statement nodeID applied db after
  | sessionPart (db : Database) sessionID entry part (hReaches : db.Reaches nodeID sessionID) {payload}
      (hEvent : applied (.gpuSample payload)) :
      Statement nodeID applied db (db.addSessionPart sessionID entry part)
  | gap db payload occurredAt :
      Statement nodeID applied db (db.applyGap nodeID payload occurredAt)

/-- A sequence of statements. -/
abbrev Statements (nodeID : String) (applied : EventPayload → Prop) :
    Database → Database → Prop :=
  Relation.ReflTransGen (Statement nodeID applied)

variable {applied : EventPayload → Prop} {knownOwners : List String}

/-- The sessions after a report. -/
theorem applyReservation_upserted {payload : ReservationUpsert}
    (h : db.applyReservation nodeID serverID serverName payload occurredAt knownOwners = .ok after) :
    ∃ id, History.UpsertedSessions nodeID serverID serverName payload occurredAt db.history
      after.history.sessions id := by
  obtain ⟨history, hHistory, h⟩ := bind_ok h
  obtain ⟨summed, hSummed, h⟩ := bind_ok h
  obtain ⟨summaries, rfl⟩ := addSummaries_ok hSummed
  obtain ⟨id, written, hUpserted, _⟩ := History.applyReservation_ok hHistory
  cases h
  split
  · exact ⟨id, hUpserted⟩
  · exact ⟨id, hUpserted⟩

theorem applyReservation_statements {payload : ReservationUpsert}
    (hEvent : applied (.reservationUpsert payload))
    (h : db.applyReservation nodeID serverID serverName payload occurredAt knownOwners = .ok after) :
    Statements nodeID applied db after := by
  unfold applyReservation at h
  obtain ⟨history, hHistory, h⟩ := bind_ok h
  obtain ⟨summed, hSummed, h⟩ := bind_ok h
  obtain ⟨id, written, hUpserted, _⟩ := History.applyReservation_ok hHistory
  obtain ⟨hID, row, hRow, hOwn⟩ := upserted_owns hUpserted
  have hOwns : Owns nodeID { db with history } (db.upsertTarget nodeID payload).1 :=
    ⟨row, hRow, hID ▸ hOwn⟩
  have hFirst : Statement nodeID applied db { db with history } :=
    .reservation db serverID serverName payload occurredAt knownOwners history hEvent hHistory
  obtain ⟨hChain, hLast⟩ := foldlM_relates (R := Statements nodeID applied)
    (I := (Owns nodeID · (db.upsertTarget nodeID payload).1)) (fun _ => .refl)
    (fun _ _ _ => .trans) (fun s member _ t hOwns hAdd => ⟨.single (.summary s t _ _ hOwns hAdd),
      by rw [Owns, addSummary_history hAdd]; exact hOwns⟩) hOwns hSummed
  cases h
  split
  · exact .head hFirst hChain
  · exact .tail (.head hFirst hChain) (.result summed _ hLast)

theorem applyAuthorization_statements (payload : History.AuthorizationUpsert) :
    Statements nodeID applied db (db.applyAuthorization nodeID payload) := by
  refine .head (.authorization db (authorizationRow nodeID payload
    (db.groupSessions nodeID (telemetryGroups payload.groupID payload.groupIDs))) rfl) ?_
  exact (foldl_relates (I := fun _ => True) (fun _ => .refl) (fun _ _ _ => .trans)
    (fun s session _ _ => ⟨.single (.linkAuthorization s _ _), trivial⟩) trivial).1

/-- What a job event writes is such a sequence. -/
theorem recordJob_statements (hEvent : applied (.job payload)) (hSessions : db.Holds nodeID sessions)
    (h : db.recordJob nodeID payload occurredAt sessions = .ok after) :
    Statements nodeID applied db after := by
  rcases recordJob_cases h with ⟨_, rfl⟩ | ⟨session, rest, withGPUs, rfl, hGPUs, hRefresh⟩
  · exact .refl
  obtain ⟨hSession, hNode⟩ := hSessions session mem_cons_self
  have hOwns : ∀ row ∈ session :: rest, ∀ {db : Database}, db.Holds nodeID (session :: rest) →
      db.Owns nodeID row.sessionID := fun row hRow _ hHolds =>
    ⟨row, (hHolds row hRow).1, rfl, (hHolds row hRow).2⟩
  have hResult : Statements nodeID applied db (db.startResult session) := by
    unfold startResult
    split
    · exact .single (.result db _ (hOwns session mem_cons_self hSessions))
    · exact .refl
  have hJob : Statement nodeID applied (db.startResult session)
      ((db.startResult session).putJob (jobRow nodeID payload session occurredAt)) :=
    .job _ payload session occurredAt ((startResult_history session).symm ▸ hSession) hNode hEvent
  have hHolds : ((db.startResult session).putJob
      (jobRow nodeID payload session occurredAt)).Holds nodeID (session :: rest) := by
    intro row hRow
    refine ⟨?_, (hSessions row hRow).2⟩
    change row ∈ (db.startResult session).history.sessions
    rw [startResult_history]
    exact (hSessions row hRow).1
  obtain ⟨hLinks, hLinked⟩ := foldl_relates (R := Statements nodeID applied)
    (I := Holds nodeID (session :: rest)) (fun _ => .refl) (fun _ _ _ => .trans)
    (fun s linked hLinked hHolds => ⟨.single (.linkJob s payload _ (hOwns linked hLinked hHolds)
      hEvent), linkJob_holds hHolds⟩) hHolds
  obtain ⟨hAdds, _⟩ := foldlM_relates (R := Statements nodeID applied)
    (I := Holds nodeID (session :: rest)) (fun _ => .refl) (fun _ _ _ => .trans)
    (fun s gpu _ t hHolds hAdd => ⟨.single (.jobGPU s t payload session gpu
      (hHolds session mem_cons_self).1 hNode hAdd), addJobGPU_holds hHolds hAdd⟩) hLinked hGPUs
  exact .tail (((hResult.tail hJob).trans hLinks).trans hAdds) (.refresh _ _ _ hRefresh hEvent)

theorem applyJob_statements (hEvent : applied (.job payload))
    (h : db.applyJob nodeID serverID serverName payload occurredAt = .ok after) :
    Statements nodeID applied db after := by
  rcases applyJob_cases h with rfl | ⟨claimed, _, hClaim, hRecord⟩ | hRecord
  · exact .refl
  · exact .head (.claim db claimed serverID serverName payload occurredAt hClaim hEvent)
      (recordJob_statements hEvent (fun _ => groupSessions_mem) hRecord)
  · exact recordJob_statements hEvent (fun _ => groupSessions_mem) hRecord

theorem applyGroupSample_statements {payload : GPUSample} {entry : GPUSampleEntry}
    (hEvent : applied (.gpuSample payload))
    (h : db.applyGroupSample nodeID payload entry groupID = .ok after) :
    Statements nodeID applied db after := by
  unfold applyGroupSample at h
  split at h
  · cases h
    exact .refl
  · rename_i session hSession
    obtain ⟨hMem, hReaches⟩ := resolveGPUSampleSession_reaches hSession
    obtain ⟨seen, hSeen, h⟩ := bind_ok h
    have hFirst : Statement nodeID applied db seen := .sample db seen payload session hMem hReaches hSeen
    cases h
    split
    · refine .head hFirst (foldl_relates (R := Statements nodeID applied)
        (I := (Reaches nodeID · session.sessionID)) (fun _ => .refl) (fun _ _ _ => .trans)
        (fun s part _ hReaches => ⟨.single (.sessionPart s _ entry part hReaches hEvent), hReaches⟩)
        (seeSession_reaches hReaches hSeen)).1
    · exact .single hFirst

theorem applyGPUSample_statements {payload : GPUSample} (hEvent : applied (.gpuSample payload))
    (h : db.applyGPUSample nodeID payload = .ok after) : Statements nodeID applied db after := by
  unfold applyGPUSample at h
  split at h
  · refine (foldlM_relates (R := Statements nodeID applied) (I := fun _ => True)
      (fun _ => .refl) (fun _ _ _ => .trans) ?_ trivial h).1
    intro db entry _ after _ hEntry
    have hNode : Statements nodeID applied db
        (db.applyNodeGPUIntervals nodeID entry payload.windowStart payload.windowEnd) :=
      (foldl_relates (I := fun _ => True) (fun _ => .refl) (fun _ _ _ => .trans)
        (fun s part _ _ => ⟨.single (.nodePart s entry part), trivial⟩) trivial).1
    have hGroups := (foldlM_relates (R := Statements nodeID applied)
      (I := fun _ => True) (fun _ => .refl) (fun _ _ _ => .trans)
      (fun s group _ t _ hGroup => ⟨applyGroupSample_statements hEvent hGroup, trivial⟩) trivial hEntry).1
    exact ⟨hNode.trans hGroups, trivial⟩
  · cases h
    exact .refl

/-- Every event is applied by statements of its node. -/
theorem applyPayload_statements {payload : EventPayload} (hEvent : applied payload)
    (h : db.applyPayload nodeID serverID serverName knownOwners occurredAt payload = .ok after) :
    Statements nodeID applied db after := by
  cases payload with
  | reservationUpsert payload => exact applyReservation_statements hEvent h
  | reservationEnded payload =>
    cases h
    exact .single (.ended db payload occurredAt hEvent)
  | authorizationUpsert payload =>
    cases h
    exact applyAuthorization_statements payload
  | authorizationEnded payload =>
    cases h
    exact .single (.authorizationEnded db payload)
  | job payload => exact applyJob_statements hEvent h
  | gpuSample payload => exact applyGPUSample_statements hEvent h
  | gap payload =>
    cases h
    exact .single (.gap db payload occurredAt)
  | other =>
    cases h
    exact .refl

section Pages

variable {format : PayloadFormat} {now : Time} {page : Telemetry.Page} {nowMS : Int}
  {event : Telemetry.Event}

/-- An event was remembered, or it is from now on and its payload has been applied. -/
theorem ingestEvent_ok
    (h : db.ingestEvent format serverID serverName knownOwners page nowMS event = .ok after) :
    (db.Ingested page event ∧ after = db) ∨ ¬ db.Ingested page event ∧
      ∃ payload, format.decode event = .ok payload ∧
        (db.addIngested { nodeID := page.nodeID, streamID := page.streamID, seq := event.seq
                          ingestedAt := nowMS }).applyPayload page.nodeID serverID serverName
          knownOwners event.occurredAt payload = .ok after := by
  unfold ingestEvent at h
  dsimp only at h
  split at h
  · rename_i hOld
    cases h
    exact .inl ⟨hOld, rfl⟩
  · rename_i hNew
    split at h
    · rename_i hApply
      cases h
      exact .inr ⟨hNew, bind_ok hApply⟩
    · cases h

/-- A page that is applied and brings something has its events ingested one by one. -/
theorem applyPage_ok
    (h : db.applyPageWithOwners format now serverID serverName page knownOwners = .ok after) :
    (page.events = [] ∧ after = db) ∨ ∃ ingested syncStates,
      page.events.foldlM (ingestEvent format serverID serverName knownOwners page (millis now))
        (db.seeNode page.nodeID serverID (millis now)) = .ok ingested ∧
      after = { ingested with syncStates } := by
  unfold applyPageWithOwners at h
  dsimp only at h
  split at h
  · cases h
  split at h
  · rename_i hIdle
    cases h
    exact .inl ⟨hIdle.1, rfl⟩
  obtain ⟨ingested, hEvents, h⟩ := bind_ok h
  cases h
  exact .inr ⟨ingested, _, hEvents, rfl⟩

theorem events_statements {events : List Telemetry.Event}
    (h : events.foldlM (ingestEvent format serverID serverName knownOwners page nowMS) db =
      .ok after) : Statements page.nodeID (fun _ => True) db after := by
  refine (foldlM_relates (R := Statements page.nodeID fun _ => True) (I := fun _ => True)
    (fun _ => .refl) (fun _ _ _ => .trans) (fun db event _ after _ hIngest => ⟨?_, trivial⟩)
    trivial h).1
  rcases ingestEvent_ok hIngest with ⟨_, rfl⟩ | ⟨_, payload, _, hPayload⟩
  · exact .refl
  · exact .head (.ingested db _) (applyPayload_statements trivial hPayload)

/-- So is every page. -/
theorem applyPage_statements
    (h : db.applyPageWithOwners format now serverID serverName page knownOwners = .ok after) :
    Statements page.nodeID (fun _ => True) db after := by
  rcases applyPage_ok h with ⟨_, rfl⟩ | ⟨ingested, syncStates, hEvents, rfl⟩
  · exact .refl
  · exact .tail (.head (.node db serverID (millis now)) (events_statements hEvents))
      (.sync ingested syncStates)

end Pages

end Statements

end Database

end GPUardian
