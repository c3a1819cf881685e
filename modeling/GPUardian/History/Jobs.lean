import GPUardian.History.Pages

/-! What the events of a node do to its jobs, to the sessions that the jobs are in and to the links
between them. Reservations, their ends and job events write there; everything else leaves all that
matters to a job. -/
namespace GPUardian

open GoStrings Tables List Interleaving Function

/-- A session without the columns that samples and gaps write. -/
def SessionRow.core (row : SessionRow) : SessionRow :=
  { row with
    expiresAt := if row.kind = .claimedRun then 0 else row.expiresAt
    historyQuality := .complete
    updatedAt := 0 }

theorem SessionRow.core_markPartial (row : SessionRow) (atMS : Int) :
    (row.markPartial atMS).core = row.core := rfl

namespace Database

variable {nodeID : String} {db after : Database}

/-- The jobs and their links are as before, and the sessions but for what samples and gaps write. -/
structure SameJobs (db after : Database) : Prop where
  jobs : after.jobs = db.jobs
  links : after.jobSessions = db.jobSessions
  sessions : after.history.sessions.map (·.core) = db.history.sessions.map (·.core)

namespace SameJobs

theorem refl (db : Database) : SameJobs db db := ⟨rfl, rfl, rfl⟩

theorem trans {next : Database} (h : SameJobs db after) (h' : SameJobs after next) :
    SameJobs db next :=
  ⟨h'.jobs.trans h.jobs, h'.links.trans h.links, h'.sessions.trans h.sessions⟩

theorem linkedJobs (h : SameJobs db after) (sessionID : String) :
    after.linkedJobs sessionID = db.linkedJobs sessionID := by
  rw [Database.linkedJobs, Database.linkedJobs, h.jobs, h.links]

theorem row (h : SameJobs db after) {row : SessionRow} (hRow : row ∈ after.history.sessions) :
    ∃ old ∈ db.history.sessions, old.core = row.core := by
  have hCore : row.core ∈ db.history.sessions.map (·.core) :=
    h.sessions ▸ mem_map_of_mem hRow
  exact mem_map.mp hCore

end SameJobs

theorem seeSession_sameJobs {payload : GPUSample} {session : SessionRow}
    (h : db.seeSession payload session = .ok after) : SameJobs db after := by
  have hCore : ∀ row, (sampledSession payload row).core = row.core := by
    have hExtend : ∀ endMS row, (extendClaim endMS row).core = row.core := by
      intro endMS row
      unfold extendClaim
      split
      · rename_i hOpen
        simp only [SessionRow.core, hOpen.1, if_true]
      · rfl
    intro row
    unfold sampledSession
    dsimp only
    rw [hExtend]
    split
    · exact row.core_markPartial _
    · rfl
  obtain ⟨history, hWrite, h⟩ := bind_ok h
  cases h
  refine ⟨rfl, rfl, ?_⟩
  dsimp only
  rw [(History.writeSessions_ok hWrite).1, map_map]
  refine map_congr_left fun row _ => ?_
  rw [comp_apply]
  split
  · exact hCore row
  · rfl

/-- The event writes jobs or the sessions that jobs are in. -/
def writesJobs : EventPayload → Bool
  | .reservationUpsert _ | .reservationEnded _ | .job _ => true
  | _ => false

/-- The statements for all other events leave what matters to a job. -/
theorem Statement.sameJobs [Unicode] [Digest] {applied : EventPayload → Prop}
    (h : Statement nodeID applied db after)
    (hOther : ∀ payload, applied payload → writesJobs payload = false) : SameJobs db after := by
  cases h with
  | reservation _ _ _ _ _ _ hEvent => cases hOther _ hEvent
  | ended _ _ hEvent => cases hOther _ hEvent
  | claim _ _ _ _ _ _ hEvent => cases hOther _ hEvent
  | job _ _ _ _ _ hEvent => cases hOther _ hEvent
  | linkJob _ _ _ hEvent => cases hOther _ hEvent
  | refresh _ _ _ hEvent => cases hOther _ hEvent
  | summary _ sessionID gpu _ h =>
    rw [addSummary_ok h]
    exact ⟨rfl, rfl, rfl⟩
  | jobGPU _ payload session gpu _ _ h =>
    obtain ⟨_, _, hKeeps, _, rfl⟩ := addJobGPU_ok h
    exact ⟨rfl, rfl, congrArg _ hKeeps.sessions⟩
  | sample _ payload session _ _ h => exact seeSession_sameJobs h
  | gap payload occurredAt =>
    refine ⟨rfl, rfl, ?_⟩
    change (db.history.sessions.map _).map _ = _
    rw [map_map]
    refine map_congr_left fun row _ => ?_
    rw [comp_apply]
    split
    · exact row.core_markPartial _
    · rfl
  | _ => exact ⟨rfl, rfl, rfl⟩

theorem applyPayload_sameJobs [Unicode] [Digest] {serverID serverName : String}
    {knownOwners : List String} {occurredAt : Time} {payload : EventPayload}
    (hOther : writesJobs payload = false)
    (h : db.applyPayload nodeID serverID serverName knownOwners occurredAt payload = .ok after) :
    SameJobs db after := by
  have hStatements : Statements nodeID (· = payload) db after := applyPayload_statements rfl h
  clear h
  induction hStatements with
  | refl => exact .refl _
  | tail _ hStep ih => exact ih.trans (hStep.sameJobs fun _ hSame => hSame ▸ hOther)

/-- A reported reservation writes nothing of the jobs. -/
theorem applyReservation_jobs [Unicode] [Digest] {serverID serverName : String}
    {payload : History.ReservationUpsert} {occurredAt : Time} {knownOwners : List String}
    (h : db.applyReservation nodeID serverID serverName payload occurredAt knownOwners = .ok after) :
    after.jobs = db.jobs ∧ after.jobSessions = db.jobSessions := by
  unfold applyReservation at h
  obtain ⟨history, _, h⟩ := bind_ok h
  obtain ⟨summed, hSummed, h⟩ := bind_ok h
  obtain ⟨summaries, rfl⟩ := addSummaries_ok hSummed
  cases h
  split
  · exact ⟨rfl, rfl⟩
  · exact ⟨rfl, rfl⟩

section Ends

theorem applyReservationEnded_jobs (payload : History.ReservationEnded) (occurredAt : Time) :
    (db.applyReservationEnded nodeID payload occurredAt).jobs.rows =
      db.jobs.rows.map (endedJob nodeID payload db) := rfl

theorem applyReservationEnded_linkedJobs (payload : History.ReservationEnded) (occurredAt : Time)
    (sessionID : String) :
    (db.applyReservationEnded nodeID payload occurredAt).linkedJobs sessionID =
      (db.linkedJobs sessionID).map (endedJob nodeID payload db) := by
  unfold linkedJobs
  rw [applyReservationEnded_jobs, filter_map]
  congr 2
  funext job
  obtain ⟨hNode, hJob, _⟩ := @endedJob_frame nodeID db payload job
  simp only [comp_apply, hNode, hJob]
  rfl

end Ends

section JobEvents

theorem refreshedRow_frame (jobID : String) (row : SessionRow) :
    (db.refreshedRow nodeID jobID row).sessionID = row.sessionID ∧
      (db.refreshedRow nodeID jobID row).kind = row.kind := by
  unfold refreshedRow
  split
  · exact ⟨rfl, rfl⟩
  · exact ⟨rfl, rfl⟩

theorem refreshedRow_reservation (jobID : String) {row : SessionRow} (h : row.kind = .reservation) :
    db.refreshedRow nodeID jobID row = row := by
  unfold refreshedRow
  rw [if_neg]
  rintro ⟨hClaimed, _⟩
  cases h.symm.trans hClaimed

/-- A job event was recorded in its first session and linked to all of them. -/
structure Recorded (nodeID : String) (payload : History.JobEvent) (occurredAt : Time)
    (session : SessionRow) (rest : List SessionRow) (db after : Database) : Prop where
  jobs : after.jobs = (db.putJob (jobRow nodeID payload session occurredAt)).jobs
  links : after.jobSessions = (session :: rest).foldl
    (fun links linked => links.insertIgnore ⟨nodeID, payload.executionID, linked.sessionID⟩)
    db.jobSessions
  sessions : after.history.sessions =
    db.history.sessions.map (after.refreshedRow nodeID payload.executionID)

theorem addJobGPU_tables {payload : History.JobEvent} {session : SessionRow} {gpu : Int}
    (h : db.addJobGPU nodeID payload session gpu = .ok after) :
    after.jobs = db.jobs ∧ after.jobSessions = db.jobSessions ∧
      after.history.sessions = db.history.sessions := by
  obtain ⟨history, _, hKeeps, _, rfl⟩ := addJobGPU_ok h
  exact ⟨rfl, rfl, hKeeps.sessions⟩

theorem linkJob_tables (payload : History.JobEvent) (sessionID : String) :
    (db.linkJob nodeID payload sessionID).jobs = db.jobs ∧
      (db.linkJob nodeID payload sessionID).jobSessions =
        db.jobSessions.insertIgnore ⟨nodeID, payload.executionID, sessionID⟩ := by
  unfold linkJob
  dsimp only
  split
  · exact ⟨rfl, rfl⟩
  · exact ⟨rfl, rfl⟩

/-- What a job event writes if it has sessions. -/
theorem recordJob_recorded {payload : History.JobEvent} {occurredAt : Time}
    {sessions : List SessionRow} (h : db.recordJob nodeID payload occurredAt sessions = .ok after) :
    (sessions = [] ∧ after = db) ∨ ∃ session rest, sessions = session :: rest ∧
      Recorded nodeID payload occurredAt session rest db after := by
  rcases recordJob_cases h with hNone | ⟨session, rest, withGPUs, rfl, hGPUs, hRefresh⟩
  · exact .inl hNone
  refine .inr ⟨session, rest, rfl, ?_⟩
  obtain ⟨hJobs, hLinks, hSessions⟩ := (foldlM_relates
    (R := fun db after : Database => after.jobs = db.jobs ∧ after.jobSessions = db.jobSessions ∧
      after.history.sessions = db.history.sessions) (I := fun _ => True)
    (fun _ => ⟨rfl, rfl, rfl⟩)
    (fun _ _ _ h h' => ⟨h'.1.trans h.1, h'.2.1.trans h.2.1, h'.2.2.trans h.2.2⟩)
    (fun _ _ _ _ _ hAdd => ⟨addJobGPU_tables hAdd, trivial⟩) trivial hGPUs).1
  have hFold : ∀ (sessions : List SessionRow) (db : Database),
      let linked := sessions.foldl (fun db linked => db.linkJob nodeID payload linked.sessionID) db
      linked.jobs = db.jobs ∧ linked.history = db.history ∧ linked.jobSessions = sessions.foldl
        (fun links row => links.insertIgnore ⟨nodeID, payload.executionID, row.sessionID⟩)
        db.jobSessions := by
    intro sessions
    induction sessions with
    | nil => exact fun _ => ⟨rfl, rfl, rfl⟩
    | cons linked sessions ih =>
      intro db
      obtain ⟨hJobs, hHistory, hLinks⟩ := ih (db.linkJob nodeID payload linked.sessionID)
      obtain ⟨hJob, hLink⟩ := @linkJob_tables nodeID db payload linked.sessionID
      exact ⟨hJobs.trans hJob, hHistory.trans (linkJob_history _ _), by
        rw [foldl_cons, foldl_cons, hLinks, hLink]⟩
  have hStart : (db.startResult session).jobs = db.jobs ∧
      (db.startResult session).jobSessions = db.jobSessions := by
    unfold startResult
    split
    · exact ⟨rfl, rfl⟩
    · exact ⟨rfl, rfl⟩
  obtain ⟨hPut, hHistory, hFolded⟩ := hFold (session :: rest)
    ((db.startResult session).putJob (jobRow nodeID payload session occurredAt))
  obtain ⟨history, hWrite, hRefresh⟩ := bind_ok hRefresh
  cases hRefresh
  refine ⟨?_, ?_, ?_⟩
  · refine (hJobs.trans hPut).trans ?_
    unfold putJob
    rw [hStart.1]
  · refine (hLinks.trans hFolded).trans ?_
    unfold putJob
    rw [hStart.2]
  · refine (History.writeSessions_ok hWrite).1.trans ?_
    rw [hSessions, hHistory]
    unfold putJob
    rw [startResult_history]
    rfl

namespace Recorded

variable {payload : History.JobEvent} {occurredAt : Time} {session : SessionRow}
  {rest : List SessionRow}

theorem mem_links (h : Recorded nodeID payload occurredAt session rest db after) {link : JobSession} :
    link ∈ after.jobSessions.rows ↔ link ∈ db.jobSessions.rows ∨
      ∃ linked ∈ session :: rest, link = ⟨nodeID, payload.executionID, linked.sessionID⟩ := by
  rw [h.links]
  generalize db.jobSessions = links, session :: rest = sessions
  induction sessions generalizing links with
  | nil => simp
  | cons linked sessions ih =>
    rw [foldl_cons, ih, Table.mem_insertIgnore_iff]
    simp only [mem_cons, exists_eq_or_imp]
    tauto

/-- The sessions that the job is not linked to have their jobs as before. -/
theorem linkedJobs_other (h : Recorded nodeID payload occurredAt session rest db after)
    {sessionID : String}
    (hOther : ⟨nodeID, payload.executionID, sessionID⟩ ∉ after.jobSessions.rows) :
    after.linkedJobs sessionID = db.linkedJobs sessionID := by
  let selects (links : List JobSession) (key : String × String) : Bool := links.any fun row =>
    row.sessionID == sessionID && row.nodeID == key.1 && row.jobID == key.2
  have hSelects : ∀ (links : List JobSession) (key : String × String),
      selects links key = true ↔ (⟨key.1, key.2, sessionID⟩ : JobSession) ∈ links := by
    intro links key
    refine any_eq_true.trans ⟨?_, fun hLink => ⟨_, hLink, by simp⟩⟩
    rintro ⟨row, hRow, hSame⟩
    simp only [Bool.and_eq_true, beq_iff_eq] at hSame
    obtain ⟨⟨rfl, hNode⟩, hJob⟩ := hSame
    rw [← hNode, ← hJob]
    exact hRow
  have hSame : selects after.jobSessions.rows = selects db.jobSessions.rows := by
    funext key
    rw [Bool.eq_iff_iff, hSelects, hSelects, h.mem_links]
    refine or_iff_left ?_
    rintro ⟨linked, hLinked, hLink⟩
    obtain ⟨_, _, rfl⟩ := JobSession.mk.inj hLink
    exact hOther (h.mem_links.mpr (.inr ⟨linked, hLinked, rfl⟩))
  have hNot : selects after.jobSessions.rows (jobRow nodeID payload session occurredAt).key = false :=
    Bool.eq_false_iff.mpr fun hTrue => hOther ((hSelects _ _).mp hTrue)
  have hUpsert : (db.putJob (jobRow nodeID payload session occurredAt)).jobs.rows.filter
      (fun job => selects after.jobSessions.rows job.key) =
        db.jobs.rows.filter fun job => selects after.jobSessions.rows job.key :=
    Table.filter_upsert (JobRow.update_key · _) (selects after.jobSessions.rows) hNot
  change after.jobs.rows.filter (fun job => selects after.jobSessions.rows job.key) =
    db.jobs.rows.filter fun job => selects db.jobSessions.rows job.key
  rw [h.jobs, ← hSame]
  exact hUpsert

end Recorded

/-- The run has the session: it was made, or the session of the group was extended. -/
structure Claimed (nodeID groupID : String) (session : SessionRow) (db after : Database) : Prop where
  jobs : after.jobs = db.jobs
  links : after.jobSessions = db.jobSessions
  found : after.sessionByGroup nodeID groupID = some session
  others : ∀ row ∈ after.history.sessions, row = session ∨ row ∈ db.history.sessions
  kept : ∀ row ∈ db.history.sessions, row ∈ after.history.sessions ∨
    row.group = (nodeID, groupID) ∧ session.sessionID = row.sessionID
  origin : (db.sessionByGroup nodeID groupID = none ∧ session.kind = .claimedRun ∧
      session.provisioning = false) ∨
    ∃ row, db.sessionByGroup nodeID groupID = some row ∧ session.kind = row.kind ∧
      session.provisioning = row.provisioning

/-- After the claim its session is found under its group. -/
theorem claimSession_claimed [Unicode] [Digest] {serverID serverName : String}
    {payload : History.JobEvent} {occurredAt : Time}
    (h : db.claimSession nodeID serverID serverName payload occurredAt = .ok after) :
    ∃ session, Claimed nodeID (claimedSessionGroup payload) session db after := by
  unfold claimSession at h
  dsimp only at h
  split at h
  · rename_i found hFound
    obtain ⟨history, hWrite, h⟩ := bind_ok h
    cases h
    obtain ⟨hMem, hNode, hGroupID⟩ := sessionByGroup_mem hFound
    have hGroup : found.group = (nodeID, claimedSessionGroup payload) := by
      rw [SessionRow.group, hNode, hGroupID]
    have hRows := (History.writeSessions_ok hWrite).1
    -- the session of the group is the only one that is written
    have hOnly : ∀ row ∈ db.history.sessions, row.group = (nodeID, claimedSessionGroup payload) →
        row = found := fun row hRow hSame =>
      inj_on_of_nodup_map db.history.groups hRow hMem (hSame.trans hGroup.symm)
    refine ⟨_, rfl, rfl, sessionByGroup_of_mem (hRows ▸ mem_map_of_mem hMem) ?_, ?_, ?_,
      .inr ⟨found, hFound, ?_⟩⟩
    · rw [if_pos hGroup]
      exact hGroup
    · intro row hRow
      obtain ⟨old, hOld, rfl⟩ := mem_map.mp (hRows ▸ hRow)
      by_cases hSame : old.group = (nodeID, claimedSessionGroup payload)
      · exact .inl (by rw [hOnly old hOld hSame])
      · rw [if_neg hSame]
        exact .inr hOld
    · intro row hRow
      by_cases hSame : row.group = (nodeID, claimedSessionGroup payload)
      · rw [if_pos hGroup]
        exact .inr ⟨hSame, by rw [hOnly row hRow hSame]⟩
      · refine .inl ?_
        rw [hRows]
        exact mem_map.mpr ⟨row, hRow, if_neg hSame⟩
    · rw [if_pos hGroup]
      exact ⟨rfl, rfl⟩
  · rename_i hNone
    obtain ⟨history, hWrite, h⟩ := bind_ok h
    cases h
    have hRows := (History.writeSessions_ok hWrite).1
    refine ⟨_, rfl, rfl, sessionByGroup_of_mem (hRows ▸ mem_append_right _ mem_cons_self) rfl,
      ?_, fun row hRow => .inl (hRows ▸ mem_append_left _ hRow), .inl ⟨hNone, rfl, rfl⟩⟩
    intro row hRow
    rcases mem_append.mp (hRows ▸ hRow) with hOld | hNew
    · exact .inr hOld
    · exact .inl (mem_singleton.mp hNew)

end JobEvents

end Database

open Database
open History (ReservationUpsert ReservationEnded)

/-- A property of the jobs is kept by all events if it is kept by those that write jobs or the
sessions that jobs are in. -/
theorem EventInvariant.ofJobs [Unicode] [Digest] {ok : String → EventPayload → Database → Prop}
    {Inv : Database → Prop}
    (same : ∀ {db after}, Inv db → SameJobs db after → Inv after)
    (upsert : ∀ {nodeID serverID serverName db after occurredAt} {payload : ReservationUpsert} {id},
      ok nodeID (.reservationUpsert payload) db → Inv db → after.jobs = db.jobs →
      after.jobSessions = db.jobSessions →
      History.UpsertedSessions nodeID serverID serverName payload occurredAt db.history
        after.history.sessions id → Inv after)
    (ended : ∀ {nodeID db} {payload : ReservationEnded} occurredAt,
      ok nodeID (.reservationEnded payload) db → Inv db →
      Inv (db.applyReservationEnded nodeID payload occurredAt))
    (job : ∀ {nodeID db after payload occurredAt session rest},
      ok nodeID (.job payload) db → Inv db →
      db.groupSessions nodeID (telemetryGroups payload.groupID payload.groupIDs) = session :: rest →
      Recorded nodeID payload occurredAt session rest db after → Inv after)
    (claim : ∀ {nodeID db claimed after payload occurredAt session},
      ok nodeID (.job payload) db → Inv db →
      telemetryGroups payload.groupID payload.groupIDs = [] →
      Claimed nodeID (claimedSessionGroup payload) session db claimed →
      Recorded nodeID payload occurredAt session [] claimed after → Inv after) :
    EventInvariant ok Inv where
  node _ _ _ _ h := same h ⟨rfl, rfl, rfl⟩
  ingested _ _ h := same h ⟨rfl, rfl, rfl⟩
  sync _ _ h := same h ⟨rfl, rfl, rfl⟩
  event := by
    intro nodeID serverID serverName knownOwners occurredAt db payload after hOk h hApply
    cases payload with
    | reservationUpsert payload =>
      obtain ⟨id, hUpserted⟩ := applyReservation_upserted hApply
      obtain ⟨hJobs, hLinks⟩ := applyReservation_jobs hApply
      exact upsert hOk h hJobs hLinks hUpserted
    | reservationEnded payload =>
      cases hApply
      exact ended occurredAt hOk h
    | job payload =>
      rcases applyJob_cases hApply with rfl | ⟨claimed, hGroups, hClaim, hRecord⟩ | hRecord
      · exact h
      · obtain ⟨session, hClaimed⟩ := claimSession_claimed hClaim
        have hOnly : claimed.groupSessions nodeID [claimedSessionGroup payload] = [session] := by
          simp only [groupSessions, filterMap_cons, filterMap_nil, hClaimed.found]
        rw [hOnly] at hRecord
        rcases recordJob_recorded hRecord with ⟨hNone, _⟩ | ⟨first, rest, hFirst, hRecorded⟩
        · cases hNone
        · obtain ⟨rfl, rfl⟩ := cons.inj hFirst
          exact claim hOk h hGroups hClaimed hRecorded
      · rcases recordJob_recorded hRecord with ⟨_, rfl⟩ | ⟨first, rest, hFirst, hRecorded⟩
        · exact h
        · exact job hOk h hFirst hRecorded
    | _ => exact same h (applyPayload_sameJobs rfl hApply)

end GPUardian
