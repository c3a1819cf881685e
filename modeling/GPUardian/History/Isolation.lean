import GPUardian.History.Pages
import GPUardian.History.Quality

/-! The rows of the other nodes. The statements for the events of a node write rows of that node, as
long as its reports name no session of another one. -/
namespace GPUardian

open GoStrings Tables List Interleaving

open History (ReservationUpsert)

namespace Database

/-- The session is one of another node. -/
def foreign (nodeID : String) (db : Database) (sessionID : String) : Bool :=
  (db.history.sessions.filter (·.nodeID != nodeID)).any (·.sessionID == sessionID)

/-- Rows of other nodes: their sessions with what hangs on them, and their jobs, authorizations and
rollups. -/
structure Elsewhere where
  sessions : List SessionRow
  gpus : List SessionGPU
  summaries : List GPUSummary
  results : List SessionResult
  rollups : List MinuteRollup
  jobs : List JobRow
  jobSessions : List JobSession
  jobGPUs : List JobGPU
  authorizations : List AuthorizationScope
  authorizationSessions : List AuthorizationSession
  nodeRollups : List NodeRollup

def elsewhere (nodeID : String) (db : Database) : Elsewhere where
  sessions := db.history.sessions.filter (·.nodeID != nodeID)
  gpus := db.history.gpus.filter (db.foreign nodeID ·.sessionID)
  summaries := db.summaries.rows.filter (db.foreign nodeID ·.key.1)
  results := db.results.rows.filter (db.foreign nodeID ·.sessionID)
  rollups := db.rollups.rows.filter (db.foreign nodeID ·.key.1)
  jobs := db.jobs.rows.filter (·.key.1 != nodeID)
  jobSessions := db.jobSessions.rows.filter (·.nodeID != nodeID)
  jobGPUs := db.jobGPUs.rows.filter (·.nodeID != nodeID)
  authorizations := db.authorizations.rows.filter (·.key.1 != nodeID)
  authorizationSessions := db.authorizationSessions.rows.filter (·.nodeID != nodeID)
  nodeRollups := db.nodeRollups.rows.filter (·.key.1 != nodeID)

/-- The rows that belong to other nodes are the same. -/
def SameElsewhere (nodeID : String) (db after : Database) : Prop :=
  after.elsewhere nodeID = db.elsewhere nodeID

/-- The sessions that the jobs and their links name, with the node of the job. -/
def namedSessions (db : Database) : List (String × String) :=
  db.jobs.rows.map (fun job => (job.nodeID, job.sessionID)) ++
    db.jobSessions.rows.map fun link => (link.nodeID, link.sessionID)

/-- Jobs are in sessions of their own node. -/
def Linked (db : Database) : Prop := ∀ named ∈ db.namedSessions, db.Owns named.1 named.2

/-- A report that names a session names none of another node. -/
def NamesOwn [Unicode] [Digest] (nodeID : String) (payload : ReservationUpsert) (db : Database) : Prop :=
  payload.externalSessionID ≠ "" →
    db.foreign nodeID (History.reservationSessionID nodeID payload) = false

variable {nodeID : String} {db after : Database}

variable {sessionID : String} {history : History}

section Foreign

theorem foreign_congr (h : after.history.sessions.filter (·.nodeID != nodeID) =
    db.history.sessions.filter (·.nodeID != nodeID)) : after.foreign nodeID = db.foreign nodeID := by
  funext sessionID
  rw [foreign, foreign, h]

theorem foreign_of_owns (h : db.Owns nodeID sessionID) : db.foreign nodeID sessionID = false := by
  obtain ⟨row, hRow, hID, hNode⟩ := h
  refine any_eq_false.mpr fun other hOther hSame => ?_
  obtain ⟨hMem, hElse⟩ := mem_filter.mp hOther
  rw [inj_on_of_nodup_map db.history.sessionIDs hMem hRow ((beq_iff_eq.mp hSame).trans hID.symm),
    hNode, bne_self_eq_false] at hElse
  cases hElse

namespace SameElsewhere

theorem sessions (h : SameElsewhere nodeID db after) :
    after.history.sessions.filter (·.nodeID != nodeID) =
      db.history.sessions.filter (·.nodeID != nodeID) :=
  congrArg Elsewhere.sessions h

theorem namedSessions (h : SameElsewhere nodeID db after) :
    after.namedSessions.filter (·.1 != nodeID) = db.namedSessions.filter (·.1 != nodeID) := by
  have hNamed (db : Database) : db.namedSessions.filter (·.1 != nodeID) =
      (db.elsewhere nodeID).jobs.map (fun job => (job.nodeID, job.sessionID)) ++
        (db.elsewhere nodeID).jobSessions.map fun link => (link.nodeID, link.sessionID) := by
    rw [Database.namedSessions, filter_append, filter_map, filter_map]
    rfl
  rw [hNamed, hNamed, h]

/-- Another node's session stays its session. -/
theorem owns (h : SameElsewhere nodeID db after) {other : String}
    (hOther : other ≠ nodeID) (hOwns : db.Owns other sessionID) : after.Owns other sessionID := by
  obtain ⟨row, hRow, hID, hNode⟩ := hOwns
  have hMem : row ∈ after.history.sessions.filter (·.nodeID != nodeID) := by
    rw [h.sessions]
    exact mem_filter.mpr ⟨hRow, by simpa [hNode] using hOther⟩
  exact ⟨row, (mem_filter.mp hMem).1, hID, hNode⟩

/-- Only sessions of the node and their GPUs are written. -/
theorem of_history
    (hSessions : history.sessions.filter (·.nodeID != nodeID) =
      db.history.sessions.filter (·.nodeID != nodeID))
    (hGPUs : history.gpus.filter (db.foreign nodeID ·.sessionID) =
      db.history.gpus.filter (db.foreign nodeID ·.sessionID)) :
    SameElsewhere nodeID db { db with history } := by
  have hSame : Database.foreign nodeID { db with history } = db.foreign nodeID :=
    foreign_congr hSessions
  simp only [SameElsewhere, elsewhere, hSame, hSessions, hGPUs]

end SameElsewhere

end Foreign

/-- What a statement for an event of the node leaves. -/
structure Confined (nodeID : String) (db after : Database) : Prop where
  elsewhere : SameElsewhere nodeID db after
  owns : ∀ sessionID, db.Owns nodeID sessionID → after.Owns nodeID sessionID := by
    exact fun _ h => h
  named : ∀ sessionID, (nodeID, sessionID) ∈ after.namedSessions →
    after.Owns nodeID sessionID ∨ (nodeID, sessionID) ∈ db.namedSessions := by
      exact fun _ h => .inr h

theorem Confined.trans {next : Database} (h : Confined nodeID db after)
    (h' : Confined nodeID after next) : Confined nodeID db next where
  elsewhere := h'.elsewhere.trans h.elsewhere
  owns sessionID hOwns := h'.owns sessionID (h.owns sessionID hOwns)
  named sessionID hNamed := by
    rcases h'.named sessionID hNamed with hOwns | hOld
    · exact .inl hOwns
    · exact (h.named sessionID hOld).imp_left (h'.owns sessionID)

theorem Linked.confined (h : db.Linked) (hAfter : Confined nodeID db after) : after.Linked := by
  rintro ⟨other, sessionID⟩ hNamed
  by_cases hNode : other = nodeID
  · subst hNode
    rcases hAfter.named sessionID hNamed with hOwns | hOld
    · exact hOwns
    · exact hAfter.owns sessionID (h _ hOld)
  · have hMem : (other, sessionID) ∈ db.namedSessions.filter (·.1 != nodeID) := by
      rw [← hAfter.elsewhere.namedSessions]
      exact mem_filter.mpr ⟨hNamed, by simpa using hNode⟩
    exact hAfter.elsewhere.owns hNode (h _ (mem_filter.mp hMem).1)

section Sessions

theorem not_owns {row : SessionRow} (hRow : row ∈ db.history.sessions) (hNode : row.nodeID ≠ nodeID) :
    ¬ db.Owns nodeID row.sessionID := by
  rintro ⟨other, hOther, hID, hSame⟩
  rw [inj_on_of_nodup_map db.history.sessionIDs hOther hRow hID] at hSame
  exact hNode hSame

/-- The update writes rows of the node only, and leaves them their ids. -/
structure UpdatesOwn (nodeID : String) (rows : List SessionRow) (f : SessionRow → SessionRow) :
    Prop where
  id : ∀ row ∈ rows, (f row).sessionID = row.sessionID
  own : ∀ row ∈ rows, row.nodeID = nodeID → (f row).nodeID = nodeID
  others : ∀ row ∈ rows, row.nodeID ≠ nodeID → f row = row

variable {rows : List SessionRow}

/-- Rows of the node are selected and updated. -/
theorem UpdatesOwn.of_selected {selects : SessionRow → Prop} [DecidablePred selects]
    {g : SessionRow → SessionRow} (hSelects : ∀ row ∈ rows, selects row → row.nodeID = nodeID)
    (hID : ∀ row, (g row).sessionID = row.sessionID)
    (hNode : ∀ row, row.nodeID = nodeID → (g row).nodeID = nodeID) :
    UpdatesOwn nodeID rows fun row => if selects row then g row else row := by
  refine ⟨fun row _ => ?_, fun row _ hOwn => ?_, fun row hRow hElse => ?_⟩
  · split
    · exact hID row
    · rfl
  · split
    · exact hNode row hOwn
    · exact hOwn
  · exact if_neg fun hSelected => hElse (hSelects row hRow hSelected)

variable {f : SessionRow → SessionRow}

theorem UpdatesOwn.filter (h : UpdatesOwn nodeID rows f) :
    (rows.map f).filter (·.nodeID != nodeID) = rows.filter (·.nodeID != nodeID) := by
  induction rows with
  | nil => rfl
  | cons row rows ih =>
    have hRest := ih ⟨fun other hOther => h.id other (mem_cons_of_mem _ hOther),
      fun other hOther => h.own other (mem_cons_of_mem _ hOther),
      fun other hOther => h.others other (mem_cons_of_mem _ hOther)⟩
    rw [map_cons, filter_cons, filter_cons, hRest]
    by_cases hNode : row.nodeID = nodeID
    · simp [hNode, h.own row mem_cons_self hNode]
    · simp [hNode, h.others row mem_cons_self hNode]

theorem UpdatesOwn.owns (h : UpdatesOwn nodeID rows f)
    (hOwns : ∃ row ∈ rows, row.sessionID = sessionID ∧ row.nodeID = nodeID) :
    ∃ row ∈ rows.map f, row.sessionID = sessionID ∧ row.nodeID = nodeID := by
  obtain ⟨row, hRow, hID, hNode⟩ := hOwns
  exact ⟨f row, mem_map_of_mem hRow, (h.id row hRow).trans hID, h.own row hRow hNode⟩

theorem Confined.of_map (hSessions : history.sessions = db.history.sessions.map f)
    (hUpdates : UpdatesOwn nodeID db.history.sessions f)
    (hGPUs : history.gpus.filter (db.foreign nodeID ·.sessionID) =
      db.history.gpus.filter (db.foreign nodeID ·.sessionID)) :
    Confined nodeID db { db with history } where
  elsewhere := .of_history (hSessions ▸ hUpdates.filter) hGPUs
  owns sessionID hOwns := by
    unfold Owns
    rw [hSessions]
    exact hUpdates.owns hOwns

theorem Confined.of_append {new : SessionRow}
    (hSessions : history.sessions = db.history.sessions ++ [new]) (hNode : new.nodeID = nodeID)
    (hGPUs : history.gpus.filter (db.foreign nodeID ·.sessionID) =
      db.history.gpus.filter (db.foreign nodeID ·.sessionID)) :
    Confined nodeID db { db with history } where
  elsewhere := .of_history (by simp [hSessions, hNode]) hGPUs
  owns sessionID hOwns := by
    obtain ⟨row, hRow, hOwn⟩ := hOwns
    exact ⟨row, hSessions ▸ mem_append_left _ hRow, hOwn⟩

end Sessions

section Steps

theorem mem_namedSessions {named : String × String} : named ∈ db.namedSessions ↔
    (∃ job ∈ db.jobs.rows, (job.nodeID, job.sessionID) = named) ∨
      ∃ link ∈ db.jobSessions.rows, (link.nodeID, link.sessionID) = named := by
  rw [namedSessions, mem_append, mem_map, mem_map]

theorem Linked.job (h : db.Linked) {job : JobRow} (hJob : job ∈ db.jobs.rows) :
    db.Owns job.nodeID job.sessionID :=
  h _ (mem_namedSessions.mpr (.inl ⟨job, hJob, rfl⟩))

theorem Linked.link (h : db.Linked) {link : JobSession} (hLink : link ∈ db.jobSessions.rows) :
    db.Owns link.nodeID link.sessionID :=
  h _ (mem_namedSessions.mpr (.inr ⟨link, hLink, rfl⟩))

theorem Linked.reaches (h : db.Linked) (hReaches : db.Reaches nodeID sessionID) :
    db.Owns nodeID sessionID := by
  rcases hReaches with hOwns | ⟨job, hJob, rfl, rfl⟩
  · exact hOwns
  · exact h.job hJob

variable {serverID serverName : String} {payload : ReservationUpsert} {occurredAt : Time}
variable {knownOwners : List String}

theorem refreshClaimedSessions_confined {jobID : String} (hLinked : db.Linked)
    (h : db.refreshClaimedSessions nodeID jobID = .ok after) : Confined nodeID db after := by
  obtain ⟨history, hWrite, h⟩ := bind_ok h
  cases h
  obtain ⟨hSessions, hGPUs⟩ := History.writeSessions_ok hWrite
  refine .of_map hSessions (.of_selected ?_ (fun _ => rfl) fun _ hNode => hNode) (by rw [hGPUs])
  rintro row hRow ⟨_, _, hAny, _⟩
  obtain ⟨link, hLink, hOwn⟩ := any_eq_true.mp hAny
  simp only [Bool.and_eq_true, beq_iff_eq] at hOwn
  by_contra hNode
  exact not_owns hRow hNode (hOwn.2 ▸ hOwn.1.1 ▸ hLinked.link hLink)

theorem seeSession_confined {payload : GPUSample} {session : SessionRow}
    (hOwns : db.Owns nodeID session.sessionID) (h : db.seeSession payload session = .ok after) :
    Confined nodeID db after := by
  obtain ⟨history, hWrite, h⟩ := bind_ok h
  cases h
  obtain ⟨hSessions, hGPUs⟩ := History.writeSessions_ok hWrite
  refine .of_map hSessions (.of_selected ?_ (fun row => (sampledSession_frame payload row).1)
    fun row hNode => (sampledSession_frame payload row).2.trans hNode) (by rw [hGPUs])
  intro row hRow hID
  by_contra hNode
  exact not_owns hRow hNode (hID ▸ hOwns)

theorem addSummary_confined {gpu : Int} (hOwns : db.Owns nodeID sessionID)
    (h : db.addSummary sessionID gpu = .ok after) : Confined nodeID db after := by
  rw [addSummary_ok h]
  have hSummaries := @Table.filter_insertIgnore _ _ GPUSummary.key _ db.summaries { sessionID, gpu }
    (fun key => db.foreign nodeID key.1) (foreign_of_owns hOwns)
  exact { elsewhere := congrArg ({ db.elsewhere nodeID with summaries := · : Elsewhere }) hSummaries }

theorem addResult_confined (hOwns : db.Owns nodeID sessionID) :
    Confined nodeID db (db.addResult sessionID) := by
  have hResults := @Table.filter_insertIgnore _ _ SessionResult.sessionID _ db.results { sessionID }
    (fun key => db.foreign nodeID key) (foreign_of_owns hOwns)
  exact { elsewhere := congrArg ({ db.elsewhere nodeID with results := · : Elsewhere }) hResults }

theorem addSessionPart_confined {entry : GPUSampleEntry} {part : Time × Int}
    (hOwns : db.Owns nodeID sessionID) :
    Confined nodeID db (db.addSessionPart sessionID entry part) := by
  have hForeign := foreign_of_owns hOwns
  refine ⟨congrArg₂ ({ db.elsewhere nodeID with summaries := ·, rollups := · : Elsewhere }) ?_ ?_,
    fun _ h => h, fun _ h => .inr h⟩
  · refine Table.filter_amend_selected (fun key : String × Int => db.foreign nodeID key.1)
      (fun _ => rfl) fun row _ hKey => ?_
    rw [hKey]
    exact hForeign
  · refine Table.filter_upsert ?_ (fun key : String × Int × Int => db.foreign nodeID key.1) ?_
    · exact fun _ => rfl
    · exact hForeign

/-- The end of a reservation finishes jobs of the node. -/
theorem applyReservationEnded_confined {payload : History.ReservationEnded} (hLinked : db.Linked) :
    Confined nodeID db (db.applyReservationEnded nodeID payload occurredAt) := by
  have hHistory : Confined nodeID db
      { db with history := db.history.applyReservationEnded nodeID payload occurredAt } :=
    .of_map rfl (.of_selected (fun row _ hSelected => congrArg Prod.fst hSelected) (fun _ => rfl)
      fun _ hNode => hNode) rfl
  refine hHistory.trans ⟨congrArg ({ elsewhere nodeID _ with jobs := · : Elsewhere }) ?_,
    fun _ h => h, fun sessionID hNamed => .inr ?_⟩
  · refine Table.filter_amend_selected (fun key : String × String => key.1 != nodeID)
      (fun _ => rfl) fun job hJob hSession => ?_
    obtain ⟨row, hRow, hID⟩ := Option.map_eq_some_iff.mp hSession.symm
    obtain ⟨hMem, hNode, _⟩ := sessionByGroup_mem hRow
    obtain ⟨owner, hOwner, hSame, hOther⟩ := hLinked.job hJob
    rw [inj_on_of_nodup_map db.history.sessionIDs hMem hOwner (hID.trans hSame.symm), hOther]
      at hNode
    simp [JobRow.key, hNode]
  · refine mem_namedSessions.mpr ((mem_namedSessions.mp hNamed).imp_left ?_)
    rintro ⟨job, hJob, hName⟩
    obtain ⟨old, hOld, rfl⟩ := mem_map.mp hJob
    obtain ⟨hSameNode, _, hSession⟩ := @endedJob_frame nodeID db payload old
    exact ⟨old, hOld, by rw [← hName, hSameNode, hSession]⟩

theorem putJob_confined {row : JobRow} (hNode : row.nodeID = nodeID)
    (hOwns : db.Owns nodeID row.sessionID) : Confined nodeID db (db.putJob row) := by
  refine { elsewhere := congrArg ({ db.elsewhere nodeID with jobs := · : Elsewhere }) ?_, named := ?_ }
  · refine Table.filter_upsert ?_ (fun key : String × String => key.1 != nodeID) ?_
    · exact fun _ => rfl
    · simp [JobRow.key, hNode]
  intro sessionID hNamed
  rcases mem_namedSessions.mp hNamed with ⟨job, hJob, hName⟩ | hLink
  · have hKeys : ∀ old : JobRow, (old.update row).key = old.key := fun _ => rfl
    obtain rfl : job.sessionID = sessionID := congrArg Prod.snd hName
    rcases Table.mem_upsert hKeys hJob with rfl | ⟨old, hOld, hKey, rfl⟩ | hOld
    · exact .inl hOwns
    · exact .inl hOwns
    · exact .inr (mem_namedSessions.mpr (.inl ⟨job, hOld, hName⟩))
  · exact .inr (mem_namedSessions.mpr (.inr hLink))

theorem linkJob_confined {payload : History.JobEvent} (hOwns : db.Owns nodeID sessionID) :
    Confined nodeID db (db.linkJob nodeID payload sessionID) := by
  have hLink : Confined nodeID db
      { db with
        jobSessions := db.jobSessions.insertIgnore
          { nodeID, jobID := payload.executionID, sessionID } } := by
    have hRows := @Table.filter_insertIgnore _ _ id _ db.jobSessions
      { nodeID, jobID := payload.executionID, sessionID } (·.nodeID != nodeID) (by simp)
    refine ⟨congrArg ({ db.elsewhere nodeID with jobSessions := · : Elsewhere }) hRows,
      fun _ h => h, fun named hNamed => ?_⟩
    rcases mem_namedSessions.mp hNamed with hJob | ⟨link, hLink, hName⟩
    · exact .inr (mem_namedSessions.mpr (.inl hJob))
    rcases Table.mem_insertIgnore hLink with rfl | hOld
    · cases hName
      exact .inl hOwns
    · exact .inr (mem_namedSessions.mpr (.inr ⟨link, hOld, hName⟩))
  unfold linkJob
  dsimp only
  split
  · exact hLink
  · refine hLink.trans { elsewhere := congrArg₂ ({ elsewhere nodeID _ with
      authorizations := ·, authorizationSessions := · : Elsewhere }) ?_ ?_ }
    · exact Table.filter_amend_selected (fun key : String × String => key.1 != nodeID)
        (fun _ => rfl) fun row _ hKey => by simp [hKey]
    · exact @Table.filter_insertIgnore _ _ id _ db.authorizationSessions
        { nodeID, authorizationID := payload.authorizationID, sessionID } (·.nodeID != nodeID)
        (by simp)

theorem addJobGPU_confined {payload : History.JobEvent} {session : SessionRow} {gpu : Int}
    (hOwns : db.Owns nodeID session.sessionID)
    (h : db.addJobGPU nodeID payload session gpu = .ok after) : Confined nodeID db after := by
  obtain ⟨history, summaries, hKeeps, hSummaries, rfl⟩ := addJobGPU_ok h
  have hTables : Confined nodeID db
      { db with
        jobGPUs := db.jobGPUs.insertIgnore { nodeID, jobID := payload.executionID, gpu }
        summaries } := by
    refine ⟨congrArg₂ ({ db.elsewhere nodeID with jobGPUs := ·, summaries := · : Elsewhere }) ?_ ?_,
      fun _ h => h, fun _ h => .inr h⟩
    · exact @Table.filter_insertIgnore _ _ id _ db.jobGPUs
        { nodeID, jobID := payload.executionID, gpu } (·.nodeID != nodeID) (by simp)
    · rcases hSummaries with rfl | rfl
      · rfl
      · exact Table.filter_insertIgnore (fun key : String × Int => db.foreign nodeID key.1)
          (foreign_of_owns hOwns)
  exact hTables.trans (.of_map (f := id) (by rw [List.map_id, hKeeps.sessions])
    ⟨fun _ _ => rfl, fun _ _ h => h, fun _ _ _ => rfl⟩ (hKeeps.gpus _ (foreign_of_owns hOwns)))

theorem claimSession_confined [Digest] {payload : History.JobEvent}
    (h : db.claimSession nodeID serverID serverName payload occurredAt = .ok after) :
    Confined nodeID db after := by
  unfold claimSession at h
  dsimp only at h
  split at h
  all_goals
    obtain ⟨history, hWrite, h⟩ := bind_ok h
    cases h
    obtain ⟨hSessions, hGPUs⟩ := History.writeSessions_ok hWrite
  · refine .of_map hSessions ?_ (by rw [hGPUs])
    exact .of_selected (fun row _ hGroup => congrArg Prod.fst hGroup) (fun _ => rfl)
      fun _ hNode => hNode
  · exact .of_append hSessions rfl (by rw [hGPUs])

variable [Unicode] [Digest]

/-- A report that names its own sessions writes rows of its node only. -/
theorem applyReservation_confined (hNames : NamesOwn nodeID payload db)
    (h : db.history.applyReservation nodeID serverID serverName payload occurredAt knownOwners =
      .ok history) : Confined nodeID db { db with history } := by
  obtain ⟨id, written, hUpserted, hRows, hGPUs⟩ := History.applyReservation_ok h
  have hID : Database.Owns nodeID { db with history } id := (upserted_owns hUpserted).2
  have hFilter (hSame : history.sessions.filter (·.nodeID != nodeID) =
      db.history.sessions.filter (·.nodeID != nodeID)) :
      history.gpus.filter (fun row => db.foreign nodeID row.sessionID) =
        db.history.gpus.filter (fun row => db.foreign nodeID row.sessionID) := by
    have hForeign : Database.foreign nodeID { db with history } = db.foreign nodeID :=
      foreign_congr hSame
    rw [← hForeign]
    rw [(History.upsertGPUs_keeps hGPUs).gpus _ (foreign_of_owns hID), hRows]
  generalize hSessions : history.sessions = sessions at hUpserted hFilter
  cases hUpserted with
  | byID hNamed hFound =>
    have hUpdates : UpdatesOwn nodeID db.history.sessions fun row =>
        if row.sessionID = History.reservationSessionID nodeID payload then
          History.updatedByID nodeID serverID serverName payload occurredAt row
        else row := by
      refine .of_selected (fun row hRow hID => ?_) (fun _ => rfl) fun _ _ => rfl
      by_contra hElse
      have hOwn := any_eq_false.mp (hNames hNamed) row (mem_filter.mpr ⟨hRow, bne_iff_ne.mpr hElse⟩)
      exact hOwn (beq_iff_eq.mpr hID)
    exact .of_map hSessions hUpdates (hFilter hUpdates.filter)
  | byGroup ownerEditable found hFound hGroup hUnnamed =>
    have hUpdates : UpdatesOwn nodeID db.history.sessions fun row =>
        if row.group = (nodeID, payload.groupID) then
          History.updatedByGroup serverID serverName payload occurredAt ownerEditable row
        else row :=
      .of_selected (fun row _ hGroup => congrArg Prod.fst hGroup) (fun _ => rfl) fun _ hNode => hNode
    exact .of_map hSessions hUpdates (hFilter hUpdates.filter)
  | inserted ownerEditable hNone hUnnamed =>
    have hNode : (History.insertedSession nodeID serverID serverName payload occurredAt
      ownerEditable).nodeID = nodeID := rfl
    exact .of_append hSessions hNode (hFilter (by simp [hNode]))

/-- The event is no report that names a session of another node. -/
def OwnReport (nodeID : String) : EventPayload → Database → Prop
  | .reservationUpsert report, db => NamesOwn nodeID report db
  | _, _ => True

theorem OwnReport.congr {payload : EventPayload} (h : OwnReport nodeID payload db)
    (hSame : SameElsewhere nodeID db after) : OwnReport nodeID payload after := by
  cases payload with
  | reservationUpsert report =>
    intro hNamed
    rw [foreign_congr hSame.sessions]
    exact h hNamed
  | _ => trivial

/-- The statements for the events of a node leave the rows of the other nodes. -/
theorem Statement.confined {applied : EventPayload → Prop} (h : Statement nodeID applied db after)
    (hLinked : db.Linked) (hOwn : ∀ payload, applied payload → OwnReport nodeID payload db) :
    Confined nodeID db after := by
  cases h with
  | node serverID nowMS => exact { elsewhere := rfl }
  | ingested row => exact { elsewhere := rfl }
  | sync syncStates => exact { elsewhere := rfl }
  | reservation serverID serverName payload occurredAt knownOwners history hEvent h =>
    exact applyReservation_confined (hOwn _ hEvent) h
  | summary _ sessionID gpu hOwns h => exact addSummary_confined hOwns h
  | result sessionID hOwns => exact addResult_confined hOwns
  | ended payload occurredAt => exact applyReservationEnded_confined hLinked
  | authorization row hNode =>
    refine { elsewhere := congrArg ({ db.elsewhere nodeID with authorizations := · : Elsewhere }) ?_ }
    refine Table.filter_upsert ?_ (fun key : String × String => key.1 != nodeID) ?_
    · exact fun _ => rfl
    · simp [AuthorizationScope.key, hNode]
  | linkAuthorization authorizationID sessionID =>
    have hRows := @Table.filter_insertIgnore _ _ id _ db.authorizationSessions
      { nodeID, authorizationID, sessionID } (·.nodeID != nodeID) (by simp)
    exact ⟨congrArg ({ db.elsewhere nodeID with authorizationSessions := · : Elsewhere }) hRows,
      fun _ h => h, fun _ h => .inr h⟩
  | authorizationEnded payload =>
    refine { elsewhere := congrArg ({ db.elsewhere nodeID with authorizations := · : Elsewhere }) ?_ }
    exact Table.filter_amend_selected (fun key : String × String => key.1 != nodeID)
      (fun _ => rfl) fun row _ hKey => by simp [hKey]
  | claim _ serverID serverName payload occurredAt h => exact claimSession_confined h
  | job payload session occurredAt hSession hNode =>
    exact putJob_confined rfl ⟨session, hSession, rfl, hNode⟩
  | linkJob payload sessionID hOwns => exact linkJob_confined hOwns
  | jobGPU _ payload session gpu hSession hNode h =>
    exact addJobGPU_confined ⟨session, hSession, rfl, hNode⟩ h
  | refresh _ payload h => exact refreshClaimedSessions_confined hLinked h
  | nodePart entry part =>
    refine { elsewhere := congrArg ({ db.elsewhere nodeID with nodeRollups := · : Elsewhere }) ?_ }
    refine Table.filter_upsert ?_ (fun key : String × Int × Int => key.1 != nodeID) ?_
    · exact fun _ => rfl
    · simp [NodeRollup.key]
  | sample _ payload session hSession hReaches h =>
    exact seeSession_confined (hLinked.reaches hReaches) h
  | sessionPart sessionID entry part hReaches =>
    exact addSessionPart_confined (hLinked.reaches hReaches)
  | gap payload occurredAt =>
    exact .of_map rfl (.of_selected (fun row _ hSelected => hSelected.1) (fun _ => rfl)
      fun _ hNode => hNode) rfl

/-- So does any sequence of them. -/
theorem Statements.elsewhere (h : Statements nodeID (OwnReport nodeID · db) db after)
    (hLinked : db.Linked) : SameElsewhere nodeID db after ∧ after.Linked := by
  induction h with
  | refl => exact ⟨rfl, hLinked⟩
  | tail _ hStep ih =>
    obtain ⟨hSame, hLinked⟩ := ih
    have hConfined := hStep.confined hLinked fun payload hOwn => hOwn.congr hSame
    exact ⟨hConfined.elsewhere.trans hSame, hLinked.confined hConfined⟩

/-- A session of another node has become one of the node. -/
def Takes (nodeID : String) (db after : Database) : Prop :=
  ∃ row ∈ after.history.sessions, db.foreign nodeID row.sessionID = true ∧ row.nodeID = nodeID ∧
    row.provisioning = false

omit [Unicode] [Digest] in
theorem Takes.not_same (h : Takes nodeID db after) : ¬ SameElsewhere nodeID db after := by
  intro hSame
  obtain ⟨row, hRow, hForeign, hNode, _⟩ := h
  rw [← foreign_congr hSame.sessions, foreign_of_owns ⟨row, hRow, rfl, hNode⟩] at hForeign
  cases hForeign

/-- What the node does later gives no session back. -/
theorem Takes.later {next : Database} {applied : EventPayload → Prop}
    (h : Takes nodeID db after) (hLater : Statements nodeID applied after next) :
    Takes nodeID db next := by
  obtain ⟨row, hRow, hForeign, hNode, hReady⟩ := h
  have hPersists : after.history.Persists (· = nodeID) next.history := hLater.persists rfl
  obtain ⟨new, hNew, hKept⟩ := hPersists row hRow hReady
  exact ⟨new, hNew, hKept.sessionID ▸ hForeign, hKept.node.elim (·.trans hNode) id,
    hKept.provisioning hReady⟩

/-- A report that names a session of another node takes it over. -/
theorem applyReservation_takes (hNames : ¬ NamesOwn nodeID payload db)
    (h : db.applyReservation nodeID serverID serverName payload occurredAt knownOwners = .ok after) :
    Takes nodeID db after := by
  obtain ⟨hNamed, hForeign⟩ := Classical.not_imp.mp hNames
  rw [Bool.not_eq_false] at hForeign
  obtain ⟨row, hElse, hSame⟩ := any_eq_true.mp hForeign
  have hRow := (mem_filter.mp hElse).1
  rw [beq_iff_eq] at hSame
  obtain ⟨id, hUpserted⟩ := applyReservation_upserted h
  unfold Takes
  generalize after.history.sessions = sessions at hUpserted
  cases hUpserted with
  | byID hNamed hFound =>
    refine ⟨_, mem_map_of_mem hRow, ?_⟩
    rw [if_pos hSame]
    exact ⟨hSame.symm ▸ hForeign, rfl, rfl⟩
  | byGroup ownerEditable found hFound hGroup hUnnamed =>
    exact absurd hSame (hUnnamed hNamed row hRow)
  | inserted ownerEditable hNone hUnnamed =>
    exact absurd hSame (hUnnamed hNamed row hRow)

theorem applyPayload_leaves {payload : EventPayload} (hLinked : db.Linked)
    (hOwn : OwnReport nodeID payload db)
    (h : db.applyPayload nodeID serverID serverName knownOwners occurredAt payload = .ok after) :
    SameElsewhere nodeID db after ∧ after.Linked :=
  Statements.elsewhere (applyPayload_statements hOwn h) hLinked

section Pages

variable {format : PayloadFormat} {call : PageCall}

/-- An event is one that may be applied and leaves the rows of the other nodes, or it is not and
takes a session over. -/
theorem ingestEvent_leaves_or_takes {event : Telemetry.Event} (hLinked : db.Linked)
    (h : db.ingestEvent format call.serverID call.serverName call.knownOwners call.page
      (millis call.now) event = .ok after) :
    (call.MeetsEvent format OwnReport db event ∧ SameElsewhere call.page.nodeID db after ∧
      after.Linked) ∨
    (¬ call.MeetsEvent format OwnReport db event ∧ Takes call.page.nodeID db after) := by
  rcases ingestEvent_ok h with ⟨hOld, rfl⟩ | ⟨hNew, payload, hDecode, hPayload⟩
  · exact .inl ⟨.inl hOld, rfl, hLinked⟩
  have hMeets : call.MeetsEvent format OwnReport db event ↔
      OwnReport call.page.nodeID payload (db.addIngested (call.ingestedRow event)) := by
    rw [PageCall.MeetsEvent, hDecode]
    refine ⟨fun hMeets => hMeets.resolve_left hNew payload rfl, fun hOwn => .inr fun _ hSame => ?_⟩
    cases hSame
    exact hOwn
  rw [hMeets]
  by_cases hOwn : OwnReport call.page.nodeID payload (db.addIngested (call.ingestedRow event))
  · have hAdded : (db.addIngested (call.ingestedRow event)).Linked := hLinked
    obtain ⟨hSame, hStill⟩ := applyPayload_leaves hAdded hOwn hPayload
    exact .inl ⟨hOwn, hSame, hStill⟩
  · refine .inr ⟨hOwn, ?_⟩
    cases payload with
    | reservationUpsert report =>
      have hTakes : Takes _ (db.addIngested (call.ingestedRow event)) after :=
        applyReservation_takes hOwn hPayload
      exact hTakes
    | _ => exact absurd trivial hOwn

/-- The events of a page leave the rows of the other nodes exactly if no new report among them names
one of their sessions. -/
theorem events_leave_iff {events : List Telemetry.Event} (hLinked : db.Linked)
    (h : events.foldlM (ingestEvent format call.serverID call.serverName call.knownOwners call.page
      (millis call.now)) db = .ok after) :
    (SameElsewhere call.page.nodeID db after ↔
        PageCall.MeetsEvents format OwnReport call db events) ∧
      (SameElsewhere call.page.nodeID db after → after.Linked) := by
  induction events generalizing db with
  | nil =>
    cases h
    exact ⟨iff_of_true rfl trivial, fun _ => hLinked⟩
  | cons event events ih =>
    rw [foldlM_cons] at h
    obtain ⟨next, hNext, hRest⟩ := bind_ok h
    rw [PageCall.MeetsEvents, hNext]
    rcases ingestEvent_leaves_or_takes hLinked hNext with ⟨hMeets, hSame, hStill⟩ | ⟨hNot, hTakes⟩
    · obtain ⟨hIff, hLater⟩ := ih hStill hRest
      refine ⟨⟨fun hAll => ⟨hMeets, fun _ hFound => ?_⟩, fun hAll => ?_⟩,
        fun hAll => hLater (hAll.trans hSame.symm)⟩
      · cases hFound
        exact hIff.mp (hAll.trans hSame.symm)
      · exact (hIff.mpr (hAll.2 next rfl)).trans hSame
    · -- The rest of the page does not give the session back.
      have hTaken := (hTakes.later (events_statements hRest)).not_same
      exact ⟨iff_of_false hTaken fun hAll => hNot hAll.1, fun hAll => absurd hAll hTaken⟩

/-- So do the pages. One that fails is rolled back. -/
theorem applyPage_leaves_iff (hLinked : db.Linked) (call : PageCall) :
    (SameElsewhere call.page.nodeID db (call.apply format db) ↔
      ((db.applyPageWithOwners format call.now call.serverID call.serverName call.page
        call.knownOwners).isOk = true → call.Meets format OwnReport db)) ∧
    (SameElsewhere call.page.nodeID db (call.apply format db) →
      (call.apply format db).Linked) := by
  unfold PageCall.apply
  cases hPage : db.applyPageWithOwners format call.now call.serverID call.serverName call.page
      call.knownOwners with
  | error message => exact ⟨iff_of_true rfl nofun, fun _ => hLinked⟩
  | ok after =>
    rw [imp_iff_right (by rfl)]
    rcases applyPage_ok hPage with ⟨hIdle, rfl⟩ | ⟨ingested, syncStates, hEvents, rfl⟩
    · refine ⟨iff_of_true rfl ?_, fun _ => hLinked⟩
      rw [PageCall.Meets, hIdle]
      trivial
    · have hSeen : (db.seeNode call.page.nodeID call.serverID (millis call.now)).Linked := hLinked
      exact @events_leave_iff _ ingested _ _ _ call _ hSeen hEvents

end Pages

section Calls

variable {format : PayloadFormat}

/-- What the call applies names no session of another node. -/
def OwnCall (format : PayloadFormat) (db : Database) : StoreCall → Prop
  | .applyPayload nodeID _ _ _ _ payload => OwnReport nodeID payload db
  | .applyPage now serverID serverName page knownOwners =>
    (db.applyPageWithOwners format now serverID serverName page knownOwners).isOk = true →
      PageCall.Meets format OwnReport db { now, serverID, serverName, page, knownOwners }
  | _ => True

omit [Unicode] [Digest] in
/-- The jobs stay, and the sessions with their nodes. -/
theorem Linked.of_sessions (h : db.Linked) (hNamed : after.namedSessions = db.namedSessions)
    (hSessions : ∀ row ∈ db.history.sessions, ∃ new ∈ after.history.sessions,
      new.sessionID = row.sessionID ∧ new.nodeID = row.nodeID) : after.Linked := by
  intro named hMem
  obtain ⟨row, hRow, hID, hNode⟩ := h named (hNamed ▸ hMem)
  obtain ⟨new, hNew, hSameID, hSameNode⟩ := hSessions row hRow
  exact ⟨new, hNew, hSameID.trans hID, hSameNode.trans hNode⟩

omit [Unicode] [Digest] in
theorem Linked.commit (h : db.Linked) {result : Except String Database}
    (hOk : ∀ after, result = .ok after → after.Linked) : (db.commit result).Linked := by
  cases result with
  | ok after => exact hOk after rfl
  | error message => exact h

omit [Unicode] [Digest] in
/-- The jobs of a session that is dropped go with it. -/
theorem dropProvisioningSession_linked {id : String} (hLinked : db.Linked)
    (h : db.dropProvisioningSession id = .ok after) : after.Linked := by
  have hOwns (nodeID sessionID : String) (hOther : sessionID ≠ id)
      (hOwn : db.Owns nodeID sessionID) : ∃ row ∈ (db.history.dropProvisioningSession id).sessions,
        row.sessionID = sessionID ∧ row.nodeID = nodeID := by
    obtain ⟨row, hRow, rfl, hNode⟩ := hOwn
    exact ⟨row, mem_filter.mpr ⟨hRow, by simp [hOther]⟩, rfl, hNode⟩
  unfold dropProvisioningSession at h
  dsimp only at h
  split at h
  · split at h
    · cases h
    · cases h
      intro named hNamed
      rcases mem_namedSessions.mp hNamed with ⟨job, hJob, rfl⟩ | ⟨link, hLink, rfl⟩
      · obtain ⟨hOld, hStays⟩ := mem_filter.mp hJob
        exact hOwns _ _ (by simpa using hStays) (hLinked.job hOld)
      · obtain ⟨hOld, hStays⟩ := mem_filter.mp hLink
        simp only [Bool.not_or, Bool.and_eq_true, Bool.not_eq_true', beq_eq_false_iff_ne] at hStays
        exact hOwns _ _ hStays.1 (hLinked.link hOld)
  · cases h
    exact hLinked

/-- Every call of the gateway leaves jobs in sessions of their own node. -/
theorem call_linked (db : Database) (call : StoreCall) (hOwn : OwnCall format db call)
    (h : db.Linked) : (db.call format call).Linked := by
  cases call with
  | applyPayload nodeID serverID serverName knownOwners occurredAt payload =>
    exact h.commit fun after hApply => (applyPayload_leaves h hOwn hApply).2
  | applyPage now serverID serverName page knownOwners =>
    obtain ⟨hIff, hLinked⟩ := @applyPage_leaves_iff db _ _ format h
      { now, serverID, serverName, page, knownOwners }
    exact hLinked (hIff.mpr hOwn)
  | markGap now serverID reason =>
    refine h.of_sessions rfl fun row hRow => ⟨_, mem_map_of_mem hRow, ?_⟩
    split
    · exact ⟨rfl, rfl⟩
    · exact ⟨rfl, rfl⟩
  | prepareSession now id nodeID serverID serverName owner purpose startsAt expiresAt gpus =>
    refine h.commit fun after hPrepare => ?_
    obtain ⟨history, hHistory, hRest⟩ := bind_ok hPrepare
    cases hRest
    obtain ⟨new, hSessions⟩ := History.prepareSession_sessions hHistory
    exact h.of_sessions rfl fun row hRow =>
      ⟨row, hSessions ▸ mem_append_left _ hRow, rfl, rfl⟩
  | confirmSession now id groupID reservationIDs gpus =>
    refine h.commit fun after hConfirm => ?_
    obtain ⟨history, summaries, hHistory, rfl⟩ := confirmSession_ok hConfirm
    refine h.of_sessions rfl fun row hRow =>
      ⟨_, History.confirmSession_sessions hHistory ▸ mem_map_of_mem hRow, ?_⟩
    split
    · exact ⟨rfl, rfl⟩
    · exact ⟨rfl, rfl⟩
  | dropProvisioningSession id =>
    exact h.commit fun after hDrop => dropProvisioningSession_linked h hDrop
  | reconcileOpenSessions serverID liveGroupIDs observedAt =>
    refine h.of_sessions rfl fun row hRow => ⟨_, mem_map_of_mem hRow, ?_⟩
    split
    · exact ⟨rfl, rfl⟩
    · exact ⟨rfl, rfl⟩
  | pruneRetention now => exact h

omit [Unicode] [Digest] in
theorem linked_empty : ({} : Database).Linked := fun _ h => absurd h not_mem_nil

/-- Over every run of calls that apply no report under the name of another node's session, a page
leaves the rows of the other nodes exactly if it fails or has no such report either. An event that
is remembered does not count. -/
theorem page_leaves_other_nodes_iff {calls : List StoreCall} (call : PageCall)
    (hRun : Along (Database.call format) (OwnCall format) {} calls) :
    let db := run (Database.call format) {} calls
    SameElsewhere call.page.nodeID db (call.apply format db) ↔
      ((db.applyPageWithOwners format call.now call.serverID call.serverName call.page
        call.knownOwners).isOk = true → call.Meets format OwnReport db) :=
  (applyPage_leaves_iff (hRun.invariant Linked call_linked linked_empty) call).1

/-- Over every such run, every job and every link of a job is in a session of its own node. -/
theorem calls_keep_linked {calls : List StoreCall}
    (hRun : Along (Database.call format) (OwnCall format) {} calls) :
    (run (Database.call format) {} calls).Linked :=
  hRun.invariant Linked call_linked linked_empty

end Calls

end Steps

section Samples

open scoped Plain

/-- The report of a session that the gateway named. -/
def webReport : ReservationUpsert := { cliReport "complete" with externalSessionID := "sess_1" }

def reportEvent : Telemetry.Event :=
  { seq := 1, occurredAt := claimedNoon, bootID := "boot_1", type := "reservation.upsert"
    payload := [] }

def reportPage : Telemetry.Page := { claimPage with events := [reportEvent] }

/-- Another node has reported the session. -/
def elsewhereReported : Database :=
  ({} : Database).commit
    (({} : Database).applyReservation "node_2" "server_2" "beta" webReport claimedNoon [])

/-- A report of the named session, one without a name, and a job of the reserved group. -/
def ownFormat : PayloadFormat :=
  listFormat [.reservationUpsert webReport, .reservationUpsert (cliReport "complete"),
    .job { claimStarted with groupIDs := ["tok_1"] }]

/-- The gateway prepares a session for the first node, and the second reports one of its own. -/
def ownCalls : List StoreCall :=
  [.prepareSession claimedNoon "sess_1" "node_1" "server_1" "alpha" "alice" "" claimedNoon
    (claimedNoon + 3600 * second) [0],
    .applyPage claimedNoon "server_2" "beta"
      { reportPage with nodeID := "node_2", events := [{ reportEvent with payload := [0] }] } []]

/-- The first node reports its session and a job in it. -/
def ownPage : PageCall :=
  { now := claimedNoon, serverID := "server_1", serverName := "alpha"
    page := { reportPage with
      events := [reportEvent, { reportEvent with seq := 2, type := "job.started", payload := [0, 0] }] } }

instance [Unicode] [Digest] (nodeID : String) (payload : EventPayload) (db : Database) :
    Decidable (OwnReport nodeID payload db) :=
  match payload with
  | .reservationUpsert _ => inferInstanceAs (Decidable (_ → _))
  | .reservationEnded _ | .authorizationUpsert _ | .authorizationEnded _ | .job _ | .gpuSample _
  | .gap _ | .other => isTrue trivial

instance [Unicode] [Digest] (format : PayloadFormat) (db : Database) (call : StoreCall) :
    Decidable (OwnCall format db call) := by
  cases call <;> unfold OwnCall <;> infer_instance

/-- The page takes up the session that was prepared and leaves the one of the second node. -/
theorem page_leaves_node_two :
    let db := run (Database.call ownFormat) {} ownCalls
    db.history.sessions.map (fun row => (row.nodeID, row.provisioning)) =
        [("node_1", true), ("node_2", false)] ∧
      (ownPage.apply ownFormat db).history.sessions.map (fun row => (row.nodeID, row.provisioning)) =
        [("node_1", false), ("node_2", false)] ∧
      SameElsewhere "node_1" db (ownPage.apply ownFormat db) :=
  ⟨by decide +kernel, by decide +kernel,
    (@page_leaves_other_nodes_iff ascii plain ownFormat ownCalls ownPage (by decide +kernel)).mpr
      fun _ => by decide +kernel⟩

theorem calls_keep_linked_job :
    let calls := ownCalls ++
      [.applyPage ownPage.now ownPage.serverID ownPage.serverName ownPage.page ownPage.knownOwners]
    let db := run (Database.call ownFormat) {} calls
    db.jobs.rows.map (fun job => (job.nodeID, job.sessionID)) = [("node_1", "sess_1")] ∧
      db.jobSessions.rows = [⟨"node_1", "exec_1", "sess_1"⟩] ∧ db.Linked :=
  ⟨by decide +kernel, by decide +kernel,
    @calls_keep_linked ascii plain ownFormat _ (by decide +kernel)⟩

/-- Under the name of the other node's session its row is taken over. -/
theorem page_takes_session :
    let reported := elsewhereReported.applyPageWithOwners (listFormat [.reservationUpsert webReport])
      claimedNoon "server_1" "alpha" reportPage []
    reported.isOk = true ∧
      ¬ SameElsewhere "node_1" elsewhereReported (elsewhereReported.commit reported) := by
  refine ⟨by decide +kernel, fun hSame => ?_⟩
  have hSessions := hSame.sessions
  revert hSessions
  decide +kernel

end Samples

end Database

end GPUardian
