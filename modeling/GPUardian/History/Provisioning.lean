import GPUardian.History.Admission
import GPUardian.History.Quality

/-! The session that the gateway prepares for a reservation. The node reports the reservation under
the id of the session; the gateway confirms the session when the node has answered, or drops it when
the node has not. Whichever comes first, one session of the reservation is left. -/
namespace GPUardian

open GoStrings List Interleaving Database

open History (ReservationUpsert ReservationMember)

/-- A reservation as the gateway asks for it, with the group that the node gives it. -/
structure SessionRequest where
  id : String
  nodeID : String
  groupID : String
  owner : String
  startsAt : Time
  expiresAt : Time
  gpus : List Int

/-- The report is about the reservation. -/
structure SessionRequest.Reports (request : SessionRequest) (payload : ReservationUpsert) : Prop where
  externalSessionID : payload.externalSessionID = request.id
  groupID : payload.groupID = request.groupID
  holder : payload.holder = request.owner
  startsAt : payload.startsAt = request.startsAt
  expiresAt : payload.expiresAt = request.expiresAt
  gpus : ∀ gpu, gpu ∈ payload.members.map (·.gpu) ↔ gpu ∈ request.gpus

/-- A report as nodes send it. Their reservation ids are not those that the gateway makes up. -/
structure History.ReservationUpsert.WellFormed (payload : ReservationUpsert) : Prop where
  groupID : payload.groupID ≠ ""
  holder : payload.holder ≠ ""
  reservations : (payload.members.map (·.reservationID)).Nodup
  notPending : ∀ member ∈ payload.members, ∀ gpu : Int, member.reservationID ≠ s!"pending-{gpu}"

namespace History

/-- The group has one session that is not provisioning, and it is the requested one. -/
structure Holds (request : SessionRequest) (db : History) : Prop where
  session : ∃ row,
    db.sessions.filter (fun row =>
      row.group == (request.nodeID, request.groupID) && !row.provisioning) = [row] ∧
    row.sessionID = request.id ∧ row.ownerUsername = request.owner ∧
    row.startsAt = millis request.startsAt ∧ row.expiresAt = millis request.expiresAt
  gpus : ∀ gpu, db.HasGPU request.id gpu ↔ gpu ∈ request.gpus

variable {request : SessionRequest} {db after : History}

/-- A row of the group is its only one. -/
theorem Holds.of_row {row : SessionRow} (hRow : row ∈ db.sessions)
    (hGroup : row.group = (request.nodeID, request.groupID)) (hReady : row.provisioning = false)
    (hID : row.sessionID = request.id) (hOwner : row.ownerUsername = request.owner)
    (hStarts : row.startsAt = millis request.startsAt)
    (hExpires : row.expiresAt = millis request.expiresAt)
    (hGPUs : ∀ gpu, db.HasGPU request.id gpu ↔ gpu ∈ request.gpus) : db.Holds request := by
  refine ⟨⟨row, ?_, hID, hOwner, hStarts, hExpires⟩, hGPUs⟩
  have hRows : db.sessions.Nodup := db.sessionIDs.of_map
  have hOnly : ∀ other ∈ db.sessions,
      (other.group == (request.nodeID, request.groupID) && !other.provisioning) = (other == row) := by
    intro other hOther
    rw [Bool.eq_iff_iff, Bool.and_eq_true, beq_iff_eq, beq_iff_eq]
    constructor
    · rintro ⟨hSame, _⟩
      exact inj_on_of_nodup_map db.groups hOther hRow (hSame.trans hGroup.symm)
    · rintro rfl
      exact ⟨hGroup, by simp [hReady]⟩
  rw [filter_congr hOnly, filter_beq, count_eq_one_of_mem hRows hRow]
  rfl

theorem Holds.row (h : db.Holds request) : ∃ row ∈ db.sessions, row.sessionID = request.id ∧
    row.group = (request.nodeID, request.groupID) ∧ row.provisioning = false := by
  obtain ⟨row, hFilter, hID, _⟩ := h.session
  have hMem : row ∈ db.sessions.filter (fun row =>
      row.group == (request.nodeID, request.groupID) && !row.provisioning) := hFilter ▸ mem_cons_self
  obtain ⟨hRow, hSelected⟩ := mem_filter.mp hMem
  rw [Bool.and_eq_true, beq_iff_eq, Bool.not_eq_true'] at hSelected
  exact ⟨row, hRow, hID, hSelected.1, hSelected.2⟩

/-- The requested session is provisioning, and no other session has its group. -/
structure Prepared (request : SessionRequest) (db : History) : Prop where
  session : ∃ row ∈ db.sessions, row.sessionID = request.id ∧ row.nodeID = request.nodeID ∧
    row.provisioning = true ∧ row.ownerUsername = request.owner ∧
    row.startsAt = millis request.startsAt ∧ row.expiresAt = millis request.expiresAt
  free : ∀ row ∈ db.sessions, row.group = (request.nodeID, request.groupID) →
    row.sessionID = request.id
  gpus : ∀ gpu, db.HasGPU request.id gpu ↔ gpu ∈ request.gpus
  pending : ∀ row ∈ db.gpus, row.sessionID = request.id →
    ∃ gpu ∈ request.gpus, row.reservationID = s!"pending-{gpu}"

/-- Nothing is left of the session, and its group has none. -/
structure Absent (request : SessionRequest) (db : History) : Prop where
  session : ∀ row ∈ db.sessions, row.sessionID ≠ request.id
  group : ∀ row ∈ db.sessions, row.group ≠ (request.nodeID, request.groupID)
  gpus : ∀ row ∈ db.gpus, row.sessionID ≠ request.id

theorem prepareGPUs_ok {id : String} {gpus : List Int}
    (h : gpus.foldlM (fun (db : History) gpu =>
      db.writeGPUs (db.gpus ++ [⟨id, gpu, s!"pending-{gpu}"⟩])) db = .ok after) :
    after.sessions = db.sessions ∧
      after.gpus = db.gpus ++ gpus.map fun gpu => ⟨id, gpu, s!"pending-{gpu}"⟩ := by
  induction gpus generalizing db with
  | nil =>
    cases h
    simp
  | cons gpu gpus ih =>
    rw [foldlM_cons] at h
    obtain ⟨next, hNext, hRest⟩ := bind_ok h
    obtain ⟨hSessions, hGPUs⟩ := writeGPUs_ok hNext
    obtain ⟨hLast, hLastGPUs⟩ := ih hRest
    exact ⟨hLast.trans hSessions, by rw [hLastGPUs, hGPUs, append_assoc]; rfl⟩

/-- A preparation that succeeds stores the request. -/
theorem Prepared.of_prepare {now : Time} {serverID serverName purpose : String}
    (hForeign : ∀ row ∈ db.gpus, ∃ session ∈ db.sessions, session.sessionID = row.sessionID)
    (hFree : ∀ row ∈ db.sessions, row.group ≠ (request.nodeID, request.groupID))
    (h : db.prepareSession now request.id request.nodeID serverID serverName request.owner purpose
      request.startsAt request.expiresAt request.gpus = .ok after) : after.Prepared request := by
  obtain ⟨written, hWrite, hFold⟩ := bind_ok h
  obtain ⟨hSessions, hGPUs⟩ := prepareGPUs_ok hFold
  obtain ⟨hWritten, hWrittenGPUs⟩ := writeSessions_ok hWrite
  rw [hWritten] at hSessions
  rw [hWrittenGPUs] at hGPUs
  -- the id was free, so no GPU was listed under it
  have hNew : ∀ row ∈ db.gpus, row.sessionID ≠ request.id := by
    intro row hRow hID
    obtain ⟨session, hSession, hSame⟩ := hForeign row hRow
    have hNodup := after.sessionIDs
    rw [hSessions, map_append, nodup_append] at hNodup
    exact hNodup.2.2 _ (mem_map_of_mem hSession) _ mem_cons_self (hSame.trans hID)
  constructor
  · exact ⟨_, hSessions ▸ mem_append_right _ mem_cons_self, rfl, rfl, rfl, rfl, rfl, rfl⟩
  · intro row hRow hGroup
    rw [hSessions] at hRow
    rcases mem_append.mp hRow with hOld | hOwn
    · exact absurd hGroup (hFree row hOld)
    · rw [mem_singleton.mp hOwn]
  · intro gpu
    rw [HasGPU, hGPUs]
    constructor
    · rintro ⟨row, hRow, hID, rfl⟩
      rcases mem_append.mp hRow with hOld | hOwn
      · exact absurd hID (hNew row hOld)
      · obtain ⟨gpu, hGPU, rfl⟩ := mem_map.mp hOwn
        exact hGPU
    · intro hGPU
      exact ⟨_, mem_append_right _ (mem_map_of_mem hGPU), rfl, rfl⟩
  · intro row hRow hID
    rw [hGPUs] at hRow
    rcases mem_append.mp hRow with hOld | hOwn
    · exact absurd hID (hNew row hOld)
    · obtain ⟨gpu, hGPU, rfl⟩ := mem_map.mp hOwn
      exact ⟨gpu, hGPU, rfl⟩

theorem confirmGPUs_hasGPU {id : String} {gpus : List Int} {reservationIDs : List String}
    (h : confirmGPUs id gpus reservationIDs db = .ok after) (gpu : Int) :
    after.HasGPU id gpu ↔ db.HasGPU id gpu := by
  induction gpus generalizing reservationIDs db with
  | nil =>
    cases h
    rfl
  | cons first gpus ih =>
    obtain ⟨written, hWrite, h⟩ := bind_ok h
    rw [ih h]
    unfold HasGPU
    rw [(writeGPUs_ok hWrite).2]
    simp only [mem_map, exists_exists_and_eq_and]
    refine exists_congr fun row => and_congr_right fun _ => ?_
    split
    · rfl
    · rfl

/-- A confirmation leaves the session. -/
theorem Prepared.confirm {now : Time} {reservationIDs : List String} {gpus : List Int}
    (hPrepared : db.Prepared request)
    (h : db.confirmSession now request.id request.groupID reservationIDs gpus = .ok after) :
    after.Holds request := by
  unfold confirmSession at h
  split at h
  · obtain ⟨written, hWrite, hGPUs⟩ := bind_ok h
    obtain ⟨hSessions, hSame⟩ := writeSessions_ok hWrite
    obtain ⟨row, hRow, hID, hNode, hProvisioning, hOwner, hStarts, hExpires⟩ := hPrepared.session
    have hConfirmed : ({ row with groupID := request.groupID, provisioning := false
                                  updatedAt := millis now } : SessionRow) ∈ after.sessions := by
      rw [confirmGPUs_sessions hGPUs, hSessions]
      exact mem_map.mpr ⟨row, hRow, if_pos ⟨hID, hProvisioning⟩⟩
    refine .of_row hConfirmed ?_ rfl hID hOwner hStarts hExpires ?_
    · rw [SessionRow.group, hNode]
    · intro gpu
      rw [confirmGPUs_hasGPU hGPUs, ← hPrepared.gpus, HasGPU, hSame, HasGPU]
  · cases h

theorem Prepared.drop (hPrepared : db.Prepared request) :
    (db.dropProvisioningSession request.id).Absent request := by
  obtain ⟨own, hOwn, hOwnID, _, hProvisioning, _⟩ := hPrepared.session
  have hGone : ∀ row ∈ (db.dropProvisioningSession request.id).sessions,
      row ∈ db.sessions ∧ row.sessionID ≠ request.id := by
    intro row hRow
    obtain ⟨hMem, hKept⟩ := mem_filter.mp hRow
    refine ⟨hMem, fun hID => ?_⟩
    obtain rfl := inj_on_of_nodup_map db.sessionIDs hMem hOwn (hID.trans hOwnID.symm)
    simp [hID, hProvisioning] at hKept
  constructor
  · exact fun row hRow => (hGone row hRow).2
  · intro row hRow hGroup
    obtain ⟨hMem, hNe⟩ := hGone row hRow
    exact hNe (hPrepared.free row hMem hGroup)
  · intro row hRow hID
    obtain ⟨_, hKept⟩ := mem_filter.mp hRow
    refine absurd hKept ?_
    simp only [Bool.not_eq_true', Bool.not_eq_false, any_eq_true, mem_filter]
    exact ⟨own, ⟨hOwn, by simp [hOwnID, hProvisioning]⟩, by simp [hOwnID, hID]⟩

section Reports

variable [Unicode] [Digest] {nodeID serverID serverName : String} {payload : ReservationUpsert}
  {occurredAt : Time} {knownOwners : List String}

/-- A report of the reservation leaves its session, if the group and the session had nothing that is
not of the reservation. -/
theorem Holds.of_report (hReports : request.Reports payload)
    (hID : reservationSessionID request.nodeID payload = request.id)
    (hFree : db.GroupFree request.nodeID payload)
    (hOwn : ∀ gpu, db.HasGPU request.id gpu → gpu ∈ request.gpus)
    (h : db.applyReservation request.nodeID serverID serverName payload occurredAt knownOwners =
      .ok after) : after.Holds request := by
  obtain ⟨id, written, hUpserted, hRows, hGPUs⟩ := applyReservation_ok h
  obtain rfl : id = request.id := (hUpserted.target hFree).trans hID
  obtain ⟨row, hRow, hRowID, hGroup, hReady, hOwner, hStarts, hExpires⟩ := hUpserted.row
  refine .of_row hRow (hReports.groupID ▸ hGroup) hReady hRowID
    (hReports.holder ▸ hOwner) (hReports.startsAt ▸ hStarts) (hReports.expiresAt ▸ hExpires) ?_
  intro gpu
  have hBefore : written.HasGPU request.id gpu ↔ db.HasGPU request.id gpu := by
    rw [HasGPU, hRows, HasGPU]
  rw [upsertGPUs_hasGPU hGPUs, hBefore, hReports.gpus]
  exact or_iff_right_of_imp (hOwn gpu)

end Reports

end History

section Orders

variable [Unicode] [Digest] {request : SessionRequest} {db : Database}
  {nodeID serverID serverName : String} {payload : ReservationUpsert} {occurredAt : Time}
  {knownOwners : List String}

omit [Unicode] [Digest] in
theorem Database.addSummary_admits {id : String} {gpu : Int} (hGPU : db.history.HasGPU id gpu) :
    ∃ after, db.addSummary id gpu = .ok after ∧ after.history = db.history := by
  obtain ⟨row, hRow, hID, hSame⟩ := hGPU
  unfold addSummary
  rw [if_pos (any_eq_true.mpr ⟨row, hRow, by simp [hID, hSame]⟩)]
  exact ⟨_, rfl, rfl⟩

omit [Unicode] [Digest] in
theorem Database.addSummaries_admits {id : String} {members : List ReservationMember}
    (hGPUs : ∀ member ∈ members, db.history.HasGPU id member.gpu) :
    ∃ after, members.foldlM (fun (db : Database) member => db.addSummary id member.gpu) db =
      .ok after ∧ after.history = db.history := by
  induction members generalizing db with
  | nil => exact ⟨db, rfl, rfl⟩
  | cons member members ih =>
    obtain ⟨next, hNext, hSame⟩ := addSummary_admits (hGPUs member mem_cons_self)
    obtain ⟨after, hAfter, hLast⟩ := @ih next fun other hOther =>
      hSame ▸ hGPUs other (mem_cons_of_mem _ hOther)
    exact ⟨after, by rw [foldlM_cons, hNext]; exact hAfter, hLast.trans hSame⟩

/-- The summaries of a report cannot fail once its GPUs are written. -/
theorem Database.applyReservation_of_history {history : History}
    (h : db.history.applyReservation nodeID serverID serverName payload occurredAt knownOwners =
      .ok history) :
    ∃ after, db.applyReservation nodeID serverID serverName payload occurredAt knownOwners =
      .ok after ∧ after.history = history := by
  obtain ⟨id, written, hUpserted, _, hGPUs⟩ := History.applyReservation_ok h
  have hMembers : ∀ member ∈ payload.members,
      ({ db with history } : Database).history.HasGPU (db.upsertTarget nodeID payload).1
        member.gpu := by
    intro member hMember
    rw [← (upserted_owns hUpserted).1]
    exact (History.upsertGPUs_hasGPU hGPUs _).mpr (.inr (mem_map_of_mem hMember))
  obtain ⟨summed, hSummed, hSame⟩ := addSummaries_admits hMembers
  unfold applyReservation
  rw [h]
  dsimp only [bind, Except.bind]
  rw [hSummed]
  dsimp only
  split
  · exact ⟨_, rfl, hSame⟩
  · exact ⟨_, rfl, hSame⟩

theorem Database.commit_applyReservation_history :
    (db.commit (db.applyReservation nodeID serverID serverName payload occurredAt
        knownOwners)).history =
      match db.history.applyReservation nodeID serverID serverName payload occurredAt knownOwners with
      | .ok history => history
      | .error _ => db.history := by
  cases hHistory : db.history.applyReservation nodeID serverID serverName payload occurredAt
      knownOwners with
  | error message =>
    unfold applyReservation
    rw [hHistory]
    rfl
  | ok history =>
    obtain ⟨after, hAfter, hSame⟩ := applyReservation_of_history hHistory
    rw [hAfter]
    exact hSame

/-- The form of the ids that the gateway gives to sessions. -/
structure SessionRequest.Formed (request : SessionRequest) : Prop where
  form : hasPrefix request.id "sess_" = true
  length : byteLen request.id ≤ 128
  trimmed : trimSpace request.id = request.id

omit [Unicode] in
theorem SessionRequest.Formed.reportedID (hFormed : request.Formed) (hReports : request.Reports payload) :
    History.reservationSessionID nodeID payload = request.id := by
  unfold History.reservationSessionID
  rw [hReports.externalSessionID, hFormed.trimmed]
  dsimp only
  rw [if_neg (by simp [hFormed.form, not_lt.mpr hFormed.length])]

/-- The report leaves the session, whether it was prepared, dropped or confirmed before. -/
theorem Database.holds_of_report (hFormed : request.Formed) (hReports : request.Reports payload)
    (hPayload : payload.WellFormed)
    (hWindow : millis request.startsAt < millis request.expiresAt)
    (hBefore : db.history.Prepared request ∨ db.history.Absent request ∨ db.history.Holds request) :
    (db.commit (db.applyReservation request.nodeID serverID serverName payload occurredAt
      knownOwners)).history.Holds request := by
  have hID : History.reservationSessionID request.nodeID payload = request.id :=
    hFormed.reportedID hReports
  have hNamed : db.history.MadeUpIDFree request.nodeID payload := by
    intro hEmpty
    have hForm := hFormed.form
    rw [← hReports.externalSessionID, hEmpty] at hForm
    cases hForm
  have hFree : db.history.GroupFree request.nodeID payload := by
    intro row hRow hGroup
    rw [hReports.groupID] at hGroup
    rw [hID]
    rcases hBefore with hPrepared | hAbsent | hHolds
    · exact hPrepared.free row hRow hGroup
    · exact absurd hGroup (hAbsent.group row hRow)
    · obtain ⟨own, hOwn, hOwnID, hOwnGroup, _⟩ := hHolds.row
      rw [inj_on_of_nodup_map db.history.groups hRow hOwn (hGroup.trans hOwnGroup.symm), hOwnID]
  have hOwn : ∀ gpu, db.history.HasGPU request.id gpu → gpu ∈ request.gpus := by
    intro gpu hGPU
    rcases hBefore with hPrepared | hAbsent | hHolds
    · exact (hPrepared.gpus gpu).mp hGPU
    · obtain ⟨row, hRow, hRowID, _⟩ := hGPU
      exact absurd hRowID (hAbsent.gpus row hRow)
    · exact (hHolds.gpus gpu).mp hGPU
  rw [commit_applyReservation_history]
  cases hHistory : db.history.applyReservation request.nodeID serverID serverName payload occurredAt
      knownOwners with
  | ok history => exact .of_report hReports hID hFree hOwn hHistory
  | error message =>
    have hAdmits : db.history.Agrees request.id payload.members → False := by
      intro hAgrees
      obtain ⟨after, hAfter⟩ := @History.applyReservation_admits _ _ request.nodeID serverID
        serverName payload occurredAt knownOwners db.history hPayload.groupID hPayload.holder
        (by rw [hReports.startsAt, hReports.expiresAt]; exact hWindow) hFree hNamed
        hPayload.reservations (hID ▸ hAgrees)
      rw [hHistory] at hAfter
      cases hAfter
    -- only reservations that a confirmation has given to other GPUs stand in the way
    rcases hBefore with hPrepared | hAbsent | hHolds
    · refine (hAdmits fun row hRow hRowID member hMember hSame => ?_).elim
      obtain ⟨gpu, _, hPending⟩ := hPrepared.pending row hRow hRowID
      exact absurd (hSame.symm.trans hPending) (hPayload.notPending member hMember gpu)
    · exact (hAdmits fun row hRow hRowID => absurd hRowID (hAbsent.gpus row hRow)).elim
    · exact hHolds

/-- The calls by which the gateway ends the preparation. -/
inductive SessionRequest.Settles (request : SessionRequest) : StoreCall → Prop where
  | confirm (now : Time) (reservationIDs : List String) (gpus : List Int) :
      request.Settles (.confirmSession now request.id request.groupID reservationIDs gpus)
  | drop : request.Settles (.dropProvisioningSession request.id)

theorem Database.settle_prepared (format : PayloadFormat) {settle : StoreCall}
    (hSettle : request.Settles settle) (hPrepared : db.history.Prepared request) :
    (db.call format settle).history.Prepared request ∨
      (db.call format settle).history.Absent request ∨
      (db.call format settle).history.Holds request := by
  cases hSettle with
  | confirm now reservationIDs gpus =>
    simp only [call]
    cases hConfirm : db.confirmSession now request.id request.groupID reservationIDs gpus with
    | error message => exact .inl hPrepared
    | ok after =>
      obtain ⟨_, _, hHistory, rfl⟩ := confirmSession_ok hConfirm
      exact .inr (.inr (hPrepared.confirm hHistory))
  | drop =>
    simp only [call]
    obtain ⟨row, hRow, hID, _, hProvisioning, _⟩ := hPrepared.session
    have hDrops : (db.history.sessions.any fun row =>
        row.sessionID == request.id && row.provisioning) = true :=
      any_eq_true.mpr ⟨row, hRow, by simp [hID, hProvisioning]⟩
    unfold dropProvisioningSession
    dsimp only
    rw [if_pos hDrops]
    split
    · exact .inl hPrepared
    · exact .inr (.inl hPrepared.drop)

/-- A session that is not provisioning is neither confirmed again nor dropped. -/
theorem Database.settle_holds (format : PayloadFormat) {settle : StoreCall}
    (hSettle : request.Settles settle) (hHolds : db.history.Holds request) :
    db.call format settle = db := by
  obtain ⟨own, hOwn, hOwnID, _, hReady⟩ := hHolds.row
  have hNone : ¬(db.history.sessions.any fun row =>
      row.sessionID == request.id && row.provisioning) = true := by
    rintro hAny
    obtain ⟨row, hRow, hSelected⟩ := any_eq_true.mp hAny
    rw [Bool.and_eq_true, beq_iff_eq] at hSelected
    obtain rfl := inj_on_of_nodup_map db.history.sessionIDs hRow hOwn
      (hSelected.1.trans hOwnID.symm)
    rw [hReady] at hSelected
    cases hSelected.2
  cases hSettle with
  | confirm now reservationIDs gpus =>
    have hConfirm : db.confirmSession now request.id request.groupID reservationIDs gpus =
        .error History.errNotFound := by
      unfold confirmSession History.confirmSession
      rw [if_neg hNone]
      rfl
    simp only [call, hConfirm, commit]
  | drop =>
    have hDrop : db.dropProvisioningSession request.id = .ok db := if_neg hNone
    simp only [call, hDrop, commit]

/-- Whether the gateway confirms the prepared session or drops it, and whether it does so before or
after the node's report is applied, the session of the reservation is left. -/
theorem prepared_session_stands (format : PayloadFormat) {prepared : Database} {now : Time}
    {preparedServerID preparedServerName purpose : String}
    (hForeign : ∀ row ∈ db.history.gpus, ∃ session ∈ db.history.sessions,
      session.sessionID = row.sessionID)
    (hNewGroup : ∀ row ∈ db.history.sessions, row.group ≠ (request.nodeID, request.groupID))
    (hPrepare : db.prepareSession now request.id request.nodeID preparedServerID preparedServerName
      request.owner purpose request.startsAt request.expiresAt request.gpus = .ok prepared)
    (hFormed : request.Formed) (hReports : request.Reports payload) (hPayload : payload.WellFormed)
    {settle : StoreCall} (hSettle : request.Settles settle) {calls : List StoreCall}
    (hOrder :
      let report := StoreCall.applyPayload request.nodeID serverID serverName knownOwners occurredAt
        (.reservationUpsert payload)
      calls = [settle, report] ∨ calls = [report, settle]) :
    (run (call format) prepared calls).history.Holds request := by
  obtain ⟨history, hHistory, hResult⟩ := bind_ok hPrepare
  have hPrepared : prepared.history.Prepared request := by
    cases hResult
    exact .of_prepare hForeign hNewGroup hHistory
  have hWindow : millis request.startsAt < millis request.expiresAt := by
    obtain ⟨row, hRow, _, _, _, _, hStarts, hExpires⟩ := hPrepared.session
    rw [← hStarts, ← hExpires]
    exact prepared.history.windows row hRow
  rcases hOrder with rfl | rfl
  · have hSettled := settle_prepared format hSettle hPrepared
    exact holds_of_report hFormed hReports hPayload hWindow hSettled
  · have hReported : (prepared.call format (.applyPayload request.nodeID serverID serverName
        knownOwners occurredAt (.reservationUpsert payload))).history.Holds request :=
      holds_of_report hFormed hReports hPayload hWindow (.inl hPrepared)
    rw [Interleaving.run_cons, Interleaving.run_cons, Interleaving.run_nil,
      settle_holds format hSettle hReported]
    exact hReported

end Orders

/-- Alice asks for two GPUs. -/
def aliceRequest : SessionRequest :=
  { id := "sess_1", nodeID := "node_1", groupID := "grp_1", owner := "alice"
    startsAt := claimedNoon, expiresAt := claimedNoon + 3600 * second, gpus := [0, 1] }

def aliceReport : ReservationUpsert :=
  { groupID := "grp_1", externalSessionID := "sess_1", holder := "alice", createdAt := claimedNoon
    startsAt := claimedNoon, expiresAt := claimedNoon + 3600 * second
    historyQuality := "complete", members := [⟨"res_1", 1⟩, ⟨"res_2", 0⟩] }

theorem aliceReport_wellFormed : aliceReport.WellFormed where
  groupID := by decide
  holder := by decide
  reservations := by decide
  notPending := by
    intro member hMember gpu hSame
    have hChars := congrArg (fun text : String => text.toList.head?) hSame
    simp only [aliceReport, mem_cons, not_mem_nil, or_false] at hMember
    rcases hMember with rfl | rfl
    all_goals simp [toString, String.toList_append] at hChars

open scoped Plain

/-- The answer of the node is lost, and its report arrives after the session was dropped. -/
theorem prepared_session_stands_dropped :
    let prepare := ({} : Database).prepareSession claimedNoon "sess_1" "node_1" "server_1" "alpha"
      "alice" "" claimedNoon (claimedNoon + 3600 * second) [0, 1]
    prepare.isOk = true ∧
      (run (call (listFormat [])) (({} : Database).commit prepare)
        [.dropProvisioningSession "sess_1",
          .applyPayload "node_1" "server_1" "alpha" [] claimedNoon
            (.reservationUpsert aliceReport)]).history.Holds aliceRequest := by
  have hOk : (({} : Database).prepareSession claimedNoon "sess_1" "node_1" "server_1" "alpha"
      "alice" "" claimedNoon (claimedNoon + 3600 * second) [0, 1]).isOk = true := by decide +kernel
  refine ⟨hOk, @prepared_session_stands ascii plain aliceRequest {} "server_1" "alpha" aliceReport
    claimedNoon [] (listFormat []) _ claimedNoon "server_1" "alpha" "" (by simp [History.empty])
    (by simp [History.empty]) (commit_of_isOk hOk) ⟨by decide, by decide, by decide⟩
    ⟨rfl, rfl, rfl, rfl, rfl, ?_⟩ aliceReport_wellFormed _ .drop _ (.inl rfl)⟩
  intro gpu
  simp [aliceReport, aliceRequest, or_comm]

end GPUardian
