import GPUardian.History.Jobs
import GPUardian.History.ClaimedRuns

/-! When jobs finish that ran in a reservation. A job event is clamped to the end of its session; the
end of a reservation finishes the jobs that are left at the time it reports. -/
namespace GPUardian

open GoStrings Tables List Option Interleaving

theorem millis_timeFromMillis (value : Int) : millis (timeFromMillis value) = value := by
  unfold millis timeFromMillis
  omega

theorem millis_le_of_le {value : Time} {bound : Int} (h : value ≤ timeFromMillis bound) :
    millis value ≤ bound := by
  rw [← millis_timeFromMillis bound]
  exact Int.ediv_le_ediv (by decide) (Int.sub_le_sub_right h _)

/-- The time is within the session as far as the row knows its end. -/
def SessionRow.InTime (row : SessionRow) (finish : Int) : Prop :=
  finish ≤ row.expiresAt ∧ ∀ revoked ∈ row.revokedAt, finish ≤ revoked

instance (row : SessionRow) (finish : Int) : Decidable (row.InTime finish) :=
  inferInstanceAs (Decidable (_ ∧ _))

theorem SessionRow.effectiveEnd_le (row : SessionRow) :
    row.effectiveEnd ≤ timeFromMillis row.expiresAt ∧
      ∀ revoked ∈ row.revokedAt, row.effectiveEnd ≤ timeFromMillis revoked := by
  unfold SessionRow.effectiveEnd
  cases row.revokedAt with
  | none => exact ⟨le_rfl, fun _ hNone => by cases hNone⟩
  | some revoked =>
    refine ⟨min_le_right _ _, fun other hOther => ?_⟩
    cases hOther
    exact min_le_left _ _

/-- A clamped time is. -/
theorem clamped_inTime {row : SessionRow} {value : Option Time} {finish : Int}
    (h : finish ∈ nullableMillis (clampTime value row.effectiveEnd)) : row.InTime finish := by
  obtain ⟨time, hTime, hFinish⟩ := bind_eq_some_iff.mp h
  obtain ⟨reported, _, rfl⟩ := map_eq_some_iff.mp hTime
  split at hFinish
  · cases hFinish
  · cases hFinish
    have hEnd : min reported row.effectiveEnd ≤ row.effectiveEnd := min_le_right _ _
    obtain ⟨hExpires, hRevoked⟩ := row.effectiveEnd_le
    exact ⟨millis_le_of_le (hEnd.trans hExpires), fun revoked h =>
      millis_le_of_le (hEnd.trans (hRevoked revoked h))⟩

namespace Database

variable {nodeID : String} {db after : Database} {windows : String × String → Time × Time}

/-- Jobs that finished in a reservation did so before its end. -/
structure FinishesInTime (windows : String × String → Time × Time) (db : Database) : Prop where
  placed : ∀ job ∈ db.jobs.rows, ∃ row ∈ db.history.sessions, row.sessionID = job.sessionID
  windows : ∀ row ∈ db.history.sessions, row.kind = .reservation →
    row.expiresAt = millis (windows row.group).2
  finishes : ∀ job ∈ db.jobs.rows, ∀ row ∈ db.history.sessions, row.sessionID = job.sessionID →
    row.kind = .reservation → ∀ finish ∈ job.finishedAt, row.InTime finish

/-- The reports of a group have its window. -/
def ReportsWindow (windows : String × String → Time × Time) (nodeID : String) : EventPayload → Prop
  | .reservationUpsert payload =>
    (payload.startsAt, payload.expiresAt) = windows (nodeID, payload.groupID)
  | _ => True

instance (windows : String × String → Time × Time) (nodeID : String) :
    (payload : EventPayload) → Decidable (ReportsWindow windows nodeID payload)
  | .reservationUpsert _ => inferInstanceAs (Decidable (_ = _))
  | .reservationEnded _ | .authorizationUpsert _ | .authorizationEnded _ | .job _ | .gpuSample _
  | .gap _ | .other => isTrue trivial

/-- A report is about a session of its group. A reservation that ends with a job unfinished does so in
time. A job that finished without being part of a reservation is not reported in it after its end. The
runs without a reservation have groups of their own. -/
def EndsInTime [Unicode] [Digest] (nodeID : String) (payload : EventPayload) (db : Database) : Prop :=
  match payload with
  | .reservationUpsert payload => ∀ row ∈ db.history.sessions, row.kind = .reservation →
      row.sessionID = (db.upsertTarget nodeID payload).1 → row.group = (nodeID, payload.groupID)
  | .reservationEnded payload => ∀ session ∈ db.sessionByGroup nodeID payload.groupID,
      session.kind = .reservation →
        (∃ job ∈ db.jobs.rows, job.sessionID = session.sessionID ∧ job.finishedAt = none) →
          millis payload.endedAt ≤ session.expiresAt ∧
            (payload.reason ≠ "revoked" → ∀ revoked ∈ session.revokedAt,
              millis payload.endedAt ≤ revoked)
  | .job payload =>
    (telemetryGroups payload.groupID payload.groupIDs = [] →
      ∀ row ∈ db.sessionByGroup nodeID (claimedSessionGroup payload), row.kind = .claimedRun) ∧
    ∀ session ∈ (db.groupSessions nodeID
        (telemetryGroups payload.groupID payload.groupIDs)).head?,
      session.kind = .reservation →
        nullableMillis (clampTime payload.finishedAt session.effectiveEnd) = none →
          ∀ job ∈ db.jobs.rows, job.key = (nodeID, payload.executionID) →
            job.sessionID ≠ session.sessionID → ∀ finish ∈ job.finishedAt, session.InTime finish
  | _ => True

instance [Unicode] [Digest] (nodeID : String) (payload : EventPayload) (db : Database) :
    Decidable (db.EndsInTime nodeID payload) :=
  match payload with
  | .reservationUpsert _ => inferInstanceAs (Decidable (∀ row ∈ db.history.sessions, _))
  | .reservationEnded payload =>
    inferInstanceAs (Decidable (∀ session ∈ db.sessionByGroup nodeID payload.groupID, _))
  | .job _ => inferInstanceAs (Decidable (_ ∧ _))
  | .authorizationUpsert _ | .authorizationEnded _ | .gpuSample _ | .gap _ | .other => isTrue trivial

/-- What a job event for a reservation reports is clamped to its end. -/
theorem jobRow_finishedAt {payload : History.JobEvent} {occurredAt : Time} {session : SessionRow}
    (hKind : session.kind = .reservation) :
    (jobRow nodeID payload session occurredAt).finishedAt =
      nullableMillis (clampTime payload.finishedAt session.effectiveEnd) := by
  simp only [jobRow, hKind, reduceCtorEq, if_false]

namespace FinishesInTime

/-- Jobs finish in time as before if the reservations that have jobs end as before. -/
theorem transfer (h : db.FinishesInTime windows) (hJobs : after.jobs = db.jobs)
    (hKept : ∀ old ∈ db.history.sessions, ∃ row ∈ after.history.sessions,
      row.sessionID = old.sessionID)
    (hRows : ∀ row ∈ after.history.sessions, row.kind = .reservation →
      (∃ old ∈ db.history.sessions, old.kind = .reservation ∧ old.sessionID = row.sessionID ∧
        old.group = row.group ∧ old.expiresAt = row.expiresAt ∧ old.revokedAt = row.revokedAt) ∨
      row.expiresAt = millis (windows row.group).2 ∧
        ∀ old ∈ db.history.sessions, old.sessionID ≠ row.sessionID) :
    after.FinishesInTime windows where
  placed := by
    intro job hJob
    obtain ⟨old, hOld, hID⟩ := h.placed job (hJobs ▸ hJob)
    obtain ⟨row, hRow, hSame⟩ := hKept old hOld
    exact ⟨row, hRow, hSame.trans hID⟩
  windows := by
    intro row hRow hKind
    rcases hRows row hRow hKind with ⟨old, hOld, hKind, _, hGroup, hExpires, _⟩ | hNew
    · rw [← hExpires, ← hGroup]
      exact h.windows old hOld hKind
    · exact hNew.1
  finishes := by
    intro job hJob row hRow hSession hKind finish hFinish
    rw [hJobs] at hJob
    rcases hRows row hRow hKind with ⟨old, hOld, hKind, hID, _, hExpires, hRevoked⟩ | ⟨_, hNew⟩
    · have hInTime := h.finishes job hJob old hOld (hID.trans hSession) hKind finish hFinish
      rwa [SessionRow.InTime, ← hExpires, ← hRevoked]
    · obtain ⟨old, hOld, hID⟩ := h.placed job hJob
      exact absurd (hID.trans hSession.symm) (hNew old hOld)

theorem same (h : db.FinishesInTime windows) (hSame : SameJobs db after) :
    after.FinishesInTime windows := by
  refine h.transfer hSame.jobs (fun old hOld => ?_) fun row hRow hKind => .inl ?_
  · have hCore : old.core ∈ after.history.sessions.map (·.core) :=
      hSame.sessions ▸ List.mem_map_of_mem hOld
    obtain ⟨row, hRow, hCore⟩ := List.mem_map.mp hCore
    exact ⟨row, hRow, congrArg (·.sessionID) hCore⟩
  · obtain ⟨old, hOld, hCore⟩ := hSame.row hRow
    have hOldKind : old.kind = .reservation :=
      (congrArg (·.kind) hCore : old.kind = row.kind).trans hKind
    have hExpires : old.core.expiresAt = row.core.expiresAt := congrArg (·.expiresAt) hCore
    simp only [SessionRow.core, hOldKind, hKind, reduceCtorEq, if_false] at hExpires
    have hGroup : old.core.group = row.core.group := congrArg _ hCore
    exact ⟨old, hOld, hOldKind, congrArg (·.sessionID) hCore, hGroup, hExpires,
      congrArg (·.revokedAt) hCore⟩

theorem upserted [Unicode] [Digest] {serverID serverName : String}
    {payload : History.ReservationUpsert} {occurredAt : Time} {id : String}
    (hWindow : ReportsWindow windows nodeID (.reservationUpsert payload))
    (hEnds : db.EndsInTime nodeID (.reservationUpsert payload)) (h : db.FinishesInTime windows)
    (hJobs : after.jobs = db.jobs)
    (hUpserted : History.UpsertedSessions nodeID serverID serverName payload occurredAt db.history
      after.history.sessions id) : after.FinishesInTime windows := by
  refine h.transfer hJobs (fun old hOld => hUpserted.kept hOld) fun row hRow hKind => ?_
  rcases hUpserted.mem hRow with hOld | hReported
  · exact .inl ⟨row, hOld, hKind, rfl, rfl, rfl, rfl⟩
  have hExpires : row.expiresAt = millis (windows row.group).2 := by
    rw [hReported.expiresAt, hReported.group, ← hWindow]
  rcases hReported.origin with ⟨_, hNew⟩ | ⟨old, hOld, hID, hSame, hRevoked⟩
  · refine .inr ⟨hExpires, fun old hOld hTaken => ?_⟩
    obtain ⟨hStays, hOther⟩ := hNew old hOld
    exact hOther (inj_on_of_nodup_map after.history.sessionIDs hStays hRow hTaken)
  · have hOldKind := hSame.symm.trans hKind
    have hGroup : old.group = row.group :=
      (hEnds old hOld hOldKind (hID.trans (upserted_owns hUpserted).1)).trans hReported.group.symm
    refine .inl ⟨old, hOld, hOldKind, hID.trans hReported.sessionID.symm, hGroup, ?_, hRevoked.symm⟩
    rw [h.windows old hOld hOldKind, hGroup, hExpires]

theorem claimed {groupID : String} {session : SessionRow} {claimed : Database}
    (h : db.FinishesInTime windows) (hClaimed : Claimed nodeID groupID session db claimed)
    (hKind : session.kind = .claimedRun) : claimed.FinishesInTime windows := by
  refine h.transfer hClaimed.jobs (fun old hOld => ?_) fun row hRow hReservation => .inl ?_
  · rcases hClaimed.kept old hOld with hStays | ⟨_, hSame⟩
    · exact ⟨old, hStays, rfl⟩
    · exact ⟨session, (sessionByGroup_mem hClaimed.found).1, hSame⟩
  · rcases hClaimed.others row hRow with rfl | hOld
    · cases hKind.symm.trans hReservation
    · exact ⟨row, hOld, hReservation, rfl, rfl, rfl, rfl⟩

/-- The jobs that the end of a reservation closes finish in time. -/
theorem ended [Unicode] [Digest] {payload : History.ReservationEnded} (occurredAt : Time)
    (hEnds : db.EndsInTime nodeID (.reservationEnded payload)) (h : db.FinishesInTime windows) :
    (db.applyReservationEnded nodeID payload occurredAt).FinishesInTime windows where
  placed := by
    intro _ hEnded
    obtain ⟨job, hJob, rfl⟩ := List.mem_map.mp (applyReservationEnded_jobs payload occurredAt ▸ hEnded)
    obtain ⟨old, hOld, hID⟩ := h.placed job hJob
    refine ⟨_, List.mem_map_of_mem hOld, ?_⟩
    rw [(endedJob_frame payload job).2.2, ← hID]
    split
    · rfl
    · rfl
  windows := by
    intro row hRow hKind
    obtain ⟨old, hOld, rfl⟩ := List.mem_map.mp (hRow : row ∈ db.history.sessions.map _)
    have hWindow := h.windows old hOld
    split at hKind
    · rename_i hGroup
      rw [if_pos hGroup]
      exact hWindow hKind
    · rename_i hGroup
      rw [if_neg hGroup]
      exact hWindow hKind
  finishes := by
    intro _ hEnded row hRow hSession hKind finish hFinish
    obtain ⟨job, hJob, rfl⟩ := List.mem_map.mp (applyReservationEnded_jobs payload occurredAt ▸ hEnded)
    obtain ⟨old, hOld, rfl⟩ := List.mem_map.mp (hRow : row ∈ db.history.sessions.map _)
    rw [(endedJob_frame payload job).2.2] at hSession
    by_cases hGroup : old.group = (nodeID, payload.groupID)
    · rw [if_pos hGroup] at hSession hKind ⊢
      have hFound := sessionByGroup_of_mem hOld hGroup
      have hOwn : some job.sessionID =
          (db.sessionByGroup nodeID payload.groupID).map (·.sessionID) := by
        rw [hFound]
        exact congrArg some hSession.symm
      rw [endedJob, if_pos hOwn] at hFinish
      cases hFinish
      cases hOldFinish : job.finishedAt with
      | none =>
        obtain ⟨hExpires, hRevoked⟩ := hEnds old hFound hKind ⟨job, hJob, hSession.symm, hOldFinish⟩
        refine ⟨hExpires, fun revoked hAt => ?_⟩
        change revoked ∈ ite _ _ _ at hAt
        split at hAt
        · cases hAt
          exact le_rfl
        · rename_i hReason
          exact hRevoked hReason revoked hAt
      | some before =>
        have hInTime := h.finishes job hJob old hOld hSession hKind before hOldFinish
        refine ⟨(min_le_left _ _).trans hInTime.1, fun revoked hAt => ?_⟩
        change revoked ∈ ite _ _ _ at hAt
        split at hAt
        · cases hAt
          exact min_le_right _ _
        · exact (min_le_left _ _).trans (hInTime.2 revoked hAt)
    · rw [if_neg hGroup] at hSession hKind ⊢
      have hOther : ¬some job.sessionID =
          (db.sessionByGroup nodeID payload.groupID).map (·.sessionID) := by
        intro hOwn
        obtain ⟨session, hFound, hSame⟩ := map_eq_some_iff.mp hOwn.symm
        obtain ⟨hMem, hNode, hID⟩ := sessionByGroup_mem hFound
        obtain rfl := inj_on_of_nodup_map db.history.sessionIDs hMem hOld
          (hSame.trans hSession.symm)
        exact hGroup (by rw [SessionRow.group, hNode, hID])
      rw [endedJob, if_neg hOther] at hFinish
      exact h.finishes job hJob old hOld hSession hKind finish hFinish

/-- A job event keeps it unless it moves a late finish into its session. -/
theorem recorded {payload : History.JobEvent} {occurredAt : Time} {session : SessionRow}
    {rest : List SessionRow} (h : db.FinishesInTime windows)
    (hSession : session ∈ db.history.sessions)
    (hMoved : session.kind = .reservation →
      nullableMillis (clampTime payload.finishedAt session.effectiveEnd) = none →
        ∀ job ∈ db.jobs.rows, job.key = (nodeID, payload.executionID) →
          job.sessionID ≠ session.sessionID → ∀ finish ∈ job.finishedAt, session.InTime finish)
    (hRecorded : Recorded nodeID payload occurredAt session rest db after) :
    after.FinishesInTime windows where
  placed := by
    intro job hJob
    have hStays : ∀ old ∈ db.history.sessions, ∃ row ∈ after.history.sessions,
        row.sessionID = old.sessionID := by
      intro old hOld
      rw [hRecorded.sessions]
      exact ⟨_, List.mem_map_of_mem hOld, (refreshedRow_frame _ old).1⟩
    rw [hRecorded.jobs] at hJob
    rcases Table.mem_upsert (JobRow.update_key · _) hJob with rfl | ⟨old, _, _, rfl⟩ | hOld
    · exact hStays session hSession
    · exact hStays session hSession
    · obtain ⟨row, hRow, hID⟩ := h.placed job hOld
      obtain ⟨new, hNew, hSame⟩ := hStays row hRow
      exact ⟨new, hNew, hSame.trans hID⟩
  windows := by
    intro row hRow hKind
    rw [hRecorded.sessions] at hRow
    obtain ⟨old, hOld, rfl⟩ := List.mem_map.mp hRow
    rw [(refreshedRow_frame _ old).2] at hKind
    rw [refreshedRow_reservation _ hKind]
    exact h.windows old hOld hKind
  finishes := by
    intro job hJob row hRow hRowSession hKind finish hFinish
    rw [hRecorded.sessions] at hRow
    obtain ⟨old, hOld, rfl⟩ := List.mem_map.mp hRow
    rw [(refreshedRow_frame _ old).2] at hKind
    rw [refreshedRow_reservation _ hKind] at hRowSession ⊢
    -- the session of the event is the one of its id
    have hSame : old.sessionID = session.sessionID → old = session :=
      inj_on_of_nodup_map db.history.sessionIDs hOld hSession
    rw [hRecorded.jobs] at hJob
    rcases Table.mem_upsert (JobRow.update_key · _) hJob with rfl | ⟨before, hBefore, hKey, rfl⟩ | hOther
    · obtain rfl := hSame hRowSession
      rw [jobRow_finishedAt hKind] at hFinish
      exact clamped_inTime hFinish
    · obtain rfl := hSame hRowSession
      have hUpdated : finish ∈ (nullableMillis (clampTime payload.finishedAt old.effectiveEnd)).or
          before.finishedAt := jobRow_finishedAt hKind ▸ hFinish
      cases hReported : nullableMillis (clampTime payload.finishedAt old.effectiveEnd) with
      | some reported =>
        rw [hReported, some_or] at hUpdated
        cases hUpdated
        exact clamped_inTime hReported
      | none =>
        rw [hReported, none_or] at hUpdated
        by_cases hStays : before.sessionID = old.sessionID
        · exact h.finishes before hBefore old hOld hStays.symm hKind finish hUpdated
        · exact hMoved hKind hReported before hBefore hKey hStays finish hUpdated
    · exact h.finishes job hOther old hOld hRowSession hKind finish hFinish

end FinishesInTime

theorem finishes_invariant [Unicode] [Digest] (windows : String × String → Time × Time) :
    EventInvariant
      (fun nodeID payload db => ReportsWindow windows nodeID payload ∧ db.EndsInTime nodeID payload)
      (FinishesInTime windows) := by
  refine .ofJobs .same (fun hOk h hJobs _ hUpserted => .upserted hOk.1 hOk.2 h hJobs hUpserted)
    (fun occurredAt hOk h => .ended occurredAt hOk.2 h) ?_ ?_
  · intro nodeID db after payload occurredAt session rest hOk h hSessions hRecorded
    have hMem : session ∈ db.groupSessions nodeID
        (telemetryGroups payload.groupID payload.groupIDs) := hSessions ▸ mem_cons_self
    refine h.recorded (groupSessions_mem hMem).1 (hOk.2.2 session ?_) hRecorded
    rw [hSessions]
    rfl
  · intro nodeID db claimed after payload occurredAt session hOk h hGroups hClaimed hRecorded
    have hKind : session.kind = .claimedRun := by
      rcases hClaimed.origin with ⟨_, hNew, _⟩ | ⟨row, hFound, hSame, _⟩
      · exact hNew
      · exact hSame.trans (hOk.2.1 hGroups row hFound)
    refine (h.claimed hClaimed hKind).recorded (sessionByGroup_mem hClaimed.found).1 ?_ hRecorded
    intro hReservation
    cases hKind.symm.trans hReservation

end Database

/-- Pages in which the reports of each group have one window: if their events meet the condition, the
jobs of every reservation finished before its end. -/
theorem reservation_jobs_finish_in_time [Unicode] [Digest] (format : PayloadFormat)
    (windows : String × String → Time × Time) (calls : List PageCall)
    (hRun : Interleaving.Along (PageCall.apply format)
      (fun db call => call.Meets format (fun nodeID payload db =>
        Database.ReportsWindow windows nodeID payload ∧ db.EndsInTime nodeID payload) db) {} calls) :
    let db := run (PageCall.apply format) {} calls
    ∀ job ∈ db.jobs.rows, ∀ row ∈ db.history.sessions, row.sessionID = job.sessionID →
      row.kind = .reservation → ∀ finish ∈ job.finishedAt,
        finish ≤ row.expiresAt ∧ ∀ revoked ∈ row.revokedAt, finish ≤ revoked := by
  have hStart : ({} : Database).FinishesInTime windows :=
    ⟨fun _ hJob => absurd hJob not_mem_nil, fun _ hRow => absurd hRow not_mem_nil,
      fun _ hJob => absurd hJob not_mem_nil⟩
  exact ((Database.finishes_invariant windows).run hRun hStart).finishes

section Runs

/-- A run in the reservation of noon, and the end of the reservation that the node reports some
seconds later than it was due. -/
def endedLate (delay : Int) : History.ReservationEnded :=
  { reservationEnds with endedAt := claimedNoon + (3600 + delay) * second }

def lateFormat (delay : Int) : PayloadFormat :=
  listFormat [.reservationUpsert (cliReport "complete"), .job runReserved,
    .reservationEnded (endedLate delay)]

def lateCalls : List PageCall :=
  [runCall [("reservation.upsert", 0), ("job.started", 1), ("reservation.ended", 2)]]

open scoped Plain

theorem reservation_jobs_finish_at_end :
    let db := run (PageCall.apply (lateFormat 0)) {} lateCalls
    db.jobs.rows.map (·.finishedAt) = [some (millis (claimedNoon + 3600 * second))] ∧
    ∀ job ∈ db.jobs.rows, ∀ row ∈ db.history.sessions, row.sessionID = job.sessionID →
      row.kind = .reservation → ∀ finish ∈ job.finishedAt,
        finish ≤ row.expiresAt ∧ ∀ revoked ∈ row.revokedAt, finish ≤ revoked := by
  refine ⟨by decide +kernel, @reservation_jobs_finish_in_time ascii plain _
    (fun _ => (claimedNoon, claimedNoon + 3600 * second)) _ ?_⟩
  decide +kernel

/-- The node sweeps its reservations a second after this one was due: the job finished after the end
of the reservation. -/
theorem swept_job_finishes_late :
    let db := run (PageCall.apply (lateFormat 1)) {} lateCalls
    ∃ job ∈ db.jobs.rows, ∃ row ∈ db.history.sessions, row.sessionID = job.sessionID ∧
      row.kind = .reservation ∧ job.finishedAt = some (row.expiresAt + 1000) := by
  decide +kernel

end Runs

end GPUardian
