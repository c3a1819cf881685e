import GPUardian.History.Jobs
import GPUardian.History.Quality
import Mathlib.Order.Bounds.Basic

/-! The sessions of claimed runs. A claimed run has the bounds of the jobs that were linked to it, also
of those that went on in a reservation. -/
namespace GPUardian

open GoStrings Tables List Option Interleaving

/-- The session is finalized when all jobs are finished, with the last of them, and starts with the
first. -/
structure SessionRow.Follows (jobs : List JobRow) (row : SessionRow) : Prop where
  finalized : row.finalizedAt.isSome = true ↔ ∀ job ∈ jobs, job.finishedAt.isSome = true
  finalizedAt : ∀ finalized ∈ row.finalizedAt,
    IsGreatest {finish | ∃ job ∈ jobs, job.finishedAt = some finish} finalized
  startsAt : (∃ job ∈ jobs, job.startedAt.isSome = true) →
    IsLeast {start | ∃ job ∈ jobs, job.startedAt = some start} row.startsAt

namespace SessionRow

variable {jobs : List JobRow} {row : SessionRow}

theorem Follows.core {other : SessionRow} (h : row.Follows jobs) (hCore : row.core = other.core) :
    other.Follows jobs := by
  have hFinalized : other.finalizedAt = row.finalizedAt := (congrArg SessionRow.finalizedAt hCore).symm
  have hStarts : other.startsAt = row.startsAt := (congrArg SessionRow.startsAt hCore).symm
  exact ⟨hFinalized ▸ h.finalized, hFinalized ▸ h.finalizedAt, hStarts ▸ h.startsAt⟩

/-- Only the starts and finishes of the jobs count. -/
theorem Follows.map {f : JobRow → JobRow} (h : row.Follows jobs)
    (hTimes : ∀ job ∈ jobs, (f job).finishedAt = job.finishedAt ∧ (f job).startedAt = job.startedAt) :
    row.Follows (jobs.map f) := by
  have hColumn : ∀ column : JobRow → Option Int, (∀ job ∈ jobs, column (f job) = column job) →
      {time | ∃ job ∈ jobs.map f, column job = some time} =
        {time | ∃ job ∈ jobs, column job = some time} := by
    intro column hSame
    ext time
    constructor
    · rintro ⟨_, hMapped, hTime⟩
      obtain ⟨job, hJob, rfl⟩ := List.mem_map.mp hMapped
      exact ⟨job, hJob, (hSame job hJob).symm.trans hTime⟩
    · rintro ⟨job, hJob, hTime⟩
      exact ⟨f job, List.mem_map_of_mem hJob, (hSame job hJob).trans hTime⟩
  refine ⟨h.finalized.trans ?_, ?_, ?_⟩
  · rw [List.forall_mem_map]
    exact forall₂_congr fun job hJob => by rw [(hTimes job hJob).1]
  · rw [hColumn (·.finishedAt) fun job hJob => (hTimes job hJob).1]
    exact h.finalizedAt
  · rintro ⟨_, hMapped, hStarted⟩
    obtain ⟨job, hJob, rfl⟩ := List.mem_map.mp hMapped
    rw [hColumn (·.startedAt) fun job hJob => (hTimes job hJob).2]
    exact h.startsAt ⟨job, hJob, (hTimes job hJob).2 ▸ hStarted⟩

end SessionRow

namespace Database

variable {jobs : List JobRow}

theorem greatest_of_max? {column : JobRow → Option Int} {value : Int}
    (h : (jobs.filterMap column).max? = some value) :
    IsGreatest {finish | ∃ job ∈ jobs, column job = some finish} value := by
  obtain ⟨hMem, hMax⟩ := max?_eq_some_iff.mp h
  exact ⟨mem_filterMap.mp hMem, fun finish hFinish => hMax finish (mem_filterMap.mpr hFinish)⟩

theorem least_of_min? {column : JobRow → Option Int} {value : Int}
    (h : (jobs.filterMap column).min? = some value) :
    IsLeast {start | ∃ job ∈ jobs, column job = some start} value := by
  obtain ⟨hMem, hMin⟩ := min?_eq_some_iff.mp h
  exact ⟨mem_filterMap.mp hMem, fun start hStart => hMin start (mem_filterMap.mpr hStart)⟩

/-- A refresh of a session that has jobs gives it their bounds. -/
theorem refresh_follows (row : SessionRow) (hJobs : jobs ≠ []) :
    (SessionRow.refresh jobs row).Follows jobs where
  finalized := by
    have hRow : (SessionRow.refresh jobs row).finalizedAt =
        if jobs.any (·.finishedAt.isNone) then none else (jobs.filterMap (·.finishedAt)).max? := rfl
    rw [hRow]
    split
    · rename_i hAny
      obtain ⟨job, hJob, hNone⟩ := List.any_eq_true.mp hAny
      refine iff_of_false Bool.false_ne_true fun hAll => ?_
      have hSome := hAll job hJob
      rw [isNone_iff_eq_none.mp hNone] at hSome
      cases hSome
    · rename_i hNot
      have hAll : ∀ job ∈ jobs, job.finishedAt.isSome = true := fun job hJob =>
        isSome_iff_ne_none.mpr fun hNone =>
          hNot (List.any_eq_true.mpr ⟨job, hJob, isNone_iff_eq_none.mpr hNone⟩)
      refine iff_of_true (isSome_max?_iff.mpr ?_) hAll
      obtain ⟨job, hJob⟩ := exists_mem_of_ne_nil jobs hJobs
      obtain ⟨finish, hFinish⟩ := isSome_iff_exists.mp (hAll job hJob)
      exact ne_nil_of_mem (mem_filterMap.mpr ⟨job, hJob, hFinish⟩)
  finalizedAt := by
    intro finalized hFinalized
    have hRow : (if jobs.any (·.finishedAt.isNone) then none
        else (jobs.filterMap (·.finishedAt)).max?) = some finalized := hFinalized
    split at hRow
    · cases hRow
    · exact greatest_of_max? hRow
  startsAt := by
    rintro ⟨job, hJob, hStarted⟩
    obtain ⟨start, hStart⟩ := isSome_iff_exists.mp hStarted
    have hSome : (jobs.filterMap (·.startedAt)).min?.isSome = true :=
      isSome_min?_of_ne_nil (ne_nil_of_mem (mem_filterMap.mpr ⟨job, hJob, hStart⟩))
    obtain ⟨first, hFirst⟩ := isSome_iff_exists.mp hSome
    have hRow : (SessionRow.refresh jobs row).startsAt = first := by
      simp only [SessionRow.refresh, hFirst, getD_some]
    rw [hRow]
    exact least_of_min? hFirst

variable {nodeID : String} {db after : Database}

/-- The claimed runs are complete, and have the bounds of their jobs. -/
def ClaimsFollow (db : Database) : Prop :=
  ∀ row ∈ db.history.sessions, row.kind = .claimedRun → row.provisioning = false ∧
    (db.linkedJobs row.sessionID ≠ [] → row.Follows (db.linkedJobs row.sessionID))

/-- Reports are not about claimed runs, and the end of a reservation is not that of a job which a
claimed run has. -/
def ClaimsApart [Unicode] [Digest] (nodeID : String) (payload : EventPayload) (db : Database) : Prop :=
  match payload with
  | .reservationUpsert payload => ∀ row ∈ db.history.sessions, row.kind = .claimedRun →
      row.sessionID ≠ (db.upsertTarget nodeID payload).1
  | .reservationEnded payload => ∀ session ∈ db.sessionByGroup nodeID payload.groupID,
      session.kind ≠ .claimedRun ∧
        ∀ job ∈ db.jobs.rows, job.sessionID = session.sessionID →
          (∀ finish ∈ job.finishedAt, millis payload.endedAt < finish) →
            ∀ row ∈ db.history.sessions, row.kind = .claimedRun → job ∉ db.linkedJobs row.sessionID
  | _ => True

instance [Unicode] [Digest] (nodeID : String) (payload : EventPayload) (db : Database) :
    Decidable (db.ClaimsApart nodeID payload) := by
  unfold ClaimsApart
  split <;> infer_instance

theorem ClaimsFollow.same (h : db.ClaimsFollow) (hSame : SameJobs db after) :
    after.ClaimsFollow := by
  intro row hRow hKind
  obtain ⟨old, hOld, hCore⟩ := hSame.row hRow
  have hSession : old.sessionID = row.sessionID := congrArg (·.sessionID) hCore
  have hProvisioning : old.provisioning = row.provisioning := congrArg (·.provisioning) hCore
  obtain ⟨hReady, hFollows⟩ := h old hOld ((congrArg (·.kind) hCore : old.kind = row.kind).trans hKind)
  rw [hSame.linkedJobs, ← hSession, ← hProvisioning]
  exact ⟨hReady, fun hLinked => (hFollows hLinked).core hCore⟩

theorem ClaimsFollow.ended [Unicode] [Digest] {payload : History.ReservationEnded} {occurredAt : Time}
    (hApart : db.ClaimsApart nodeID (.reservationEnded payload)) (h : db.ClaimsFollow) :
    (db.applyReservationEnded nodeID payload occurredAt).ClaimsFollow := by
  intro row hRow hKind
  obtain ⟨old, hOld, rfl⟩ := List.mem_map.mp
    (hRow : row ∈ db.history.sessions.map _)
  have hGroup : old.group ≠ (nodeID, payload.groupID) := by
    intro hGroup
    refine (hApart old (sessionByGroup_of_mem hOld hGroup)).1 ?_
    rw [if_pos hGroup] at hKind
    exact hKind
  rw [if_neg hGroup] at hKind ⊢
  obtain ⟨hReady, hFollows⟩ := h old hOld hKind
  refine ⟨hReady, ?_⟩
  -- the jobs of the run are the same, and those that the end writes keep their times
  rw [applyReservationEnded_linkedJobs]
  intro hLinked
  refine (hFollows fun hNone => hLinked (by rw [hNone, map_nil])).map fun job hJob => ?_
  unfold endedJob
  split
  · rename_i hEnded
    obtain ⟨session, hSession, hSame⟩ := map_eq_some_iff.mp hEnded.symm
    have hDone : ¬∀ finish ∈ job.finishedAt, millis payload.endedAt < finish := fun hLater =>
      (hApart session hSession).2 job (mem_filter.mp hJob).1 hSame.symm hLater old hOld hKind hJob
    push Not at hDone
    obtain ⟨finish, hFinish, hBefore⟩ := hDone
    rw [mem_def.mp hFinish, elim_some, min_eq_left hBefore]
    exact ⟨rfl, rfl⟩
  · exact ⟨rfl, rfl⟩

theorem ClaimsFollow.upserted [Unicode] [Digest] {serverID serverName : String}
    {payload : History.ReservationUpsert} {occurredAt : Time} {id : String}
    (hApart : db.ClaimsApart nodeID (.reservationUpsert payload)) (h : db.ClaimsFollow)
    (hJobs : after.jobs = db.jobs) (hLinks : after.jobSessions = db.jobSessions)
    (hUpserted : History.UpsertedSessions nodeID serverID serverName payload occurredAt db.history
      after.history.sessions id) : after.ClaimsFollow := by
  intro row hRow hKind
  have hLinked : after.linkedJobs row.sessionID = db.linkedJobs row.sessionID := by
    rw [linkedJobs, linkedJobs, hJobs, hLinks]
  rcases hUpserted.mem hRow with hOld | hReported
  · rw [hLinked]
    exact h row hOld hKind
  · rcases hReported.origin with ⟨hReservation, _⟩ | ⟨old, hOld, hID, hSame, _⟩
    · cases hReservation.symm.trans hKind
    · exact absurd (hID.trans (upserted_owns hUpserted).1) (hApart old hOld (hSame.symm.trans hKind))

/-- A job event refreshes the claimed runs whose jobs it changes. -/
theorem ClaimsFollow.recorded {payload : History.JobEvent} {occurredAt : Time} {session : SessionRow}
    {rest : List SessionRow} (hRecorded : Recorded nodeID payload occurredAt session rest db after)
    (hReady : ∀ row ∈ db.history.sessions, row.kind = .claimedRun → row.provisioning = false)
    (hFollows : ∀ row ∈ db.history.sessions, row.kind = .claimedRun → row ∉ session :: rest →
      db.linkedJobs row.sessionID ≠ [] → row.Follows (db.linkedJobs row.sessionID)) :
    after.ClaimsFollow := by
  intro row hRow hKind
  rw [hRecorded.sessions] at hRow
  obtain ⟨old, hOld, rfl⟩ := List.mem_map.mp hRow
  unfold refreshedRow at hKind ⊢
  split at hKind
  · rename_i hRefreshed
    rw [if_pos hRefreshed]
    exact ⟨hReady old hOld hKind, fun _ => refresh_follows old hRefreshed.2.2.2⟩
  · rename_i hNot
    rw [if_neg hNot]
    have hProvisioning := hReady old hOld hKind
    refine ⟨hProvisioning, fun hLinked => ?_⟩
    have hOther : ⟨nodeID, payload.executionID, old.sessionID⟩ ∉ after.jobSessions.rows :=
      fun hLink => hNot ⟨hKind, hProvisioning, List.any_eq_true.mpr ⟨_, hLink, by simp⟩, hLinked⟩
    rw [hRecorded.linkedJobs_other hOther] at hLinked ⊢
    exact hFollows old hOld hKind
      (fun hMem => hOther (hRecorded.mem_links.mpr (.inr ⟨old, hMem, rfl⟩))) hLinked

theorem ClaimsFollow.claimed {payload : History.JobEvent} {occurredAt : Time} {session : SessionRow}
    {groupID : String} {claimed : Database} (h : db.ClaimsFollow)
    (hClaimed : Claimed nodeID groupID session db claimed)
    (hRecorded : Recorded nodeID payload occurredAt session [] claimed after) :
    after.ClaimsFollow := by
  refine .recorded hRecorded (fun row hRow hKind => ?_) fun row hRow hKind hNew hLinked => ?_
  · rcases hClaimed.others row hRow with rfl | hOld
    · rcases hClaimed.origin with ⟨_, _, hReady⟩ | ⟨found, hFound, hSame, hReady⟩
      · exact hReady
      · exact hReady.trans (h found (sessionByGroup_mem hFound).1 (hSame.symm.trans hKind)).1
    · exact (h row hOld hKind).1
  · have hOld := (hClaimed.others row hRow).resolve_left fun hSame =>
      hNew (hSame ▸ mem_singleton_self row)
    have hJobs : claimed.linkedJobs row.sessionID = db.linkedJobs row.sessionID := by
      rw [linkedJobs, linkedJobs, hClaimed.jobs, hClaimed.links]
    rw [hJobs] at hLinked ⊢
    exact (h row hOld hKind).2 hLinked

theorem claims_invariant [Unicode] [Digest] : EventInvariant ClaimsApart ClaimsFollow :=
  .ofJobs .same .upserted (fun _ => .ended)
    (fun _ h _ hRecorded => .recorded hRecorded (fun row hRow hKind => (h row hRow hKind).1)
      fun row hRow hKind _ => (h row hRow hKind).2)
    fun _ h _ hClaimed hRecorded => h.claimed hClaimed hRecorded

end Database

/-- After pages whose reservations and their ends were not about jobs of claimed runs, every claimed
run has the bounds of its jobs. -/
theorem claimed_runs_follow_jobs [Unicode] [Digest] (format : PayloadFormat) (calls : List PageCall)
    (hRun : Interleaving.Along (PageCall.apply format)
      (fun db call => call.Meets format Database.ClaimsApart db) {} calls) :
    let db := run (PageCall.apply format) {} calls
    ∀ row ∈ db.history.sessions, row.kind = .claimedRun → db.linkedJobs row.sessionID ≠ [] →
      row.Follows (db.linkedJobs row.sessionID) := by
  have hStart : ({} : Database).ClaimsFollow := fun _ hRow => absurd hRow not_mem_nil
  intro db row hRow hKind
  exact (Database.claims_invariant.run hRun hStart row hRow hKind).2

section Runs

/-- The run of noon in a reservation that its user has made meanwhile, and its end. -/
def runReserved : History.JobEvent := { claimStarted with groupIDs := ["tok_1"] }

def runFinished : History.JobEvent :=
  { claimStarted with finishedAt := some (claimedNoon + 60 * second), finishPrecision := "exact" }

def reservationEnds : History.ReservationEnded :=
  { groupID := "tok_1", reason := "expired", endedAt := claimedNoon + 3600 * second }

def runFormat : PayloadFormat :=
  listFormat [.job claimStarted, .job runFinished, .reservationUpsert (cliReport "complete"),
    .job runReserved, .reservationEnded reservationEnds]

/-- A page whose events are of the given types and have the given payloads. -/
def runCall (events : List (String × Nat)) : PageCall :=
  { now := claimedNoon + 3601 * second, serverID := "server_1", serverName := "alpha"
    page :=
      { claimPage with
        events := events.zipIdx.map fun (event, index) =>
          { seq := index + 1, occurredAt := claimedNoon + 3600 * second, bootID := "boot_1"
            type := event.1, payload := List.replicate event.2 0 } } }

open scoped Plain

/-- A claimed run that finishes is finalized with its job. -/
theorem claimed_runs_follow_jobs_noon :
    let db := run (PageCall.apply runFormat) {}
      [runCall [("job.started", 0), ("job.finished", 1)]]
    (∃ row ∈ db.history.sessions, row.kind = .claimedRun ∧ db.linkedJobs row.sessionID ≠ [] ∧
      row.finalizedAt = some (millis (claimedNoon + 60 * second))) ∧
    ∀ row ∈ db.history.sessions, row.kind = .claimedRun → db.linkedJobs row.sessionID ≠ [] →
      row.Follows (db.linkedJobs row.sessionID) := by
  refine ⟨by decide +kernel, @claimed_runs_follow_jobs ascii plain _ _ ?_⟩
  decide +kernel

/-- The reservation that the run has moved to ends, and the job with it; the claimed run stays open. -/
theorem moved_run_left_open :
    let db := run (PageCall.apply runFormat) {}
      [runCall [("job.started", 0), ("reservation.upsert", 2), ("job.updated", 3),
        ("reservation.ended", 4)]]
    ∃ row ∈ db.history.sessions, row.kind = .claimedRun ∧ row.finalizedAt = none ∧
      (db.linkedJobs row.sessionID).map (·.finishedAt) =
        [some (millis (claimedNoon + 3600 * second))] := by
  decide +kernel

end Runs

end GPUardian
