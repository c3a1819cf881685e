import GPUardian.History.Statements

/-! Which sessions are marked as partial. A gap marks the sessions by their stored ends; a report of
a reservation marks its session, and nothing unmarks one. -/
namespace GPUardian

open GoStrings Tables List Interleaving Database

open History (ReservationUpsert)

section Gaps

/-- The session was open when events since the given time may have been lost. -/
def SessionRow.openSince (since : Option Int) (row : SessionRow) : Bool :=
  match row.kind with
  | .claimedRun => row.finalizedAt.isNone
  | .reservation => row.isOpen && since.all fun time => decide (time ≤ row.expiresAt)

/-- The session of the row is partial now. -/
def Database.MarkedPartial (db : Database) (row : SessionRow) : Prop :=
  ∃ after ∈ db.history.sessions, after.sessionID = row.sessionID ∧ after.historyQuality = .partly

instance (db : Database) (row : SessionRow) : Decidable (db.MarkedPartial row) :=
  inferInstanceAs (Decidable (∃ after ∈ db.history.sessions,
    after.sessionID = row.sessionID ∧ after.historyQuality = .partly))

/-- The stored end of the session is not before the cutoff, or the session is partial anyway. -/
def SessionRow.ReachesTo (cutoff : Int) (row : SessionRow) : Prop :=
  cutoff ≤ row.expiresAt ∨ row.historyQuality = .partly

/-- So it is for the claimed runs that go on. -/
def Database.ClaimsReach (selects : SessionRow → Prop) (cutoff : Int) (db : Database) : Prop :=
  ∀ row ∈ db.history.sessions, selects row → row.kind = .claimedRun → row.finalizedAt = none →
    row.ReachesTo cutoff

variable {db after : Database} {marks : SessionRow → Prop} [DecidablePred marks] {atMS : Int}

/-- A statement that marks rows marks no others. -/
theorem markedPartial_iff
    (hAfter : after.history.sessions = db.history.sessions.map fun row =>
      if marks row then row.markPartial atMS else row)
    {row : SessionRow} (hRow : row ∈ db.history.sessions) :
    after.MarkedPartial row ↔ marks row ∨ row.historyQuality = .partly := by
  have hID : ∀ old : SessionRow,
      (if marks old then old.markPartial atMS else old).sessionID = old.sessionID := by
    intro old
    split
    · rfl
    · rfl
  constructor
  · rintro ⟨new, hNew, hSame, hPartial⟩
    rw [hAfter] at hNew
    obtain ⟨old, hOld, rfl⟩ := mem_map.mp hNew
    obtain rfl := inj_on_of_nodup_map db.history.sessionIDs hOld hRow ((hID old).symm.trans hSame)
    by_cases hMarks : marks old
    · exact .inl hMarks
    · rw [if_neg hMarks] at hPartial
      exact .inr hPartial
  · intro h
    refine ⟨_, hAfter ▸ mem_map_of_mem hRow, hID row, ?_⟩
    split
    · rfl
    · rename_i hMarks
      exact h.resolve_left hMarks

theorem SessionRow.openSince_reaches {row : SessionRow} {time : Int} (hKind : row.kind = .reservation)
    (hOpen : row.openSince (some time) = true) : row.ReachesTo time := by
  simp only [openSince, hKind, Option.all_some, Bool.and_eq_true, decide_eq_true_eq] at hOpen
  exact .inl hOpen.2

/-- A gap that marks by the stored ends marks the open sessions exactly if these reach to it. -/
theorem openSince_markedPartial_iff {selects : SessionRow → Prop} [DecidablePred selects]
    (cutoff : Int) {since : Option Int}
    (hAfter : after.history.sessions = db.history.sessions.map fun row =>
      if selects row ∧ cutoff ≤ row.expiresAt then row.markPartial atMS else row) :
    (∀ row ∈ db.history.sessions, selects row → row.openSince since = true →
      after.MarkedPartial row) ↔
      db.ClaimsReach selects cutoff ∧
      ∀ row ∈ db.history.sessions, selects row → row.kind = .reservation →
        row.openSince since = true → row.ReachesTo cutoff := by
  have hMarked : ∀ row ∈ db.history.sessions, selects row →
      (after.MarkedPartial row ↔ row.ReachesTo cutoff) := by
    intro row hRow hSelects
    rw [markedPartial_iff hAfter hRow, SessionRow.ReachesTo, and_iff_right hSelects]
  constructor
  · intro h
    constructor
    · intro row hRow hSelects hKind hOpen
      refine (hMarked row hRow hSelects).mp (h row hRow hSelects ?_)
      simp [SessionRow.openSince, hKind, hOpen]
    · intro row hRow hSelects _ hOpen
      exact (hMarked row hRow hSelects).mp (h row hRow hSelects hOpen)
  · rintro ⟨hClaims, hReservations⟩ row hRow hSelects hOpen
    refine (hMarked row hRow hSelects).mpr ?_
    cases hKind : row.kind with
    | reservation => exact hReservations row hRow hSelects hKind hOpen
    | claimedRun =>
      refine hClaims row hRow hSelects hKind ?_
      simpa [SessionRow.openSince, hKind] using hOpen

/-- A gap leaves an open session complete only if it is a claimed run that goes on beyond its stored
end, or if its server was never synchronized and the reservation ended before 1970. -/
theorem gaps_mark_open_sessions_iff (db : Database) :
    (∀ now serverID reason,
      (∀ row ∈ db.history.sessions, row.serverID = serverID →
        row.openSince (db.lastSync serverID) = true →
        (db.markGap now serverID reason).MarkedPartial row) ↔
      db.ClaimsReach (·.serverID = serverID) ((db.lastSync serverID).getD 0) ∧
        (db.lastSync serverID = none → ∀ row ∈ db.history.sessions, row.serverID = serverID →
          row.kind = .reservation → row.isOpen = true → row.ReachesTo 0)) ∧
    ∀ nodeID payload occurredAt,
      (∀ row ∈ db.history.sessions, row.nodeID = nodeID →
        row.openSince (some (millis (gapStart payload occurredAt))) = true →
        (db.applyGap nodeID payload occurredAt).MarkedPartial row) ↔
      db.ClaimsReach (·.nodeID = nodeID) (millis (gapStart payload occurredAt)) := by
  constructor
  · intro now serverID reason
    rw [openSince_markedPartial_iff ((db.lastSync serverID).getD 0) rfl]
    refine and_congr_right fun _ => ?_
    cases hSync : db.lastSync serverID with
    | none => simp +contextual [SessionRow.openSince]
    | some time =>
      refine iff_of_true ?_ (by simp)
      intro row _ _ hKind hOpen
      exact SessionRow.openSince_reaches hKind hOpen
  · intro nodeID payload occurredAt
    rw [openSince_markedPartial_iff (millis (gapStart payload occurredAt)) rfl]
    refine and_iff_left ?_
    intro row _ _ hKind hOpen
    exact SessionRow.openSince_reaches hKind hOpen

/-- A run that starts at noon, as the node reports it. -/
def claimedNoon : Time := 63900000000 * second

def claimStarted : History.JobEvent :=
  { executionID := "exec_1", authorizationID := "auth_1", tokenMode := "claimed"
    source := "gpuardian_run", mode := "bare", holder := "alice", gpus := [0]
    startedAt := some claimedNoon, startPrecision := "exact" }

def claimPage : Telemetry.Page :=
  { schemaVersion := 1, nodeID := "node_1", streamID := "stream_1", bootID := "boot_1"
    events := [{ seq := 1, occurredAt := claimedNoon, bootID := "boot_1", type := "job.started"
                 payload := [] }]
    nextCursor := "1", hasMore := false, earliestSeq := 1, latestSeq := 1 }

open scoped Plain

/-- The gateway has read the start of the run a second after it happened. A gap that it marks a minute
later, and one that the node reports from two seconds after the start on, leave the run complete. -/
theorem running_claim_left_complete :
    let db := ({} : Database).commit (({} : Database).applyPageWithOwners
      (listFormat [.job claimStarted]) (claimedNoon + second) "server_1" "alpha" claimPage [])
    (∃ row ∈ db.history.sessions, row.serverID = "server_1" ∧
      row.openSince (db.lastSync "server_1") = true ∧
      ¬(db.markGap (claimedNoon + 60 * second) "server_1" "cursor too old").MarkedPartial row) ∧
    ∃ row ∈ db.history.sessions, row.nodeID = "node_1" ∧
      row.openSince (some (millis (claimedNoon + 2 * second))) = true ∧
      ¬(db.applyGap "node_1" { «from» := claimedNoon + 2 * second, «to» := claimedNoon + 50 * second
                               reason := "daemon restarted" }
        (claimedNoon + 50 * second)).MarkedPartial row := by
  decide +kernel

end Gaps

/-- The calls of the gateway that write sessions. An event is applied in the transaction of its page,
after other events of the page and before others. -/
inductive StoreCall where
  | applyPayload (nodeID serverID serverName : String) (knownOwners : List String)
      (occurredAt : Time) (payload : EventPayload)
  | applyPage (now : Time) (serverID serverName : String) (page : Telemetry.Page)
      (knownOwners : List String)
  | markGap (now : Time) (serverID reason : String)
  | prepareSession (now : Time) (id nodeID serverID serverName owner purpose : String)
      (startsAt expiresAt : Time) (gpus : List Int)
  | confirmSession (now : Time) (id groupID : String) (reservationIDs : List String)
      (gpus : List Int)
  | dropProvisioningSession (id : String)
  | reconcileOpenSessions (serverID : String) (liveGroupIDs : List String) (observedAt : Time)
  | pruneRetention (now : Time)

def Database.call [Unicode] [Digest] (format : PayloadFormat) (db : Database) :
    StoreCall → Database
  | .applyPayload nodeID serverID serverName knownOwners occurredAt payload =>
    db.commit (db.applyPayload nodeID serverID serverName knownOwners occurredAt payload)
  | .applyPage now serverID serverName page knownOwners =>
    db.commit (db.applyPageWithOwners format now serverID serverName page knownOwners)
  | .markGap now serverID reason => db.markGap now serverID reason
  | .prepareSession now id nodeID serverID serverName owner purpose startsAt expiresAt gpus =>
    db.commit (db.prepareSession now id nodeID serverID serverName owner purpose startsAt expiresAt
      gpus)
  | .confirmSession now id groupID reservationIDs gpus =>
    db.commit (db.confirmSession now id groupID reservationIDs gpus)
  | .dropProvisioningSession id => db.commit (db.dropProvisioningSession id)
  | .reconcileOpenSessions serverID liveGroupIDs observedAt =>
    { db with
      history := db.history.closeSessions
        (db.history.missingOpenSessions serverID (History.liveGroups liveGroupIDs)
          (millis observedAt)) (millis observedAt) }
  | .pruneRetention now => db.pruneRetention now

/-- A session stays: partial if it was, not provisioning if it was not, and its node's unless one of
the given nodes takes it over. -/
structure SessionRow.Persists (takers : String → Prop) (row after : SessionRow) : Prop where
  sessionID : after.sessionID = row.sessionID
  historyQuality : row.historyQuality = .partly → after.historyQuality = .partly
  provisioning : row.provisioning = false → after.provisioning = false
  node : after.nodeID = row.nodeID ∨ takers after.nodeID

variable {takers : String → Prop}

theorem SessionRow.Persists.refl (row : SessionRow) : row.Persists takers row :=
  ⟨rfl, id, id, .inl rfl⟩

/-- Every session that is not provisioning stays. -/
def History.Persists (takers : String → Prop) (db after : History) : Prop :=
  ∀ row ∈ db.sessions, row.provisioning = false → ∃ new ∈ after.sessions, row.Persists takers new

namespace History.Persists

variable {db after : History}

theorem of_sessions (h : after.sessions = db.sessions) : db.Persists takers after :=
  fun row hRow _ => ⟨row, h ▸ hRow, .refl row⟩

theorem refl (db : History) : db.Persists takers db := of_sessions rfl

theorem trans {next : History} (h : db.Persists takers after) (h' : after.Persists takers next) :
    db.Persists takers next := by
  intro row hRow hReady
  obtain ⟨new, hNew, hKept⟩ := h row hRow hReady
  obtain ⟨last, hLast, hLater⟩ := h' new hNew (hKept.provisioning hReady)
  refine ⟨last, hLast, hLater.sessionID.trans hKept.sessionID,
    fun hPartial => hLater.historyQuality (hKept.historyQuality hPartial),
    fun hReady => hLater.provisioning (hKept.provisioning hReady), ?_⟩
  rcases hLater.node with hSame | hTaken
  · exact hSame ▸ hKept.node
  · exact .inr hTaken

theorem of_map {f : SessionRow → SessionRow} (hRows : ∀ row : SessionRow, row.Persists takers (f row))
    (h : after.sessions = db.sessions.map f) : db.Persists takers after :=
  fun row hRow _ => ⟨f row, h ▸ mem_map_of_mem hRow, hRows row⟩

/-- Some rows are written. -/
theorem of_write {written : SessionRow → Prop} [DecidablePred written]
    {f : SessionRow → SessionRow} (hRows : ∀ row : SessionRow, row.Persists takers (f row))
    (h : after.sessions = db.sessions.map fun row => if written row then f row else row) :
    db.Persists takers after := by
  refine of_map (fun row => ?_) h
  split
  · exact hRows row
  · exact .refl row

theorem of_append {rows : List SessionRow} (h : after.sessions = db.sessions ++ rows) :
    db.Persists takers after :=
  fun row hRow _ => ⟨row, h ▸ mem_append_left _ hRow, .refl row⟩

end History.Persists

section Runs

variable [Unicode] [Digest] {nodeID : String} {applied : EventPayload → Prop}
  {db after : Database}

variable {serverID serverName : String} {payload : ReservationUpsert} {occurredAt : Time}

omit [Unicode] in
theorem History.UpsertedSessions.persists {db after : History} {sessions : List SessionRow}
    {id : String}
    (h : UpsertedSessions nodeID serverID serverName payload occurredAt db sessions id)
    (hTaker : takers nodeID) (hAfter : after.sessions = sessions) : db.Persists takers after := by
  cases h with
  | byID hNamed hFound =>
    refine .of_write (f := updatedByID nodeID serverID serverName payload occurredAt)
      (fun row => ⟨rfl, fun hPartial => ?_, fun _ => rfl, .inr hTaker⟩) hAfter
    change (if _ then _ else row.historyQuality) = _
    rw [hPartial, ite_self]
  | byGroup ownerEditable found hFound hGroup hUnnamed =>
    exact .of_write (f := updatedByGroup serverID serverName payload occurredAt ownerEditable)
      (fun row => ⟨rfl, id, fun _ => rfl, .inl rfl⟩) hAfter
  | inserted ownerEditable hNone hUnnamed => exact .of_append hAfter

omit [Unicode] in
theorem Database.claimSession_persists {payload : History.JobEvent}
    (h : db.claimSession nodeID serverID serverName payload occurredAt = .ok after) :
    db.history.Persists takers after.history := by
  unfold claimSession at h
  dsimp only at h
  split at h
  all_goals
    obtain ⟨history, hWrite, h⟩ := bind_ok h
    cases h
    have hSessions := (History.writeSessions_ok hWrite).1
  · refine .of_map (fun row => ?_) hSessions
    split
    · exact ⟨rfl, id, id, .inl rfl⟩
    · exact .refl row
  · exact .of_append hSessions

omit [Unicode] [Digest] in
theorem Database.sampledSession_persists (payload : GPUSample) (row : SessionRow) :
    row.Persists takers (sampledSession payload row) := by
  have hExtend : ∀ endMS (row : SessionRow), row.Persists takers (extendClaim endMS row) := by
    intro endMS row
    unfold extendClaim
    split
    · exact ⟨rfl, id, id, .inl rfl⟩
    · exact .refl row
  unfold sampledSession
  dsimp only
  split
  · obtain ⟨hID, hPartial, hReady, hNode⟩ := hExtend (millis payload.windowEnd) (row.markPartial _)
    exact ⟨hID, fun _ => hPartial rfl, hReady, hNode⟩
  · exact hExtend _ row

/-- No statement of the ingest takes a session back. -/
theorem Database.Statement.persists (h : Statement nodeID applied db after) (hTaker : takers nodeID) :
    db.history.Persists takers after.history := by
  cases h with
  | reservation serverID serverName payload occurredAt knownOwners history _ h =>
    obtain ⟨id, written, hUpserted, _⟩ := History.applyReservation_ok h
    exact hUpserted.persists hTaker rfl
  | ended payload occurredAt =>
    refine .of_map (fun row => ?_) rfl
    split
    · exact ⟨rfl, id, id, .inl rfl⟩
    · exact .refl row
  | claim _ serverID serverName payload occurredAt h => exact claimSession_persists h
  | jobGPU _ payload session gpu hSession hNode h =>
    obtain ⟨_, _, hKeeps, _, rfl⟩ := addJobGPU_ok h
    exact .of_sessions hKeeps.sessions
  | refresh _ payload h =>
    obtain ⟨history, hWrite, h⟩ := bind_ok h
    cases h
    exact .of_write (f := fun row => SessionRow.refresh (db.linkedJobs row.sessionID) row)
      (fun row => ⟨rfl, id, id, .inl rfl⟩) (History.writeSessions_ok hWrite).1
  | sample _ payload session hSession hReaches h =>
    obtain ⟨history, hWrite, h⟩ := bind_ok h
    cases h
    exact .of_write (sampledSession_persists payload) (History.writeSessions_ok hWrite).1
  | gap payload occurredAt =>
    exact .of_write (f := SessionRow.markPartial (millis occurredAt))
      (fun row => ⟨rfl, fun _ => rfl, id, .inl rfl⟩) rfl
  | summary _ sessionID gpu hOwns h => exact .of_sessions (by rw [addSummary_history h])
  | linkJob payload sessionID hOwns => exact .of_sessions (by rw [linkJob_history])
  | _ => exact .refl _

theorem Database.Statements.persists (h : Statements nodeID applied db after)
    (hTaker : takers nodeID) : db.history.Persists takers after.history := by
  induction h with
  | refl => exact .refl _
  | tail _ hLast ih => exact ih.trans (hLast.persists hTaker)

omit [Unicode] [Digest] in
theorem Database.commit_of_isOk {result : Except String Database} (h : result.isOk = true) :
    result = .ok (db.commit result) := by
  cases result with
  | ok after => rfl
  | error message => cases h

omit [Unicode] [Digest] in
theorem Database.commit_persists {result : Except String Database}
    (h : ∀ after, result = .ok after → db.history.Persists takers after.history) :
    db.history.Persists takers (db.commit result).history := by
  cases result with
  | ok after => exact h after rfl
  | error message => exact .refl _

variable {gpus : List Int}

omit [Unicode] [Digest] in
theorem History.confirmGPUs_sessions {id : String} {reservationIDs : List String}
    {db after : History} (h : confirmGPUs id gpus reservationIDs db = .ok after) :
    after.sessions = db.sessions := by
  induction gpus generalizing reservationIDs db with
  | nil =>
    cases h
    rfl
  | cons gpu gpus ih =>
    obtain ⟨written, hWrite, h⟩ := bind_ok h
    exact (ih h).trans (writeGPUs_ok hWrite).1

omit [Unicode] [Digest] in
theorem History.prepareSession_sessions {now : Time} {id nodeID owner purpose : String}
    {startsAt expiresAt : Time} {db after : History}
    (h : db.prepareSession now id nodeID serverID serverName owner purpose startsAt expiresAt gpus =
      .ok after) : ∃ row, after.sessions = db.sessions ++ [row] := by
  obtain ⟨written, hWrite, h⟩ := bind_ok h
  refine ⟨_, Eq.trans ?_ (writeSessions_ok hWrite).1⟩
  exact (foldlM_relates (R := fun db after : History => after.sessions = db.sessions)
    (I := fun _ => True) (fun _ => rfl) (fun _ _ _ h h' => h'.trans h)
    (fun _ _ _ _ _ hGPU => ⟨(writeGPUs_ok hGPU).1, trivial⟩) trivial h).1

omit [Unicode] [Digest] in
theorem History.confirmSession_sessions {now : Time} {id groupID : String}
    {reservationIDs : List String} {db after : History}
    (h : db.confirmSession now id groupID reservationIDs gpus = .ok after) :
    after.sessions = db.sessions.map fun row =>
      if row.sessionID = id ∧ row.provisioning then
        { row with groupID, provisioning := false, updatedAt := millis now }
      else row := by
  unfold confirmSession at h
  split at h
  · obtain ⟨written, hWrite, hGPUs⟩ := bind_ok h
    exact (confirmGPUs_sessions hGPUs).trans (writeSessions_ok hWrite).1
  · cases h

omit [Unicode] [Digest] in
/-- Only a session that is provisioning is dropped. -/
theorem Database.dropProvisioningSession_persists {id : String}
    (h : db.dropProvisioningSession id = .ok after) :
    db.history.Persists takers after.history := by
  unfold dropProvisioningSession at h
  dsimp only at h
  split at h
  · split at h
    · cases h
    · cases h
      intro row hRow hReady
      exact ⟨row, mem_filter.mpr ⟨hRow, by simp [hReady]⟩, .refl row⟩
  · cases h
    exact .refl _

/-- No call takes away a session that is not provisioning. -/
theorem Database.call_persists (format : PayloadFormat) (call : StoreCall) :
    db.history.Persists (fun _ => True) (db.call format call).history := by
  cases call with
  | applyPayload nodeID serverID serverName knownOwners occurredAt payload =>
    refine commit_persists fun after h => ?_
    have hChain : Statements nodeID (fun _ => True) db after :=
      applyPayload_statements trivial h
    exact hChain.persists trivial
  | applyPage now serverID serverName page knownOwners =>
    refine commit_persists fun after h => ?_
    exact (applyPage_statements h).persists trivial
  | markGap now serverID reason =>
    exact .of_write (f := SessionRow.markPartial (millis now))
      (fun row => ⟨rfl, fun _ => rfl, id, .inl rfl⟩) rfl
  | prepareSession now id nodeID serverID serverName owner purpose startsAt expiresAt gpus =>
    refine commit_persists fun after h => ?_
    obtain ⟨history, hPrepare, h⟩ := bind_ok h
    cases h
    obtain ⟨row, hRow⟩ := History.prepareSession_sessions hPrepare
    exact .of_append hRow
  | confirmSession now sessionID groupID reservationIDs gpus =>
    refine commit_persists fun after h => ?_
    obtain ⟨history, summaries, hConfirm, rfl⟩ := confirmSession_ok h
    refine .of_map (fun row => ?_) (History.confirmSession_sessions hConfirm)
    split
    · exact ⟨rfl, id, fun _ => rfl, .inl rfl⟩
    · exact .refl row
  | dropProvisioningSession id =>
    exact commit_persists fun after h => dropProvisioningSession_persists h
  | reconcileOpenSessions serverID liveGroupIDs observedAt =>
    refine .of_map (fun row => ?_) rfl
    split
    · exact ⟨rfl, fun _ => rfl, id, .inl rfl⟩
    · exact .refl row
  | pruneRetention now => exact .refl _

/-- What one call keeps, a run of calls keeps. -/
theorem Database.run_persists (format : PayloadFormat) (calls : List StoreCall) :
    db.history.Persists (fun _ => True) (run (call format) db calls).history := by
  induction calls generalizing db with
  | nil => exact .refl _
  | cons call calls ih => exact (call_persists format call).trans ih

/-- The report finds its session by its id, or the group has no session that is complete. -/
def History.TakesQuality (nodeID : String) (payload : ReservationUpsert) (db : History) : Prop :=
  (payload.externalSessionID ≠ "" ∧
    ∃ row ∈ db.sessions, row.sessionID = reservationSessionID nodeID payload) ∨
  ∀ row ∈ db.sessions, row.group = (nodeID, payload.groupID) → row.historyQuality = .partly

omit [Unicode] in
/-- The session of a group that was reported as partial. -/
theorem History.UpsertedSessions.quality {db : History} {sessions : List SessionRow} {id : String}
    (h : UpsertedSessions nodeID serverID serverName payload occurredAt db sessions id)
    (hPartial : upsertQuality payload = .partly) :
    ∃ row ∈ sessions, row.group = (nodeID, payload.groupID) ∧ row.provisioning = false ∧
      (row.historyQuality = .partly ↔ db.TakesQuality nodeID payload) := by
  cases h with
  | byID hNamed hFound =>
    obtain ⟨row, hRow, hID⟩ := hFound
    refine ⟨_, mem_map.mpr ⟨row, hRow, if_pos hID⟩, rfl, rfl, ?_⟩
    exact iff_of_true (if_pos hPartial) (.inl ⟨hNamed, row, hRow, hID⟩)
  | byGroup ownerEditable found hFound hGroup hUnnamed =>
    refine ⟨_, mem_map.mpr ⟨found, hFound, if_pos hGroup⟩, hGroup, rfl, ?_⟩
    change found.historyQuality = .partly ↔ _
    constructor
    · intro hFoundPartial
      right
      intro row hRow hSame
      rwa [inj_on_of_nodup_map db.groups hRow hFound (hSame.trans hGroup.symm)]
    · rintro (⟨hNamed, row, hRow, hID⟩ | hGroups)
      · exact absurd hID (hUnnamed hNamed row hRow)
      · exact hGroups found hFound hGroup
  | inserted ownerEditable hNone hUnnamed =>
    refine ⟨_, mem_append_right _ mem_cons_self, rfl, rfl, ?_⟩
    exact iff_of_true hPartial (.inr fun row hRow hGroup => absurd hGroup (hNone row hRow))

/-- A partial report marks its session for all later calls, unless the report goes to the complete
session that the group has under another id. -/
theorem partial_report_sticks_iff (format : PayloadFormat) {serverID serverName : String}
    {payload : ReservationUpsert} {occurredAt : Time} {knownOwners : List String}
    (hPartial : payload.historyQuality = "partial")
    (h : db.applyReservation nodeID serverID serverName payload occurredAt knownOwners = .ok after) :
    (∃ row ∈ after.history.sessions, row.group = (nodeID, payload.groupID) ∧
      ∀ calls, (run (call format) after calls).MarkedPartial row) ↔
      db.history.TakesQuality nodeID payload := by
  obtain ⟨id, hUpserted⟩ := applyReservation_upserted h
  obtain ⟨row, hRow, hGroup, hReady, hQuality⟩ := hUpserted.quality (if_pos hPartial)
  rw [← hQuality]
  constructor
  · rintro ⟨reported, hReported, hSame, hMarked⟩
    obtain ⟨new, hNew, hID, hNewPartial⟩ := hMarked []
    -- the group has one session, and the id has one
    obtain rfl := inj_on_of_nodup_map after.history.groups hReported hRow
      (hSame.trans hGroup.symm)
    obtain rfl := inj_on_of_nodup_map after.history.sessionIDs hNew hRow hID
    exact hNewPartial
  · intro hRowPartial
    refine ⟨row, hRow, hGroup, fun calls => ?_⟩
    obtain ⟨new, hNew, hKept⟩ := run_persists format calls row hRow hReady
    exact ⟨new, hNew, hKept.sessionID, hKept.historyQuality hRowPartial⟩

end Runs

/-- A reservation without a session of the gateway, as it is reported after its registration and
after a restart of the daemon. -/
def cliReport (quality : String) : ReservationUpsert :=
  { groupID := "tok_1", holder := "alice", createdAt := claimedNoon, startsAt := claimedNoon
    expiresAt := claimedNoon + 3600 * second, historyQuality := quality
    members := [⟨"res_1", 0⟩] }

open scoped Plain

theorem partial_report_sticks_first :
    let reported := ({} : Database).applyReservation "node_1" "server_1" "alpha"
      (cliReport "partial") claimedNoon []
    let after := ({} : Database).commit reported
    reported.isOk = true ∧
      ∃ row ∈ after.history.sessions, row.group = ("node_1", "tok_1") ∧
        ∀ calls, (run (call (listFormat [])) after calls).MarkedPartial row := by
  have hOk : (applyReservation "node_1" "server_1" "alpha"
      (cliReport "partial") claimedNoon [] {}).isOk = true := by decide +kernel
  refine ⟨hOk, (@partial_report_sticks_iff ascii plain _ _ _ (listFormat []) _ _ _ _ _ rfl
    (commit_of_isOk hOk)).mpr (.inr ?_)⟩
  intro row hRow
  cases hRow

/-- The session stays complete when the restarted daemon reports it. -/
theorem complete_after_partial_report :
    let registered := ({} : Database).commit
      (({} : Database).applyReservation "node_1" "server_1" "alpha" (cliReport "complete") claimedNoon [])
    let restarted := registered.commit
      (registered.applyReservation "node_1" "server_1" "alpha" (cliReport "partial")
        (claimedNoon + 60 * second) [])
    (registered.applyReservation "node_1" "server_1" "alpha" (cliReport "partial")
      (claimedNoon + 60 * second) []).isOk = true ∧
    restarted.history.sessions.map (fun row => (row.groupID, row.historyQuality, row.updatedAt)) =
      [("tok_1", .complete, millis (claimedNoon + 60 * second))] := by
  decide +kernel

end GPUardian
