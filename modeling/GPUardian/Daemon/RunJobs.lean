import GPUardian.Daemon.RunCommand

/-! What becomes of the jobs of runs. A run that returns has ended its job, or leaves an active
authorization with which a later pass can end it; unless its cgroup cannot be removed after the
authorization was released, or the monitor releases it with a save that fails after the rename. -/
namespace GPUardian

open GoStrings GoSlice List Option Interleaving

variable {authorization : Authorization}

namespace RunJobs

variable {jobs : RunJobs} {id other : String}

/-- Every job that was started is still there or was reported as finished. -/
def Reported (jobs : RunJobs) : Prop :=
  ∀ job ∈ jobs.started, job.authorizationID ∈ jobs.keys ∨
    ∃ event ∈ jobs.finished, event.authorizationID = job.authorizationID

variable {time : Time}

theorem mem_keys_remember (h : other ∈ (jobs.rememberRunJob authorization time).keys) :
    other = authorization.id ∨ other ∈ jobs.keys := by
  unfold rememberRunJob at h
  split at h
  · simp only [keys, map_append, mem_append, map_cons, map_nil,
      mem_singleton] at h
    rcases h with hOld | hNew
    · obtain ⟨event, hEvent, hID⟩ := List.mem_map.mp hOld
      exact .inr (List.mem_map.mpr ⟨event, mem_of_mem_filter hEvent, hID⟩)
    · exact .inl hNew
  · exact .inr h

theorem Reported.remember (h : jobs.Reported) (authorization : Authorization) (time : Time) :
    (jobs.rememberRunJob authorization time).Reported := by
  unfold rememberRunJob
  split
  · intro job hJob
    by_cases hSame : job.authorizationID = authorization.id
    · left
      simp [keys, hSame]
    · have hOld : job ∈ jobs.started := by
        rcases mem_append.mp hJob with hOld | hNew
        · exact hOld
        · exact absurd (congrArg JobEvent.authorizationID (mem_singleton.mp hNew)) hSame
      refine (h job hOld).imp (fun hRunning => ?_) id
      obtain ⟨event, hEvent, hID⟩ := List.mem_map.mp hRunning
      refine List.mem_map.mpr ⟨event, mem_append_left _ (mem_filter.mpr ⟨hEvent, ?_⟩), hID⟩
      simpa [hID] using hSame
  · exact h

@[simp]
theorem keys_updateRunJobRootExit (exitCode : Int) (time : Time) :
    (jobs.updateRunJobRootExit id exitCode time).keys = jobs.keys := by
  unfold updateRunJobRootExit keys
  rw [List.map_map]
  refine map_congr_left fun event _ => ?_
  rw [Function.comp_apply]
  split
  · rfl
  · rfl

theorem Reported.updateRunJobRootExit (h : jobs.Reported) (exitCode : Int) (time : Time) :
    (jobs.updateRunJobRootExit id exitCode time).Reported := by
  intro job hJob
  rw [keys_updateRunJobRootExit]
  exact h job hJob

theorem mem_keys_take {reason : String} :
    other ∈ (jobs.takeFinishedRunJob id reason time).keys ↔ other ∈ jobs.keys ∧ other ≠ id := by
  unfold takeFinishedRunJob keys
  split
  · rename_i hNone
    rw [find?_eq_none] at hNone
    refine ⟨fun hOther => ⟨hOther, ?_⟩, And.left⟩
    rintro rfl
    obtain ⟨event, hEvent, hID⟩ := List.mem_map.mp hOther
    exact hNone event hEvent (by simpa using hID)
  · simp only [List.mem_map, mem_filter, ne_eq, decide_not, Bool.not_eq_true',
      decide_eq_false_iff_not]
    constructor
    · rintro ⟨event, ⟨hEvent, hOther⟩, rfl⟩
      exact ⟨⟨event, hEvent, rfl⟩, hOther⟩
    · rintro ⟨⟨event, hEvent, rfl⟩, hOther⟩
      exact ⟨event, ⟨hEvent, hOther⟩, rfl⟩

theorem Reported.take (h : jobs.Reported) (id reason : String) (time : Time) :
    (jobs.takeFinishedRunJob id reason time).Reported := by
  intro job hJob
  by_cases hSame : job.authorizationID = id
  · unfold takeFinishedRunJob at hJob ⊢
    split at hJob
    · exact h job hJob
    · rename_i event hFind
      right
      refine ⟨_, mem_append_right _ (mem_singleton_self _), ?_⟩
      have hID : event.authorizationID = id := by simpa using find?_some hFind
      exact hID.trans hSame.symm
  · have hStarted : job ∈ jobs.started := by
      unfold takeFinishedRunJob at hJob
      split at hJob
      · exact hJob
      · exact hJob
    rcases h job hStarted with hRunning | ⟨event, hEvent, hID⟩
    · exact .inl (mem_keys_take.mpr ⟨hRunning, hSame⟩)
    · refine .inr ⟨event, ?_, hID⟩
      unfold takeFinishedRunJob
      split
      · exact hEvent
      · exact mem_append_left _ hEvent

theorem mem_keys_takeAll {ended : List (String × String)} :
    other ∈ (jobs.takeFinishedRunJobs ended time).keys ↔
      other ∈ jobs.keys ∧ other ∉ ended.map (·.1) := by
  induction ended generalizing jobs with
  | nil => simp [takeFinishedRunJobs]
  | cons first ended ih =>
    rw [takeFinishedRunJobs, foldl_cons, ← takeFinishedRunJobs, ih, mem_keys_take]
    simp only [map_cons, mem_cons, not_or, and_assoc]

theorem Reported.takeAll (h : jobs.Reported) (ended : List (String × String)) (time : Time) :
    (jobs.takeFinishedRunJobs ended time).Reported := by
  induction ended generalizing jobs with
  | nil => exact h
  | cons first ended ih => exact ih (h.take first.1 first.2 time)

end RunJobs

namespace Daemon

variable [Unicode] {codec : Codec} {daemon : Daemon} {row : Authorization}

/-- What a step of the monitor releases is the row of the store as the pass found it. -/
theorem releasedAuthorizations_source (h : daemon.Holds codec) {io : StageIO}
    (hRow : row ∈ daemon.store.state.authorizations)
    (hID : row.id ∈ (daemon.releasedAuthorizations io).map (·.id)) :
    ∃ old ∈ daemon.releasedAuthorizations io, AuthorizationFrom old row := by
  have hStage := h.stage
  unfold StageHolds at hStage
  unfold releasedAuthorizations at hID ⊢
  cases hAt : daemon.stage with
  | authorizations pass =>
    simp only [hAt] at hID hStage ⊢
    rw [dueAuthorizations_eq] at hID ⊢
    rw [hStage.authorizations] at hRow
    have hNamed := mem_of_id_mem hStage.ids
      (fun other hOther => mem_of_mem_filter (mem_of_mem_filter hOther)) hRow hID
    exact ⟨row, hNamed, .refl row⟩
  | managedAuthorizations tick filtered =>
    simp only [hAt] at hID hStage ⊢
    rw [dueAuthorizations_eq] at hID ⊢
    have hNamed := mem_of_id_mem h.backed.ids
      (fun other hOther =>
        (hStage other (mem_of_mem_filter (mem_of_mem_filter hOther))).1) hRow hID
    exact ⟨row, hNamed, .refl row⟩
  | bareAuthorizations pass =>
    simp only [hAt] at hID hStage ⊢
    obtain ⟨old, hOld, hFrom⟩ := hStage.source row hRow
    exact ⟨old, mem_of_id_mem hStage.ids (fun _ => mem_of_mem_filter) hOld
      (hFrom.id_eq ▸ hID), hFrom⟩
  | _ => simp [hAt] at hID

variable [Digest] (grace : Duration) {event : DaemonEvent}

/-- The authorization of a run ends by a release of the run or of the monitor. -/
theorem step_keeps_active (h : daemon.Holds codec) (hEvent : event.Admitted daemon)
    (hRow : row ∈ daemon.store.state.authorizations) (hActive : row.active = true)
    (hMode : row.mode = modeBare) :
    (∃ later ∈ (daemon.step grace codec event).store.state.authorizations,
        AuthorizationFrom row later ∧ later.active = true) ∨
      (∃ errors, event = .request errors (.release row.id)) ∨
      ∃ io, event = .advance io ∧ row.id ∈ (daemon.releasedAuthorizations io).map (·.id) := by
  rcases step_keeps grace h hEvent hRow hActive with
    hStays | ⟨errors, op, hNext, later, hLater, hKeeps⟩
  · exact .inl ⟨row, hStays, .refl row, hActive⟩
  · rcases hKeeps.active with hSame | hReleased
    · exact .inl ⟨later, hLater, hKeeps.source, hSame.trans hActive⟩
    · right
      cases calls_of_next hNext with
      | request errors request op hFree hCalls =>
        left
        cases hCalls with
        | release released hRun =>
          obtain rfl : released = row.id := hReleased
          exact ⟨errors, rfl⟩
        | reclaim tokenHash containers order now =>
          -- a reclaim names rows of containers only
          have hNamed := mem_of_id_mem h.backed.ids
            (staleDockerAuthorizations_subset order _ tokenHash now containers) hRow hReleased
          have hSorted := (order.perm _).mem_iff.mp (mem_of_mem_take hNamed)
          have hDocker := (mem_filter.mp (mem_of_mem_filter hSorted)).2
          simp only [Bool.and_eq_true, beq_iff_eq] at hDocker
          exact absurd (hMode.symm.trans hDocker.1.1.1.1.1.1.2) (by decide)
        | _ => cases hReleased
      | advance io op hCalls =>
        refine .inr ⟨io, rfl, ?_⟩
        unfold releasedAuthorizations
        cases hCalls with
        | authorizations pass hAt | bareAuthorizations pass hAt
        | managedAuthorizations tick filtered hAt =>
          rw [hAt]
          exact hReleased
        | _ => cases hReleased

/-- The authorization of a run is active, and a pass can finish it. -/
def Held (daemon : Daemon) (id : String) : Prop :=
  ∃ row ∈ daemon.store.state.authorizations,
    row.id = id ∧ row.active = true ∧ row.mode = modeBare ∧ 0 < row.rootPID

theorem Held.step {id : String} (hHeld : daemon.Held id) (h : daemon.Holds codec)
    (hEvent : event.Admitted daemon) :
    (daemon.step grace codec event).Held id ∨
      (∃ errors, event = .request errors (.release id)) ∨
      ∃ io, event = .advance io ∧ id ∈ (daemon.releasedAuthorizations io).map (·.id) := by
  obtain ⟨row, hRow, rfl, hActive, hMode, hPID⟩ := hHeld
  refine (step_keeps_active grace h hEvent hRow hActive hMode).imp ?_ id
  rintro ⟨later, hLater, hFrom, hStill⟩
  refine ⟨later, hLater, hFrom.id_eq, hStill, hFrom.mode_eq.trans hMode, ?_⟩
  rw [hFrom.rootPID hPID.ne']
  exact hPID

section Jobs

variable {jobs : RunJobs} {io : StageIO}

theorem mem_keys_endRunJobs {id : String} (h : id ∈ (daemon.endRunJobs codec io jobs).keys) :
    id ∈ jobs.keys := by
  unfold endRunJobs at h
  split at h
  · exact h
  · exact (RunJobs.mem_keys_takeAll.mp h).1

theorem reported_endRunJobs (h : jobs.Reported) :
    (daemon.endRunJobs codec io jobs).Reported := by
  unfold endRunJobs
  split
  · exact h
  · exact h.takeAll _ _

omit [Unicode] [Digest] in
/-- Of the authorizations of runs that a step releases it ends the jobs and removes the cgroups. -/
theorem mem_endedRunJobs (hRow : row ∈ daemon.releasedAuthorizations io)
    (hMode : row.mode = modeBare) :
    row.id ∈ (daemon.endedRunJobs io).map (·.1) ∧ row.cgroupPath ∈ daemon.removedCgroups io := by
  unfold endedRunJobs removedCgroups
  cases hAt : daemon.stage with
  | authorizations pass | managedAuthorizations tick filtered =>
    simp only [List.map_map]
    exact ⟨List.mem_map.mpr ⟨row, mem_filter.mpr ⟨hRow, by simpa using hMode⟩, rfl⟩,
      List.mem_map.mpr ⟨row, hRow, rfl⟩⟩
  | bareAuthorizations pass =>
    simp only [List.map_map]
    exact ⟨List.mem_map.mpr ⟨row, hRow, rfl⟩, List.mem_map.mpr ⟨row, hRow, rfl⟩⟩
  | _ => simp [releasedAuthorizations, hAt] at hRow

/-- The store call of a step that releases authorizations. -/
theorem advance_store_released {id : String}
    (h : id ∈ (daemon.releasedAuthorizations io).map (·.id)) :
    (daemon.step grace codec (.advance io)).store = (daemon.store.call codec io.errors
      (.releaseScopes [] ((daemon.releasedAuthorizations io).map (·.id)) [])).1 := by
  rw [step_store]
  unfold nextCall stageOp
  unfold releasedAuthorizations at h ⊢
  cases hAt : daemon.stage with
  | authorizations pass => rfl
  | managedAuthorizations tick filtered => rfl
  | bareAuthorizations pass => rfl
  | _ => simp [hAt] at h

/-- The authorization of a run that a step of the monitor releases: its cgroup is gone, and its job
has ended, unless the save failed. -/
theorem Held.released {id path : String} (hHeld : daemon.Held id) (h : daemon.Holds codec)
    (hPath : ∀ row ∈ daemon.store.state.authorizations, row.id = id → row.cgroupPath = path)
    (hReleased : id ∈ (daemon.releasedAuthorizations io).map (·.id)) :
    path ∈ daemon.removedCgroups io ∧
      (io.errors.syncDir = none → (daemon.step grace codec (.advance io)).Held id ∨
        id ∉ (daemon.endRunJobs codec io jobs).keys) := by
  obtain ⟨row, hRow, rfl, hActive, hMode, hPID⟩ := hHeld
  obtain ⟨old, hOld, hFrom⟩ := releasedAuthorizations_source h hRow hReleased
  obtain ⟨hJob, hCgroup⟩ := mem_endedRunJobs hOld (hFrom.mode_eq.symm.trans hMode)
  refine ⟨?_, ?_⟩
  · rw [← hPath row hRow rfl, hFrom.cgroupPath_eq]
    exact hCgroup
  · intro hSync
    cases hAnswer : (daemon.store.call codec io.errors
        (.releaseScopes [] ((daemon.releasedAuthorizations io).map (·.id)) [])).2 with
    | error message =>
      left
      have hResult : ((Op.releaseScopes [] ((daemon.releasedAuthorizations io).map (·.id))
          []).effect daemon.store.state).result = .ok () := by
        simp only [Op.effect, GPUardian.releaseScopes]
        split
        · rfl
        · rfl
      refine ⟨row, ?_, rfl, hActive, hMode, hPID⟩
      rw [advance_store_released grace hReleased,
        Store.call_failed h.synced hResult hSync hAnswer]
      exact hRow
    | ok answer =>
      right
      have hEnds : daemon.endRunJobs codec io jobs =
          jobs.takeFinishedRunJobs (daemon.endedRunJobs io) io.now := by
        simp only [endRunJobs, releaseScopes, hAnswer]
      rw [hEnds, RunJobs.mem_keys_takeAll, hFrom.id_eq]
      exact fun hKey => hKey.2 hJob

end Jobs

end Daemon

/-- The request that a run makes with its next step. -/
def Run.request (run : Run) (io : RunIO) : Option Request :=
  match run.stage with
  | .addAuthorization => if io.refused then none else some (.authorize run.authorization io.now)
  | .activate => if io.refused then none else some (.activate run.id io.rootPID)
  | .release | .deferredRelease => some (.release run.id)
  | _ => none

variable {io : RunIO} {run : Run}

/-- A run asks for itself. -/
theorem Run.request_cases {request : Request} (h : run.request io = some request) :
    request = .authorize run.authorization io.now ∨ request = .activate run.id io.rootPID ∨
      request = .release run.id := by
  unfold Run.request at h
  split at h
  · rw [ite_none_left_eq_some] at h
    exact .inl (some.inj h.2).symm
  · rw [ite_none_left_eq_some] at h
    exact .inr (.inl (some.inj h.2).symm)
  · exact .inr (.inr (some.inj h).symm)
  · exact .inr (.inr (some.inj h).symm)
  · cases h

namespace Server

/-- The step of the daemon in a step of the server. -/
def daemonEvent (server : Server) : ServerEvent → Option DaemonEvent
  | .daemon event => if event.ofRun then none else some event
  | .runCommand _ => none
  | .run id io =>
    match server.runs.find? (·.id = id) with
    | none => none
    | some run =>
      if run.stage.locks && server.daemon.stage.locked then none
      else (run.request io).map (.request io.errors ·)

end Server

/-- The ids that the event gives to an authorization. -/
def ServerEvent.drawnIDs : ServerEvent → List String
  | .daemon (.request _ (.authorize authorization _)) | .runCommand authorization =>
    [authorization.id]
  | _ => []

/-- The clock does not go back, and names are new: neither a run nor another authorization gets an
id that is in use. -/
def ServerEvent.Admitted [Digest] (server : Server) (event : ServerEvent) : Prop :=
  (∀ called ∈ server.daemonEvent event, called.Admitted server.daemon) ∧
    ∀ id ∈ event.drawnIDs, id ∉ server.runs.map (·.id) ∧
      id ∉ server.daemon.store.state.authorizations.map (·.id)

instance [Digest] (server : Server) (event : ServerEvent) : Decidable (event.Admitted server) :=
  inferInstanceAs (Decidable (_ ∧ ∀ id ∈ event.drawnIDs, _))

/-- While the job of a run is there: its cgroup can be removed once its authorization is released;
and after it returned, the monitor does not release the authorization with a save that fails after
its rename. -/
def ServerEvent.KeepsJobs (server : Server) : ServerEvent → Prop
  | .daemon (.advance io) =>
    ∀ run ∈ server.runs, run.stage = .returned → run.id ∈ server.jobs.keys →
      run.id ∈ (server.daemon.releasedAuthorizations io).map (·.id) → io.errors.syncDir = none
  | .run id io =>
    ∀ run ∈ server.runs, run.id = id → run.stage = .removeCgroup → run.id ∈ server.jobs.keys →
      server.removes run.cgroupPath io = true
  | _ => True

instance (server : Server) : (event : ServerEvent) → Decidable (event.KeepsJobs server)
  | .daemon (.advance _) => inferInstanceAs (Decidable (∀ run ∈ server.runs, _))
  | .daemon (.request ..) | .daemon (.monitorOnce ..) | .runCommand _ => isTrue trivial
  | .run .. => inferInstanceAs (Decidable (∀ run ∈ server.runs, _))

namespace Server

/-- What is known of the job of a run while the run is at a stage. -/
def Accounted (server : Server) (run : Run) : Prop :=
  match run.stage with
  | .wait => server.daemon.Held run.id ∨ server.missing run.cgroupPath = true
  | .remember =>
    run.id ∉ server.jobs.keys ∧
      (server.daemon.Held run.id ∨ server.missing run.cgroupPath = true)
  | .release | .removeCgroup | .finish _ => True
  | .returned => run.id ∉ server.jobs.keys ∨ server.daemon.Held run.id
  | _ => run.id ∉ server.jobs.keys

structure Accounts [Unicode] (codec : Codec) (cgroupRoot : String) (server : Server) : Prop where
  holds : server.daemon.Holds codec
  ids : (server.runs.map (·.id)).Nodup
  made : ∀ run ∈ server.runs, run.authorization.mode = modeBare ∧
    run.cgroupPath = createCgroup cgroupRoot run.id
  rows : ∀ run ∈ server.runs, ∀ row ∈ server.daemon.store.state.authorizations, row.id = run.id →
    row.cgroupPath = run.cgroupPath ∧ row.mode = modeBare
  known : ∀ id ∈ server.jobs.keys, id ∈ server.runs.map (·.id)
  accounted : ∀ run ∈ server.runs, server.Accounted run
  reported : server.jobs.Reported

/-- What a step does to a run that does not move. -/
structure Follows (before after : Server) (run : Run) : Prop where
  keys : run.id ∈ after.jobs.keys → run.id ∈ before.jobs.keys
  missing : before.missing run.cgroupPath = true → after.missing run.cgroupPath = true
  held : before.daemon.Held run.id → after.daemon.Held run.id ∨
    after.missing run.cgroupPath = true ∧ (run.stage = .returned → run.id ∉ after.jobs.keys)

theorem Accounted.follows {before after : Server} (h : before.Accounted run)
    (hFollows : Follows before after run) : after.Accounted run := by
  have hWaits : before.daemon.Held run.id ∨ before.missing run.cgroupPath = true →
      after.daemon.Held run.id ∨ after.missing run.cgroupPath = true := by
    rintro (hHeld | hMissing)
    · exact (hFollows.held hHeld).imp id And.left
    · exact .inr (hFollows.missing hMissing)
  have hNone : run.id ∉ before.jobs.keys → run.id ∉ after.jobs.keys := mt hFollows.keys
  unfold Accounted at h ⊢
  cases hAt : run.stage with
  | wait =>
    rw [hAt] at h
    exact hWaits h
  | remember =>
    rw [hAt] at h
    exact ⟨hNone h.1, hWaits h.2⟩
  | release | removeCgroup | finish => trivial
  | returned =>
    rw [hAt] at h
    rcases h with hTaken | hHeld
    · exact .inl (hNone hTaken)
    · rcases hFollows.held hHeld with hStill | ⟨_, hTaken⟩
      · exact .inr hStill
      · exact .inl (hTaken hAt)
  | addAuthorization | start | activate | stopCgroup | deferredRelease | deferredRemove =>
    rw [hAt] at h
    exact hNone h

section Moves

variable {server : Server} {run : Run}

theorem mem_setRun {other : Run} (h : other ∈ (server.setRun run).runs) :
    other = run ∨ other ∈ server.runs ∧ other.id ≠ run.id := by
  obtain ⟨old, hOld, hSame⟩ := List.mem_map.mp h
  split at hSame
  · exact .inl hSame.symm
  · rename_i hOther
    exact .inr ⟨hSame ▸ hOld, hSame ▸ hOther⟩

theorem ids_setRun : (server.setRun run).runs.map (·.id) = server.runs.map (·.id) := by
  unfold setRun
  rw [List.map_map]
  refine map_congr_left fun other _ => ?_
  rw [Function.comp_apply]
  split
  · rename_i hSame
    exact hSame.symm
  · rfl

theorem missing_removeCgroup {path other : String} (h : server.missing other = true) :
    (server.removeCgroup path io).missing other = true := by
  unfold removeCgroup
  split
  · simp only [missing, contains_iff_mem] at h ⊢
    exact mem_append_left _ h
  · exact h

theorem removeCgroup_frame (path : String) (io : RunIO) (server : Server) :
    (server.removeCgroup path io).daemon = server.daemon ∧
      (server.removeCgroup path io).jobs = server.jobs ∧
      (server.removeCgroup path io).runs = server.runs := by
  unfold removeCgroup
  split
  · exact ⟨rfl, rfl, rfl⟩
  · exact ⟨rfl, rfl, rfl⟩

/-- A run has moved on, and nothing else but its job and its cgroup. -/
structure Moves (before after : Server) (run next : Run) : Prop where
  runs : after.runs = (before.setRun next).runs
  id_eq : next.id = run.id
  mode_eq : next.authorization.mode = run.authorization.mode
  cgroupPath_eq : next.cgroupPath = run.cgroupPath
  keys : ∀ other, other ≠ run.id → other ∈ after.jobs.keys → other ∈ before.jobs.keys
  missing : ∀ path, before.missing path = true → after.missing path = true
  reported : before.jobs.Reported → after.jobs.Reported

variable [Unicode] [Digest] {codec : Codec}

/-- An authorization that was activated is held. -/
theorem activate_held {errors : SaveErrors} {id : String} {rootPID : Int}
    (hFree : server.daemon.stage.locked = false)
    (hRows : ∀ row ∈ server.daemon.store.state.authorizations, row.id = id → row.mode = modeBare)
    (h : (server.request codec errors (.activate id rootPID)).2 = true) :
    (server.request codec errors (.activate id rootPID)).1.daemon.Held id := by
  have hAnswer : (server.daemon.store.call codec errors (.activateAuthorization id rootPID)).2 =
      .ok () := by
    simp only [request, Request.op] at h
    split at h
    · assumption
    · cases h
  have hDaemon : (server.request codec errors (.activate id rootPID)).1.daemon.store.state =
      (server.daemon.store.call codec errors (.activateAuthorization id rootPID)).1.state := by
    simp [request, Daemon.serve, hFree, Request.op, Daemon.call]
  rw [Store.call] at hAnswer
  obtain ⟨hResult, hState⟩ := Store.perform_ok codec hAnswer
  rw [Daemon.Held, hDaemon, Store.call, hState]
  simp only [Op.effect, Effect.map, activateAuthorization] at hResult ⊢
  split at hResult
  · cases hResult
  · rename_i hPID
    split at hResult
    · cases hResult
    · rename_i row hFind
      split at hResult
      · cases hResult
      · rename_i hLive
        split at hResult
        · cases hResult
        · rename_i hUnset
          have hID : row.id = id := by simpa using find?_some hFind
          have hActive : row.active = true := by
            by_contra hEnded
            simp [hEnded] at hLive
          have hFound : (modifyFirst (·.id == id) ({ · with rootPID := rootPID })
              server.daemon.store.state.authorizations).find? (·.id == id) =
                some { row with rootPID := rootPID } := by
            rw [find?_modifyFirst, hFind]
            · rfl
            · exact fun _ hSame => hSame
          refine ⟨{ row with rootPID := rootPID }, ?_, hID, hActive,
            hRows row (mem_of_find?_eq_some hFind) hID, not_le.mp hPID⟩
          simp only [hPID, hLive, hUnset]
          exact mem_of_find?_eq_some hFound

omit [Unicode] [Digest] in
/-- A run that moves without its job. -/
theorem Moves.keeps {after : Server} {stage : RunStage}
    (hRuns : after.runs = (server.setRun { run with stage := stage }).runs)
    (hJobs : after.jobs = server.jobs)
    (hMissing : ∀ path, server.missing path = true → after.missing path = true) :
    Moves server after run { run with stage := stage } :=
  ⟨hRuns, rfl, rfl, rfl, fun _ _ => hJobs ▸ id, hMissing, hJobs ▸ id⟩

/-- One step of a run: it moves on, and its job is still accounted for. -/
theorem advanceRun_moves (codec : Codec) (io : RunIO) (h : server.Accounted run)
    (hRows : ∀ row ∈ server.daemon.store.state.authorizations, row.id = run.id →
      row.mode = modeBare)
    (hRemoves : run.stage = .removeCgroup → run.id ∈ server.jobs.keys →
      server.removes run.cgroupPath io = true) :
    server.advanceRun codec run io = server ∨
      ∃ next, Moves server (server.advanceRun codec run io) run next ∧
        (server.advanceRun codec run io).Accounted next := by
  have hSame : ∀ path, server.missing path = true → server.missing path = true := fun _ => id
  unfold Accounted at h
  unfold advanceRun
  split
  · exact .inl rfl
  rename_i hFree
  cases hAt : run.stage with
  | returned => exact .inl rfl
  | addAuthorization =>
    rw [hAt] at h
    right
    dsimp only
    split
    · exact ⟨_, .keeps rfl rfl hSame, h⟩
    · cases (server.request codec io.errors (.authorize run.authorization io.now)).2 with
      | false => exact ⟨_, .keeps rfl rfl hSame, h⟩
      | true => exact ⟨_, .keeps rfl rfl hSame, h⟩
  | start =>
    rw [hAt] at h
    right
    cases io.refused with
    | false => exact ⟨_, .keeps rfl rfl hSame, h⟩
    | true => exact ⟨_, .keeps rfl rfl hSame, h⟩
  | activate =>
    rw [hAt] at h
    right
    dsimp only
    split
    · exact ⟨_, .keeps rfl rfl hSame, h⟩
    · split
      · rename_i hOK
        have hUnlocked : server.daemon.stage.locked = false := by
          simpa [hAt, RunStage.locks] using hFree
        have hHeld := activate_held hUnlocked hRows hOK
        exact ⟨_, ⟨rfl, rfl, rfl, rfl, fun _ _ => id, hSame, id⟩, h, .inl hHeld⟩
      · exact ⟨_, .keeps rfl rfl hSame, h⟩
  | stopCgroup =>
    rw [hAt] at h
    right
    dsimp only
    obtain ⟨_, hJobs, hRuns⟩ := removeCgroup_frame run.cgroupPath io server
    split
    · refine ⟨{ run with stage := .deferredRelease }, .keeps ?_ hJobs fun _ => missing_removeCgroup, ?_⟩
      · simp only [setRun, hRuns]
      · show run.id ∉ (server.removeCgroup run.cgroupPath io).jobs.keys
        rw [hJobs]
        exact h
    · exact ⟨_, .keeps rfl rfl hSame, .inl h⟩
  | remember =>
    rw [hAt] at h
    right
    refine ⟨{ run with stage := .wait }, ⟨rfl, rfl, rfl, rfl, ?_, hSame, ?_⟩, h.2⟩
    · intro other hOther hKey
      exact (RunJobs.mem_keys_remember hKey).resolve_left hOther
    · exact fun hReported => hReported.remember run.authorization io.now
  | wait =>
    rw [hAt] at h
    right
    have hJobs (stage : RunStage) : Moves server (({ server with
        jobs := server.jobs.updateRunJobRootExit run.id io.exitCode io.now } : Server).setRun
          { run with stage := stage }) run { run with stage := stage } := by
      refine ⟨rfl, rfl, rfl, rfl, fun other _ hKey => ?_, hSame, fun hReported => ?_⟩
      · rwa [← RunJobs.keys_updateRunJobRootExit]
      · exact hReported.updateRunJobRootExit io.exitCode io.now
    dsimp only
    split
    · exact ⟨_, hJobs .release, trivial⟩
    · rename_i hLeft
      -- the cgroup is still there, so the monitor has not released the authorization
      refine ⟨_, hJobs .returned, .inr (h.resolve_right fun hMissing => hLeft ?_)⟩
      exact Bool.or_eq_true_iff.mpr (.inl hMissing)
  | release =>
    right
    dsimp only
    cases (server.request codec io.errors (.release run.id)).2 with
    | false => exact ⟨_, .keeps rfl rfl hSame, trivial⟩
    | true => exact ⟨_, .keeps rfl rfl hSame, trivial⟩
  | removeCgroup =>
    right
    dsimp only
    obtain ⟨_, hJobs, hRuns⟩ := removeCgroup_frame run.cgroupPath io server
    split
    · refine ⟨{ run with stage := .finish true }, .keeps ?_ hJobs fun _ => missing_removeCgroup, trivial⟩
      simp only [setRun, hRuns]
    · rename_i hLeft
      exact ⟨_, .keeps rfl rfl hSame, fun hKey => hLeft (hRemoves hAt hKey)⟩
  | finish released =>
    right
    have hJobs (stage : RunStage) : Moves server (({ server with
        jobs := server.jobs.takeFinishedRunJob run.id "exited" io.now } : Server).setRun
          { run with stage := stage }) run { run with stage := stage } := by
      refine ⟨rfl, rfl, rfl, rfl, fun other _ hKey => ?_, hSame, fun hReported => ?_⟩
      · exact (RunJobs.mem_keys_take.mp hKey).1
      · exact hReported.take run.id "exited" io.now
    have hTaken : run.id ∉ (server.jobs.takeFinishedRunJob run.id "exited" io.now).keys :=
      fun hKey => (RunJobs.mem_keys_take.mp hKey).2 rfl
    cases released with
    | false => exact ⟨_, hJobs .deferredRelease, hTaken⟩
    | true => exact ⟨_, hJobs .returned, .inl hTaken⟩
  | deferredRelease =>
    rw [hAt] at h
    exact .inr ⟨_, .keeps rfl rfl hSame, h⟩
  | deferredRemove =>
    rw [hAt] at h
    right
    obtain ⟨_, hJobs, hRuns⟩ := removeCgroup_frame run.cgroupPath io server
    refine ⟨{ run with stage := .returned }, .keeps ?_ hJobs fun _ => missing_removeCgroup, .inl ?_⟩
    · simp only [setRun, hRuns]
    · show run.id ∉ (server.removeCgroup run.cgroupPath io).jobs.keys
      rw [hJobs]
      exact h

end Moves

section Steps

variable [Unicode] [Digest] {codec : Codec} (grace : Duration) {cgroupRoot : String}
  {server : Server} {event : ServerEvent}

theorem advanceRun_daemon (run : Run) (io : RunIO) (server : Server) :
    (server.advanceRun codec run io).daemon =
      match (if run.stage.locks && server.daemon.stage.locked then none
        else (run.request io).map (DaemonEvent.request io.errors ·)) with
      | none => server.daemon
      | some called => server.daemon.step grace codec called := by
  unfold advanceRun Run.request
  split
  · rfl
  cases run.stage with
  | addAuthorization | activate =>
    dsimp only
    split
    · rfl
    · dsimp only [Option.map]
      repeat' split
      all_goals rfl
  | stopCgroup | removeCgroup =>
    dsimp only
    split
    · exact (removeCgroup_frame run.cgroupPath io server).1
    · rfl
  | wait =>
    dsimp only
    split
    · rfl
    · rfl
  | deferredRemove => exact (removeCgroup_frame run.cgroupPath io server).1
  | start | remember | release | finish | deferredRelease | returned => rfl

/-- A step of the server makes at most one of the daemon. -/
theorem step_daemon (server : Server) (event : ServerEvent) :
    (server.step codec grace cgroupRoot event).daemon =
      match server.daemonEvent event with
      | none => server.daemon
      | some called => server.daemon.step grace codec called := by
  cases event with
  | runCommand authorization => rfl
  | daemon called =>
    simp only [step, daemonEvent]
    split
    · rfl
    · cases called with
      | request errors request => rfl
      | monitorOnce tick now => rfl
      | advance io => rfl
  | run id io =>
    simp only [step, daemonEvent]
    cases server.runs.find? (·.id = id) with
    | none => rfl
    | some run => exact advanceRun_daemon grace run io server

/-- What a step of the server adds to the authorizations has the id of no run, or is a run's. -/
theorem daemonEvent_adds (h : server.Accounts codec cgroupRoot) (hEvent : event.Admitted server)
    {errors : SaveErrors} {now : Time}
    (hCalled : server.daemonEvent event = some (.request errors (.authorize authorization now)))
    (hRun : run ∈ server.runs) (hID : authorization.id = run.id) :
    authorization = run.authorization := by
  cases event with
  | runCommand => cases hCalled
  | daemon called =>
    simp only [daemonEvent, ite_none_left_eq_some, some.injEq] at hCalled
    obtain ⟨_, rfl⟩ := hCalled
    exact absurd (List.mem_map.mpr ⟨run, hRun, hID.symm⟩)
      (hEvent.2 _ (mem_singleton_self _)).1
  | run id io =>
    simp only [daemonEvent] at hCalled
    split at hCalled
    · cases hCalled
    · rename_i moving hFind
      rw [ite_none_left_eq_some] at hCalled
      obtain ⟨request, hRequest, hSame⟩ := map_eq_some_iff.mp hCalled.2
      rcases Run.request_cases hRequest with rfl | rfl | rfl
      · cases hSame
        rw [inj_on_of_nodup_map h.ids (mem_of_find?_eq_some hFind) hRun hID]
      · cases hSame
      · cases hSame

theorem step_holds (hSmall : Unicode.KeepsSmall)
    (h : server.Accounts codec cgroupRoot) (hEvent : event.Admitted server) :
    (server.step codec grace cgroupRoot event).daemon.Holds codec := by
  rw [step_daemon]
  cases hCalled : server.daemonEvent event with
  | none => exact h.holds
  | some called => exact Daemon.step_holds hSmall grace h.holds (hEvent.1 called hCalled)

/-- The row of a run stays that of the run. -/
theorem step_rows (h : server.Accounts codec cgroupRoot) (hEvent : event.Admitted server)
    (hRun : run ∈ server.runs) {row : Authorization}
    (hRow : row ∈ (server.step codec grace cgroupRoot event).daemon.store.state.authorizations)
    (hID : row.id = run.id) : row.cgroupPath = run.cgroupPath ∧ row.mode = modeBare := by
  rw [step_daemon] at hRow
  cases hCalled : server.daemonEvent event with
  | none =>
    rw [hCalled] at hRow
    exact h.rows run hRun row hRow hID
  | some called =>
    rw [hCalled] at hRow
    have hAdmitted := hEvent.1 called hCalled
    rcases Daemon.step_authorizations grace h.holds hAdmitted hRow with
      ⟨old, hOld, hFrom⟩ | ⟨errors, now, hNext⟩
    · rw [hFrom.cgroupPath_eq, hFrom.mode_eq]
      exact h.rows run hRun old hOld (hFrom.id_eq.symm.trans hID)
    · obtain ⟨authorization, rfl, rfl, _⟩ := Daemon.next_adds hNext
      obtain rfl := daemonEvent_adds h hEvent hCalled hRun hID
      exact ⟨rfl, (h.made run hRun).1⟩

/-- The authorization of a run over a step. -/
theorem held_step (h : server.Accounts codec cgroupRoot) (hEvent : event.Admitted server)
    {id : String} (hHeld : server.daemon.Held id) :
    (server.step codec grace cgroupRoot event).daemon.Held id ∨
      ∃ called, server.daemonEvent event = some called ∧
        ((∃ errors, called = .request errors (.release id)) ∨
          ∃ io, called = .advance io ∧ id ∈ (server.daemon.releasedAuthorizations io).map (·.id)) := by
  rw [step_daemon]
  cases hCalled : server.daemonEvent event with
  | none => exact .inl hHeld
  | some called =>
    rcases hHeld.step grace h.holds (hEvent.1 called hCalled) with hStill | hEnds
    · exact .inl hStill
    · exact .inr ⟨called, rfl, hEnds⟩

/-- Only a step of a run adds a job, which is its own. -/
theorem follows_daemon (h : server.Accounts codec cgroupRoot) {called : DaemonEvent}
    (hEvent : (ServerEvent.daemon called).Admitted server)
    (hKeeps : (ServerEvent.daemon called).KeepsJobs server) (hRun : run ∈ server.runs) :
    Follows server (server.step codec grace cgroupRoot (.daemon called)) run := by
  cases hOwn : called.ofRun with
  | true =>
    have hSame : server.step codec grace cgroupRoot (.daemon called) = server := by
      simp [step, hOwn]
    rw [hSame]
    exact ⟨id, id, .inl⟩
  | false =>
    have hCalled : server.daemonEvent (.daemon called) = some called := by
      simp [daemonEvent, hOwn]
    have hHeld : server.daemon.Held run.id →
        (server.step codec grace cgroupRoot (.daemon called)).daemon.Held run.id ∨
          ∃ io, called = .advance io ∧
            run.id ∈ (server.daemon.releasedAuthorizations io).map (·.id) := by
      intro hBefore
      rcases held_step grace h hEvent hBefore with hStill | ⟨_, hSame, hEnds⟩
      · exact .inl hStill
      · cases hCalled.symm.trans hSame
        refine .inr (hEnds.resolve_left ?_)
        rintro ⟨errors, rfl⟩
        cases hOwn
    cases called with
    | request errors request =>
      have hStep : server.step codec grace cgroupRoot (.daemon (.request errors request)) =
          { server with daemon := server.daemon.step grace codec (.request errors request) } := by
        simp [step, hOwn]
      rw [hStep] at hHeld ⊢
      exact ⟨id, id, fun hBefore => .inl ((hHeld hBefore).resolve_right (by simp))⟩
    | monitorOnce tick now =>
      exact ⟨id, id, fun hBefore => .inl ((hHeld hBefore).resolve_right (by simp))⟩
    | advance io =>
      refine ⟨Daemon.mem_keys_endRunJobs, fun hMissing => ?_, fun hBefore => ?_⟩
      · exact contains_iff_mem.mpr
          (mem_append_left _ (contains_iff_mem.mp hMissing))
      rcases hHeld hBefore with hStill | ⟨_, hSame, hReleased⟩
      · exact .inl hStill
      cases hSame
      obtain ⟨hGone, hEnds⟩ := hBefore.released grace h.holds
        (fun row hRow hID => (h.rows run hRun row hRow hID).1) hReleased
      have hMissing : (server.step codec grace cgroupRoot (.daemon (.advance io))).missing
          run.cgroupPath = true :=
        contains_iff_mem.mpr (mem_append_right _ hGone)
      by_cases hLeft : run.stage = .returned ∧ run.id ∈ server.jobs.keys
      · rcases hEnds (hKeeps run hRun hLeft.1 hLeft.2 hReleased) with hStill | hTaken
        · exact .inl hStill
        · exact .inr ⟨hMissing, fun _ => hTaken⟩
      · exact .inr ⟨hMissing, fun hReturned hKey =>
          hLeft ⟨hReturned, Daemon.mem_keys_endRunJobs hKey⟩⟩

/-- A step of a run, for the other runs. -/
theorem follows_run (h : server.Accounts codec cgroupRoot) {id : String}
    (hEvent : (ServerEvent.run id io).Admitted server) {moving next : Run}
    (hFind : server.runs.find? (·.id = id) = some moving)
    (hMoves : Moves server (server.step codec grace cgroupRoot (.run id io)) moving next)
    (hOther : run.id ≠ moving.id) :
    Follows server (server.step codec grace cgroupRoot (.run id io)) run := by
  refine ⟨hMoves.keys _ hOther, hMoves.missing _, fun hBefore => .inl ?_⟩
  rcases held_step grace h hEvent hBefore with hStill | ⟨called, hCalled, hEnds⟩
  · exact hStill
  · -- the request of the run that moves names that run
    simp only [daemonEvent, hFind, ite_none_left_eq_some] at hCalled
    obtain ⟨request, hRequest, hSame⟩ := map_eq_some_iff.mp hCalled.2
    rcases hEnds with ⟨_, hRelease⟩ | ⟨_, hAdvance, _⟩
    · cases hSame.trans hRelease
      rcases Run.request_cases hRequest with hRequest | hRequest | hRequest
      · cases hRequest
      · cases hRequest
      · exact absurd (Request.release.inj hRequest) hOther
    · cases hSame.trans hAdvance

/-- A run that starts has no jobs yet. -/
theorem runCommand_accounts (h : server.Accounts codec cgroupRoot)
    (hEvent : (ServerEvent.runCommand authorization).Admitted server) :
    (server.step codec grace cgroupRoot (.runCommand authorization)).Accounts codec cgroupRoot := by
  obtain ⟨hNew, hUnused⟩ := hEvent.2 _ (mem_singleton_self _)
  have hRuns {run : Run} (hRun : run ∈
      (server.step codec grace cgroupRoot (.runCommand authorization)).runs) :
      run ∈ server.runs ∨ run.id = authorization.id ∧ run.authorization.mode = modeBare ∧
        run.cgroupPath = createCgroup cgroupRoot run.id ∧ run.stage = .addAuthorization := by
    rcases mem_concat.mp hRun with hOld | rfl
    · exact .inl hOld
    · exact .inr ⟨rfl, rfl, rfl, rfl⟩
  constructor
  case holds => exact h.holds
  case reported => exact h.reported
  case ids =>
    simp only [step, map_append, map_cons, map_nil]
    refine nodup_append.mpr ⟨h.ids, nodup_singleton _, ?_⟩
    rintro id hOld other hLast rfl
    rw [mem_singleton.mp hLast] at hOld
    exact hNew hOld
  case known =>
    intro id hKey
    simp only [step, map_append]
    exact mem_append_left _ (h.known id hKey)
  case made =>
    intro run hRun
    rcases hRuns hRun with hOld | ⟨_, hMode, hPath, _⟩
    · exact h.made run hOld
    · exact ⟨hMode, hPath⟩
  case rows =>
    intro run hRun row hRow hID
    rcases hRuns hRun with hOld | ⟨hOwn, _⟩
    · exact h.rows run hOld row hRow hID
    · exact absurd (List.mem_map.mpr ⟨row, hRow, hID.trans hOwn⟩) hUnused
  case accounted =>
    intro run hRun
    rcases hRuns hRun with hOld | ⟨hOwn, _, _, hAt⟩
    · refine (h.accounted run hOld).follows ⟨id, fun hMissing => ?_, .inl⟩
      -- the cgroup that is made is that of the new run
      have hOther : run.cgroupPath ≠ createCgroup cgroupRoot authorization.id := by
        rw [(h.made run hOld).2]
        intro hSame
        have hID : run.id = authorization.id := by
          simpa [createCgroup, String.append_right_inj] using hSame
        exact hNew (List.mem_map.mpr ⟨run, hOld, hID⟩)
      exact contains_iff_mem.mpr
        (mem_filter.mpr ⟨contains_iff_mem.mp hMissing, by simpa using hOther⟩)
    · rw [Accounted, hAt]
      exact fun hKey => hNew (hOwn ▸ h.known _ hKey)

/-- What the daemon does meanwhile keeps the account, too. -/
theorem daemon_accounts (hSmall : Unicode.KeepsSmall)
    (h : server.Accounts codec cgroupRoot) {called : DaemonEvent}
    (hEvent : (ServerEvent.daemon called).Admitted server)
    (hKeeps : (ServerEvent.daemon called).KeepsJobs server) :
    (server.step codec grace cgroupRoot (.daemon called)).Accounts codec cgroupRoot := by
  have hFrame : (server.step codec grace cgroupRoot (.daemon called)).runs = server.runs ∧
      (∀ id ∈ (server.step codec grace cgroupRoot (.daemon called)).jobs.keys,
        id ∈ server.jobs.keys) ∧
      (server.step codec grace cgroupRoot (.daemon called)).jobs.Reported := by
    simp only [step]
    split
    · exact ⟨rfl, fun _ => id, h.reported⟩
    · cases called with
      | request errors request => exact ⟨rfl, fun _ => id, h.reported⟩
      | monitorOnce tick now => exact ⟨rfl, fun _ => id, h.reported⟩
      | advance io =>
        exact ⟨rfl, fun _ => Daemon.mem_keys_endRunJobs, Daemon.reported_endRunJobs h.reported⟩
  obtain ⟨hRuns, hKeys, hReported⟩ := hFrame
  constructor
  case holds => exact step_holds grace hSmall h hEvent
  case reported => exact hReported
  case ids => exact hRuns ▸ h.ids
  case known => exact fun id hKey => hRuns ▸ h.known id (hKeys id hKey)
  case made => exact hRuns ▸ h.made
  case rows =>
    intro run hRun row hRow hID
    exact step_rows grace h hEvent (hRuns ▸ hRun) hRow hID
  case accounted =>
    intro run hRun
    rw [hRuns] at hRun
    exact (h.accounted run hRun).follows (follows_daemon grace h hEvent hKeeps hRun)

/-- A step of a run keeps the account of its jobs. -/
theorem run_accounts (hSmall : Unicode.KeepsSmall)
    (h : server.Accounts codec cgroupRoot) {id : String}
    (hEvent : (ServerEvent.run id io).Admitted server)
    (hKeeps : (ServerEvent.run id io).KeepsJobs server) :
    (server.step codec grace cgroupRoot (.run id io)).Accounts codec cgroupRoot := by
  cases hFind : server.runs.find? (·.id = id) with
  | none =>
    have hSame : server.step codec grace cgroupRoot (.run id io) = server := by
      simp only [step, hFind]
    rw [hSame]
    exact h
  | some moving =>
    have hMoving := mem_of_find?_eq_some hFind
    have hID : moving.id = id := by simpa using find?_some hFind
    have hStep : server.step codec grace cgroupRoot (.run id io) =
        server.advanceRun codec moving io := by
      simp only [step, hFind]
    rcases advanceRun_moves codec io (h.accounted moving hMoving)
      (fun row hRow hRowID => (h.rows moving hMoving row hRow hRowID).2)
      (fun hAt hKey => hKeeps moving hMoving hID hAt hKey) with hSame | ⟨next, hMoves, hNext⟩
    · rw [hStep, hSame]
      exact h
    · rw [← hStep] at hMoves hNext
      have hRuns {run : Run} (hRun : run ∈
          (server.step codec grace cgroupRoot (.run id io)).runs) :
          run = next ∨ run ∈ server.runs ∧ run.id ≠ moving.id := by
        rw [hMoves.runs] at hRun
        rw [← hMoves.id_eq]
        exact mem_setRun hRun
      constructor
      case holds => exact step_holds grace hSmall h hEvent
      case reported => exact hMoves.reported h.reported
      case ids =>
        rw [hMoves.runs, ids_setRun]
        exact h.ids
      case known =>
        intro other hKey
        rw [hMoves.runs, ids_setRun]
        by_cases hOwn : other = moving.id
        · exact List.mem_map.mpr ⟨moving, hMoving, hOwn.symm⟩
        · exact h.known other (hMoves.keys other hOwn hKey)
      case made =>
        intro run hRun
        rcases hRuns hRun with rfl | ⟨hOld, _⟩
        · rw [hMoves.mode_eq, hMoves.cgroupPath_eq, hMoves.id_eq]
          exact h.made moving hMoving
        · exact h.made run hOld
      case rows =>
        intro run hRun row hRow hRowID
        rcases hRuns hRun with rfl | ⟨hOld, _⟩
        · rw [hMoves.cgroupPath_eq]
          exact step_rows grace h hEvent hMoving hRow (hRowID.trans hMoves.id_eq)
        · exact step_rows grace h hEvent hOld hRow hRowID
      case accounted =>
        intro run hRun
        rcases hRuns hRun with rfl | ⟨hOld, hOther⟩
        · exact hNext
        · exact (h.accounted run hOld).follows (follows_run grace h hEvent hFind hMoves hOther)

theorem step_accounts (hSmall : Unicode.KeepsSmall)
    (h : server.Accounts codec cgroupRoot) (hEvent : event.Admitted server)
    (hKeeps : event.KeepsJobs server) :
    (server.step codec grace cgroupRoot event).Accounts codec cgroupRoot := by
  cases event with
  | daemon called => exact daemon_accounts grace hSmall h hEvent hKeeps
  | runCommand authorization => exact runCommand_accounts grace h hEvent
  | run id io => exact run_accounts grace hSmall h hEvent hKeeps

omit [Digest] in
theorem accounts_start (codec : Codec) (cgroupRoot : String) (telemetry : Bool) :
    ({ jobs := { telemetry := telemetry } } : Server).Accounts codec cgroupRoot where
  holds := Daemon.holds_start codec
  ids := nodup_nil
  made := fun _ hRun => absurd hRun not_mem_nil
  rows := fun _ hRun => absurd hRun not_mem_nil
  known := fun _ hKey => absurd hKey not_mem_nil
  accounted := fun _ hRun => absurd hRun not_mem_nil
  reported := fun _ hJob => absurd hJob not_mem_nil

end Steps

end Server

/-- Over every interleaving of runs, requests and passes in which the cgroup of a released run can be
removed and the monitor does not fail after its rename on a run that has returned: a run that has
returned has ended its job, with its job.finished event, or its authorization is still active and a
pass can finish it. -/
theorem run_job_finished_or_held [Unicode] [Digest]
    (hSmall : ∀ c : Char, c.isLower → Unicode.lower c = c) (codec : Codec) (grace : Duration)
    (cgroupRoot : String) (telemetry : Bool) (events : List ServerEvent)
    (hRun : Along (Server.step codec grace cgroupRoot)
      (fun server event => event.Admitted server ∧ event.KeepsJobs server)
      { jobs := { telemetry := telemetry } } events) :
    let server := Interleaving.run (Server.step codec grace cgroupRoot)
      { jobs := { telemetry := telemetry } } events
    ∀ run ∈ server.runs, run.stage = .returned →
      (run.id ∉ server.jobs.keys ∧ ∀ job ∈ server.jobs.started, job.authorizationID = run.id →
        ∃ event ∈ server.jobs.finished, event.authorizationID = run.id) ∨
      server.daemon.Held run.id := by
  intro server run hMem hReturned
  have h : server.Accounts codec cgroupRoot := hRun.invariant (Server.Accounts codec cgroupRoot)
    (fun _ _ hOK h => Server.step_accounts grace hSmall h hOK.1 hOK.2)
    (Server.accounts_start codec cgroupRoot telemetry)
  have hAccounted := h.accounted run hMem
  rw [Server.Accounted, hReturned] at hAccounted
  rcases hAccounted with hTaken | hHeld
  · refine .inl ⟨hTaken, fun job hJob hID => ?_⟩
    have hReported := h.reported job hJob
    rw [hID] at hReported
    exact hReported.resolve_left hTaken
  · exact .inr hHeld

section Samples

open scoped Plain

def claimKeyOfAlice : Token :=
  { id := "tok_1", hash := "gk_a", secret := "gk_a", name := "alice", mode := "claimed",
    createdAt := 10 }

def aliceRun : Authorization :=
  { id := "auth_1", tokenHash := "gk_a", tokenMode := "claimed", holder := "alice",
    runName := "train", uid := 1000, createdAt := 20 }

def aliceRunRow : Authorization :=
  { aliceRun with
    mode := "bare", cgroupPath := "/sys/fs/cgroup/gpuardian/auth_1", active := true }

def aliceRunCodec : Codec :=
  tableCodec [{ tokens := [claimKeyOfAlice] },
    { tokens := [claimKeyOfAlice], authorizations := [aliceRunRow] },
    { tokens := [claimKeyOfAlice], authorizations := [{ aliceRunRow with rootPID := 7 }] },
    { tokens := [claimKeyOfAlice],
      authorizations := [{ aliceRunRow with rootPID := 7, active := false }] }]

/-- Alice gets a claim key and runs a command, up to the wait for its end. -/
def aliceRunStarts : List ServerEvent :=
  [.daemon (.request {} (.claimKey (.ok true) { secretHex := "a", tokenHex := "1" } "alice" 10)),
    .runCommand aliceRun, .run "auth_1" { now := 20 }, .run "auth_1" { now := 20 },
    .run "auth_1" { now := 20, rootPID := 7 }, .run "auth_1" { now := 21 }]

/-- The command ends and leaves a process in its cgroup; a pass finds the cgroup empty later. -/
def aliceRunDetaches (errors : SaveErrors) : List ServerEvent :=
  aliceRunStarts ++ [.run "auth_1" { now := 30, empty := false }] ++
    (quietPass 40 ++ [DaemonEvent.advance { now := 40 },
      .advance { now := 40, emptied := fun _ => true, errors := errors }]).map ServerEvent.daemon

/-- The run has returned and left its job to a pass. -/
theorem run_job_finished_or_held_alice :
    let server := Interleaving.run (Server.step aliceRunCodec 2 "/sys/fs/cgroup/gpuardian") {}
      (aliceRunDetaches {})
    (server.runs.map fun run => (run.id, run.stage)) = [("auth_1", .returned)] ∧
      ((("auth_1" ∉ server.jobs.keys) ∧ ∀ job ∈ server.jobs.started, job.authorizationID = "auth_1" →
        ∃ event ∈ server.jobs.finished, event.authorizationID = "auth_1") ∨
          server.daemon.Held "auth_1") := by
  have hRun : Along (Server.step aliceRunCodec 2 "/sys/fs/cgroup/gpuardian")
      (fun server event => ServerEvent.Admitted server event ∧ event.KeepsJobs server) {}
      (aliceRunDetaches {}) := by decide +kernel
  have hRuns : ((Interleaving.run (Server.step aliceRunCodec 2
      "/sys/fs/cgroup/gpuardian") {} (aliceRunDetaches {})).runs.map
        fun run => (run.id, run.stage)) = [("auth_1", .returned)] := by decide +kernel
  have hReturned : ("auth_1", RunStage.returned) ∈ (Interleaving.run (Server.step
      aliceRunCodec 2 "/sys/fs/cgroup/gpuardian") {} (aliceRunDetaches {})).runs.map
        fun run => (run.id, run.stage) := by
    rw [hRuns]
    exact mem_singleton_self _
  obtain ⟨run, hMem, hSame⟩ := List.mem_map.mp hReturned
  obtain ⟨hID, hStage⟩ := Prod.mk.inj hSame
  have hEnds := @run_job_finished_or_held ascii plain ascii_lower_of_isLower aliceRunCodec 2
    "/sys/fs/cgroup/gpuardian" true (aliceRunDetaches {}) hRun run hMem hStage
  rw [hID] at hEnds
  exact ⟨hRuns, hEnds⟩

/-- Twice a job is left behind with an inactive authorization: the cgroup of a command that has
ended is busy, and the save of the pass that finds the cgroup empty fails after its rename. -/
theorem run_job_left_behind :
    let busy : RunIO := { now := 30, remove := some "device or resource busy" }
    let busyExit := aliceRunStarts ++ List.replicate 4 (ServerEvent.run "auth_1" busy)
    let unsyncedPass := aliceRunDetaches { syncDir := some "input/output error" }
    ∀ events ∈ [busyExit, unsyncedPass],
      Along (Server.step aliceRunCodec 2 "/sys/fs/cgroup/gpuardian")
        (fun server event => event.Admitted server) {} events ∧
      let server := Interleaving.run (Server.step aliceRunCodec 2 "/sys/fs/cgroup/gpuardian") {} events
      (server.runs.map fun run => (run.id, run.stage)) = [("auth_1", .returned)] ∧
        server.jobs.keys = ["auth_1"] ∧ server.jobs.finished = [] ∧
        server.daemon.store.state.authorizations.map (fun row => (row.id, row.active)) =
          [("auth_1", false)] := by
  decide +kernel

end Samples

end GPUardian
