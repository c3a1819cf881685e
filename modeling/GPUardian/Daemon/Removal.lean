import GPUardian.Daemon.Release

/-! The end of an authorization outside a cgroup over whole runs of the daemon. -/
namespace GPUardian

open GoStrings GoSlice List Interleaving

/-- A counter at least this high has that many clean assessments behind it, the latest ones. -/
theorem clean_suffix (id : String) (assessments : List EvictionAssessment) {count : Nat}
    (h : count ≤ (recordEvictionAssessments assessments {}).authorizations id) :
    ∃ earlier latest, assessments = earlier ++ latest ∧ latest.length = count ∧
      ∀ assessment ∈ latest, assessment.authorizations id = some true := by
  induction assessments using List.reverseRecOn generalizing count with
  | nil =>
    obtain rfl : count = 0 := Nat.le_zero.mp h
    exact ⟨[], [], rfl, rfl, fun _ hNone => absurd hNone not_mem_nil⟩
  | append_singleton assessments last ih =>
    cases count with
    | zero => exact ⟨_, [], (append_nil _).symm, rfl, fun _ hNone => absurd hNone not_mem_nil⟩
    | succ count =>
      have hLast : (recordEvictionAssessments (assessments ++ [last]) {}).authorizations id =
          cleanCount (last.authorizations id)
            ((recordEvictionAssessments assessments {}).authorizations id) := by
        simp [recordEvictionAssessments, foldl_append, recordEvictionAssessment]
      rw [hLast] at h
      cases hFlag : last.authorizations id with
      | none => simp [hFlag, cleanCount] at h
      | some flag =>
        cases flag with
        | false => simp [hFlag, cleanCount] at h
        | true =>
          simp only [hFlag, cleanCount] at h
          obtain ⟨earlier, latest, hSplit, hLength, hClean⟩ := ih (Nat.le_of_succ_le_succ h)
          refine ⟨earlier, latest ++ [last], ?_, by simp [hLength],
            forall_mem_concat.mpr ⟨hClean, hFlag⟩⟩
          rw [hSplit, append_assoc]

namespace Daemon

variable [Unicode]

/-- The step is a reclaim that finds the container of the authorization gone. -/
def Reclaims (daemon : Daemon) (event : DaemonEvent) (row : Authorization) : Prop :=
  ∃ errors tokenHash containers order now,
    event = .request errors (.reclaim tokenHash containers order now) ∧
      row ∈ staleDockerAuthorizations order
        (reclaimableDockerAuthorizations daemon.store.state tokenHash now) containers

/-- The step is the cleanup of a pass, and the assessments up to that of the pass, as many as it
takes, found the scope quiet. -/
def FoundQuiet (daemon : Daemon) (event : DaemonEvent) (row : Authorization) : Prop :=
  ∃ pass io earlier latest, daemon.stage = .authorizations pass ∧ event = .advance io ∧
    daemon.recorded = earlier ++ latest ∧ evictionCleanSamples ≤ latest.length ∧
    latest.getLast? = some pass.assessment ∧
    ∀ assessment ∈ latest, assessment.authorizations row.id = some true

variable {now time : Time} {row : Authorization}

/-- A key that the cleanup found valid is not pruned at an earlier time of the pass. -/
theorem not_prunesToken {state : State} (hTime : now ≤ time) (h : Backed time state) {token : Token}
    (hToken : token ∈ state.tokens) (hNamed : token.hash ≠ "")
    (hActive : tokenActiveAt token time = true) : prunesToken state now token = false := by
  refine prunesToken_eq_false.mpr ⟨tokenActiveAt_antitone hTime hActive, fun hMode => ?_⟩
  obtain ⟨hSet, hBacked⟩ := h.reserved token hToken hMode
  simp only [tokenActiveAt, tokenExpired, timeIsSet, Bool.and_eq_true, Bool.not_eq_true',
    Bool.and_eq_false_iff, Bool.not_eq_false', decide_eq_true_eq] at hActive
  have hBefore : time < token.expiresAt := hActive.2.resolve_left (by simp [hSet.ne'])
  obtain ⟨row, hRow, hBacks⟩ := hBacked hNamed hActive.1 hBefore
  exact liveReservationTokenHash_eq_true.mpr ⟨hNamed, row, hRow, ⟨hBacks.active, hBacks.revoked,
    hBacks.expiresAt ▸ lt_of_le_of_lt hTime hBefore⟩, hBacks.tokenHash⟩

/-- What the cleanup left active is not pruned in that pass. -/
theorem not_prunesAuthorization {state : State} (hTime : now ≤ time) (h : Backed time state)
    (hSettled : Settled time state) (hRow : row ∈ state.authorizations)
    (hActive : row.active = true) : prunesAuthorization state now row = false := by
  obtain ⟨hLive, hUnexpired, hToken⟩ := hSettled row hRow hActive
  refine prunesAuthorization_eq_false.mpr ⟨authorizationActiveAt_antitone hTime
    (by simp [authorizationActiveAt, hActive, hLive, hUnexpired]), expiredTokenHash_eq_false.mpr ?_⟩
  intro token hStored hOwn hNamed
  obtain ⟨valid, hValid, hSame, hTokenActive⟩ := hToken.resolve_left hNamed
  have hEq : valid = token :=
    inj_on_of_nodup_map h.hashes hValid hStored (hSame.trans hOwn.symm)
  exact not_prunesToken hTime h hStored (hOwn ▸ hNamed) (hEq ▸ hTokenActive)

/-- The steps that end an authorization by its id. -/
inductive Releases (daemon : Daemon) (event : DaemonEvent) (id : String) : Prop where
  | run (h : id ∈ daemon.runs)
  | reclaim errors tokenHash containers order now
      (hEvent : event = .request errors (.reclaim tokenHash containers order now))
      (h : id ∈ (staleDockerAuthorizations order
        (reclaimableDockerAuthorizations daemon.store.state tokenHash now) containers).map (·.id))
  | cleanup pass io (hStage : daemon.stage = .authorizations pass)
      (hEvent : event = .advance io) (h : id ∈ (daemon.dueAuthorizations io pass.state).map (·.id))
  | finished pass (io : StageIO) (hStage : daemon.stage = .bareAuthorizations pass)
      (h : id ∈ (pass.state.authorizations.filter (finishedBare io.emptied io.exists)).map (·.id))
  | managed tick filtered io (hStage : daemon.stage = .managedAuthorizations tick filtered)
      (h : id ∈ (daemon.dueAuthorizations io filtered).map (·.id))

theorem next_releases {daemon : Daemon} {event : DaemonEvent} {errors : SaveErrors} {op : Op}
    {id : String} (hNext : daemon.nextCall event = some (errors, op)) (hOp : op.releases id) :
    daemon.Releases event id := by
  cases calls_of_next hNext with
  | request errors request op hFree hCalls =>
    cases hCalls with
    | release released hRun =>
      obtain rfl : released = id := hOp
      exact .run (by simpa [Request.runs] using hRun)
    | reclaim tokenHash containers order now =>
      exact .reclaim errors tokenHash containers order now rfl hOp
    | _ => cases hOp
  | advance io op hCalls =>
    cases hCalls with
    | authorizations pass hAt => exact .cleanup pass io hAt rfl hOp
    | bareAuthorizations pass hAt => exact .finished pass io hAt hOp
    | managedAuthorizations tick filtered hAt => exact .managed tick filtered io hAt hOp
    | _ => cases hOp

/-- The prune of a step is that of a pass in which everything went well. -/
theorem next_prunes {daemon : Daemon} {event : DaemonEvent} {errors : SaveErrors}
    (hNext : daemon.nextCall event = some (errors, .prune now)) :
    ∃ pass, daemon.stage = .prune pass ∧ pass.cleanupOK = true ∧ now = pass.now := by
  cases calls_of_next hNext with
  | request errors request op hFree hCalls => cases hCalls
  | advance io op hCalls =>
    cases hCalls with
    | prune pass hAt hOK => exact ⟨pass, hAt, hOK, rfl⟩

omit [Unicode] in
/-- A row that a list of rows of the store names is in that list. -/
theorem mem_of_id_mem {rows named : List Authorization} (hRows : (rows.map (·.id)).Nodup)
    (hNamed : named ⊆ rows) (hRow : row ∈ rows) (h : row.id ∈ named.map (·.id)) : row ∈ named := by
  obtain ⟨other, hOther, hID⟩ := mem_map.mp h
  have hSame : other = row := inj_on_of_nodup_map hRows (hNamed hOther) hRow hID
  exact hSame ▸ hOther

theorem staleDockerAuthorizations_subset (order : CreationOrder) (state : State)
    (tokenHash : String) (now : Time) (containers : List DockerContainer) :
    staleDockerAuthorizations order (reclaimableDockerAuthorizations state tokenHash now)
      containers ⊆ state.authorizations := by
  intro row hRow
  have hSorted := mem_of_mem_take hRow
  have hAbsent := (order.perm _).mem_iff.mp hSorted
  exact mem_of_mem_filter (mem_of_mem_filter hAbsent)

section Ending

variable {codec : Codec} {daemon : Daemon} {event : DaemonEvent} {row : Authorization}

/-- What ends an authorization outside a cgroup that is not a run's. -/
theorem Releases.cases (h : daemon.Holds codec) (hRow : row ∈ daemon.store.state.authorizations)
    (hMode : row.mode ≠ modeBare) (hCgroup : row.cgroupPath = "")
    (hReleases : daemon.Releases event row.id) :
    daemon.Reclaims event row ∨ daemon.FoundQuiet event row := by
  have hIDs := h.backed.ids
  have hStage := h.stage
  unfold StageHolds at hStage
  cases hReleases with
  | run hRun => exact absurd (h.runs row hRow hRun) hMode
  | reclaim errors tokenHash containers order now hEvent hStale =>
    exact .inl ⟨errors, tokenHash, containers, order, now, hEvent,
      mem_of_id_mem hIDs (staleDockerAuthorizations_subset ..) hRow hStale⟩
  | cleanup pass io hAt hEvent hDue =>
    right
    rw [hAt] at hStage
    rw [hStage.authorizations] at hRow hIDs
    rw [dueAuthorizations_eq] at hDue
    have hMem := mem_of_id_mem hIDs
      (fun other hOther => mem_of_mem_filter (mem_of_mem_filter hOther)) hRow hDue
    have hReady : evictionCleanSamples ≤ daemon.clean.authorizations row.id := by
      have hFree := (mem_filter.mp hMem).2
      simpa [heldForCleanup, hCgroup, hMode, authorizationScopeReady] using hFree
    rw [h.counted] at hReady
    obtain ⟨earlier, latest, hSplit, hLength, hClean⟩ := clean_suffix row.id _ hReady
    refine ⟨pass, io, earlier, latest, hAt, hEvent, hSplit, hLength.ge, ?_, hClean⟩
    have hLast := hStage.recorded
    rwa [hSplit, getLast?_append_of_ne_nil] at hLast
    rintro rfl
    cases hLength
  | finished pass io hAt hFinished =>
    rw [hAt] at hStage
    obtain ⟨old, hOld, hFrom⟩ := hStage.source row hRow
    have hMem := mem_of_id_mem hStage.ids (fun _ => mem_of_mem_filter) hOld (hFrom.id_eq ▸ hFinished)
    have hBare := (mem_filter.mp hMem).2
    simp only [finishedBare, Bool.and_eq_true, beq_iff_eq] at hBare
    exact absurd (hFrom.mode_eq.trans hBare.1.1.2) hMode
  | managed tick filtered io hAt hDue =>
    rw [hAt] at hStage
    rw [dueAuthorizations_eq] at hDue
    obtain ⟨other, hOther, hID⟩ := mem_map.mp hDue
    obtain ⟨hStored, hManaged⟩ :=
      hStage other (mem_of_mem_filter (mem_of_mem_filter hOther))
    have hSame : other = row := inj_on_of_nodup_map hIDs hStored hRow hID
    exact absurd (hSame ▸ hCgroup) hManaged

variable [Digest] (grace : Duration)

/-- What the store call of a step does to the authorizations. -/
theorem step_rewrites (h : daemon.Holds codec) (hEvent : event.Admitted daemon) :
    (daemon.step grace codec event).store.state.authorizations =
        daemon.store.state.authorizations ∨
      ∃ errors op, daemon.nextCall event = some (errors, op) ∧
        op.Rewrites daemon.store.state
          (daemon.step grace codec event).store.state.authorizations := by
  rcases step_state_cases grace event h.synced with hSame | ⟨errors, op, hNext, hState⟩
  · exact .inl (congrArg State.authorizations hSame)
  · refine .inr ⟨errors, op, hNext, ?_⟩
    rw [hState]
    exact Op.rewrites daemon.store.state op (next_careful grace h hEvent hNext).1

/-- An active row stays as it is, or as the call of the step keeps it. -/
theorem step_keeps (h : daemon.Holds codec) (hEvent : event.Admitted daemon)
    (hRow : row ∈ daemon.store.state.authorizations) (hActive : row.active = true) :
    row ∈ (daemon.step grace codec event).store.state.authorizations ∨
      ∃ errors op, daemon.nextCall event = some (errors, op) ∧
        ∃ later ∈ (daemon.step grace codec event).store.state.authorizations, op.Keeps row later := by
  rcases step_rewrites grace h hEvent with hSame | ⟨errors, op, hNext, hRewrites⟩
  · exact .inl (hSame ▸ hRow)
  · cases hRewrites with
    | kept hKept => exact .inr ⟨errors, op, hNext, forall₂_partner hKept hRow⟩
    | added new now hOp hRows => exact .inl (hRows ▸ mem_append_left _ hRow)
    | dropped authorizationIDs leaseIDs hOp hRows =>
      rw [hRows]
      exact .inl (mem_filter.mpr ⟨hRow, by simp [hActive]⟩)
    | pruned now hOp hRows =>
      subst hOp
      obtain ⟨pass, hAt, hOK, rfl⟩ := next_prunes hNext
      have hStage := h.stage
      rw [StageHolds, hAt] at hStage
      obtain ⟨time, hNow, _, hBacked, hSettled⟩ := hStage.settled
      have hSpared := not_prunesAuthorization hNow hBacked (hSettled hOK) hRow hActive
      rw [hRows]
      exact .inl (mem_filter.mpr ⟨hRow, by simp [hSpared]⟩)

/-- A step that removes a row finds it ended. -/
theorem step_removes (h : daemon.Holds codec) (hEvent : event.Admitted daemon)
    (hRow : row ∈ daemon.store.state.authorizations)
    (hGone : ∀ later ∈ (daemon.step grace codec event).store.state.authorizations,
      later.id ≠ row.id) : row.active = false := by
  by_contra hActive
  rcases step_keeps grace h hEvent hRow (eq_true_of_ne_false hActive) with
    hStays | ⟨_, _, _, later, hLater, hKeeps⟩
  · exact hGone row hStays rfl
  · exact hGone later hLater hKeeps.source.id_eq

/-- A step that ends a row outside a cgroup reclaims it or found it quiet. -/
theorem step_ends (hSmall : Unicode.KeepsSmall) (h : daemon.Holds codec)
    (hEvent : event.Admitted daemon) (hRow : row ∈ daemon.store.state.authorizations)
    (hMode : row.mode ≠ modeBare) (hCgroup : row.cgroupPath = "") {later : Authorization}
    (hLater : later ∈ (daemon.step grace codec event).store.state.authorizations)
    (hID : later.id = row.id) (hActive : row.active = true) (hEnded : later.active = false) :
    daemon.Reclaims event row ∨ daemon.FoundQuiet event row := by
  have hIDs := (step_backed grace hSmall h hEvent).ids
  -- wherever the row itself is still there, it is the later one
  have hKeptRow : row ∉ (daemon.step grace codec event).store.state.authorizations := by
    intro hStill
    have hSame : later = row := inj_on_of_nodup_map hIDs hLater hStill hID
    simp [hSame, hActive] at hEnded
  rcases step_rewrites grace h hEvent with hSame | ⟨errors, op, hNext, hRewrites⟩
  · exact absurd (hSame ▸ hRow) hKeptRow
  · cases hRewrites with
    | kept hKept =>
      obtain ⟨kept, hMem, hKeeps⟩ := forall₂_partner hKept hRow
      have hSame : later = kept :=
        inj_on_of_nodup_map hIDs hLater hMem (hID.trans hKeeps.source.id_eq.symm)
      rcases hKeeps.active with hSameFlag | hReleased
      · rw [← hSame, hEnded, hActive] at hSameFlag
        cases hSameFlag
      · exact (next_releases hNext hReleased).cases h hRow hMode hCgroup
    | added new now hOp hRows => exact absurd (hRows ▸ mem_append_left _ hRow) hKeptRow
    | dropped authorizationIDs leaseIDs hOp hRows =>
      refine absurd ?_ hKeptRow
      rw [hRows]
      exact mem_filter.mpr ⟨hRow, by simp [hCgroup]⟩
    | pruned now hOp hRows =>
      have hOld : later ∈ daemon.store.state.authorizations :=
        mem_of_mem_filter (hRows ▸ hLater)
      have hSame : later = row := inj_on_of_nodup_map h.backed.ids hOld hRow hID
      simp [hSame, hActive] at hEnded

/-- A new row is a live one. -/
theorem step_new (h : daemon.Holds codec) (hEvent : event.Admitted daemon)
    {later : Authorization}
    (hLater : later ∈ (daemon.step grace codec event).store.state.authorizations)
    (hNew : ∀ row ∈ daemon.store.state.authorizations, row.id ≠ later.id) : later.active = true := by
  rcases step_authorizations grace h hEvent hLater with ⟨old, hOld, hFrom⟩ | ⟨errors, now, hNext⟩
  · exact absurd hFrom.id_eq.symm (hNew old hOld)
  · obtain ⟨authorization, _, rfl, _⟩ := next_adds hNext
    rfl

end Ending

end Daemon

open Daemon

theorem Daemon.holds_start [Unicode] (codec : Codec) : ({} : Daemon).Holds codec where
  synced := Store.synced_empty codec
  clock := le_rfl
  backed := Backed.empty
  runs := fun _ hRow => absurd hRow not_mem_nil
  counted := rfl
  stage := trivial

/-- Over every run of requests and passes with a clock that does not go back, whatever saves fail:
an authorization outside a cgroup, unless it is a run's, is removed only after it ended. It ends
only when it is reclaimed or when the cleanup of a pass has found its scope quiet in that pass and
often enough before. -/
theorem authorization_ends_reclaimed_or_quiet [Unicode] [Digest]
    (hSmall : ∀ c : Char, c.isLower → Unicode.lower c = c) (grace : Duration) (codec : Codec)
    (events : List DaemonEvent) (event : DaemonEvent)
    (hRun : Along (step grace codec)
      (fun daemon event => event.Admitted daemon) {} (events ++ [event])) :
    let before := run (step grace codec) {} events
    let after := run (step grace codec) {} (events ++ [event])
    (∀ later ∈ after.store.state.authorizations,
        (∀ row ∈ before.store.state.authorizations, row.id ≠ later.id) → later.active = true) ∧
      ∀ row ∈ before.store.state.authorizations, row.mode ≠ modeBare → row.cgroupPath = "" →
        ((∀ later ∈ after.store.state.authorizations, later.id ≠ row.id) → row.active = false) ∧
        ∀ later ∈ after.store.state.authorizations, later.id = row.id → row.active = true →
          later.active = false → before.Reclaims event row ∨ before.FoundQuiet event row := by
  intro before after
  obtain ⟨hEarlier, hEvent, _⟩ := along_append.mp hRun
  have hBefore : before.Holds codec := hEarlier.invariant (Holds codec)
    (fun _ _ hAdmitted h => step_holds hSmall grace h hAdmitted) (holds_start codec)
  have hAfter : after = before.step grace codec event := Interleaving.run_append _ _ _ _
  rw [hAfter]
  refine ⟨fun later hLater => step_new grace hBefore hEvent hLater, ?_⟩
  intro row hRow hMode hCgroup
  refine ⟨step_removes grace hBefore hEvent hRow, ?_⟩
  intro later hLater
  exact step_ends grace hSmall hBefore hEvent hRow hMode hCgroup hLater

section Samples

open scoped Plain

/-- A container that is allowed on a claim. -/
def serving : Authorization :=
  { id := "auth_1", mode := "docker", tokenMode := "claimed", holder := "alice", createdAt := 10,
    containerPattern := "web", active := true }

def servingCodec : Codec :=
  tableCodec [{ authorizations := [serving] }, { authorizations := [{ serving with revoked := true }] },
    { authorizations := [{ serving with revoked := true, active := false }] }]

/-- A pass over an idle node up to the cleanup of authorizations. -/
def quietPass (time : Time) : List DaemonEvent :=
  [.monitorOnce (tickAt time {} [] [] (.ok intruder)) time, .advance { now := time },
    .advance { now := time }]

/-- The container is allowed and revoked; the third pass after that comes to its cleanup. -/
def revokedServing : List DaemonEvent :=
  [.request {} (.authorize serving 10), .request {} (.revoke "auth_1" 20)] ++
    (quietPass 30 ++ List.replicate 5 (.advance { now := 30 })) ++
    (quietPass 40 ++ List.replicate 5 (.advance { now := 40 })) ++ quietPass 50

theorem authorization_ends_reclaimed_or_quiet_serving :
    let before := run (step 2 servingCodec) {} revokedServing
    before.store.state.authorizations = [{ serving with revoked := true }] ∧
      ((before.step 2 servingCodec (.advance { now := 50 })).store.state.authorizations =
        [{ serving with revoked := true, active := false }]) ∧
      (before.Reclaims (.advance { now := 50 }) { serving with revoked := true } ∨
        before.FoundQuiet (.advance { now := 50 }) { serving with revoked := true }) := by
  have hRun : Along (step 2 servingCodec)
      (fun daemon event => DaemonEvent.Admitted daemon event) {}
      (revokedServing ++ [.advance { now := 50 }]) := by decide +kernel
  have hBefore : (run (step 2 servingCodec) {}
      revokedServing).store.state.authorizations = [{ serving with revoked := true }] := by
    decide +kernel
  have hAfter : (run (step 2 servingCodec) {}
      (revokedServing ++ [.advance { now := 50 }])).store.state.authorizations =
        [{ serving with revoked := true, active := false }] := by
    decide +kernel
  obtain ⟨_, hRows⟩ := @authorization_ends_reclaimed_or_quiet ascii plain ascii_lower_of_isLower 2
    servingCodec revokedServing (.advance { now := 50 }) hRun
  refine ⟨hBefore, hAfter, ?_⟩
  refine (hRows { serving with revoked := true } ?_ (by decide) rfl).2
    { serving with revoked := true, active := false } ?_ rfl rfl rfl
  · rw [hBefore]
    exact mem_singleton_self _
  · rw [hAfter]
    exact mem_singleton_self _

end Samples

end GPUardian
