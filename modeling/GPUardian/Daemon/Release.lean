import GPUardian.Daemon.Steps
import GPUardian.Store.Backing

/-! How an authorization outside a cgroup ends. Its row is evidence for the eviction of its
processes, so the daemon keeps it until the scan has found the scope quiet often enough; what
removes rows for good finds it inactive. -/
namespace GPUardian

open GoStrings GoSlice List

/-- Every active authorization is one that the cleanup at that time leaves alone. -/
def Settled (time : Time) (state : State) : Prop :=
  ∀ row ∈ state.authorizations, row.active = true →
    row.revoked = false ∧ authorizationExpired row time = false ∧
      (row.tokenHash = "" ∨
        ∃ token ∈ state.tokens, token.hash = row.tokenHash ∧ tokenActiveAt token time = true)

variable {time : Time}

theorem Settled.same {before after : State} (h : Settled time before)
    (hSame : SameScopes before after) : Settled time after := by
  intro row hRow hActive
  rw [hSame.authorizations] at hRow
  obtain ⟨hLive, hUnexpired, hToken⟩ := h row hRow hActive
  refine ⟨hLive, hUnexpired, hToken.imp id ?_⟩
  rintro ⟨token, hStored, hValid⟩
  exact ⟨token, hSame.tokens hStored, hValid⟩

theorem Settled.ends {before after : State} (h : Settled time before)
    (hEnds : EndsScopes before after) : Settled time after := by
  intro row hRow hActive
  obtain ⟨old, hOld, rfl | rfl⟩ := hEnds.authorizations row hRow
  · rw [hEnds.tokens]
    exact h _ hOld hActive
  · cases hActive

namespace Daemon

variable [Unicode]

/-- The store is still what the pass found, as far as the cleanup of authorizations goes. -/
structure Unchanged (pass : PassState) (daemon : Daemon) : Prop where
  ids : (pass.state.authorizations.map (·.id)).Nodup
  authorizations : daemon.store.state.authorizations = pass.state.authorizations
  tokens : pass.state.tokens ⊆ daemon.store.state.tokens
  now : pass.now ≤ daemon.clock
  recorded : daemon.recorded.getLast? = some pass.assessment

/-- After the cleanup of authorizations, at some time of the pass: each row comes from one of
the snapshot and, if nothing had to wait, no active one is stale. -/
structure CleanedUp (pass : PassState) (daemon : Daemon) : Prop where
  ids : (pass.state.authorizations.map (·.id)).Nodup
  source : ∀ row ∈ daemon.store.state.authorizations,
    ∃ old ∈ pass.state.authorizations, AuthorizationFrom old row
  settled : ∃ time, pass.now ≤ time ∧ time ≤ daemon.clock ∧ Backed time daemon.store.state ∧
    (pass.cleanupOK = true → Settled time daemon.store.state)

/-- What the stages of the monitor rely on. -/
def StageHolds (daemon : Daemon) : Prop :=
  match daemon.stage with
  | .claims pass _ | .reservations pass =>
    daemon.Unchanged pass ∧ daemon.store.state.reservations = pass.state.reservations
  | .authorizations pass => daemon.Unchanged pass
  | .bareAuthorizations pass | .leases pass | .bareLeases pass | .prune pass => daemon.CleanedUp pass
  | .managedAuthorizations _ filtered =>
    ∀ row ∈ filtered.authorizations,
      row ∈ daemon.store.state.authorizations ∧ row.cgroupPath ≠ ""
  | _ => True

structure Holds (codec : Codec) (daemon : Daemon) : Prop where
  synced : daemon.store.Synced codec
  clock : 0 ≤ daemon.clock
  backed : Backed daemon.clock daemon.store.state
  runs : ∀ row ∈ daemon.store.state.authorizations, row.id ∈ daemon.runs → row.mode = modeBare
  counted : daemon.clean = recordEvictionAssessments daemon.recorded {}
  stage : daemon.StageHolds

variable {state : State} {now : Time} {io : StageIO}

section Step

variable [Digest] (grace : Duration) {codec : Codec} {daemon : Daemon} {event : DaemonEvent}

omit [Unicode] [Digest] in
/-- The cleanup of reservations releases none that lasts. -/
theorem releasedReservations_spares (hRows : (state.reservations.map (·.id)).Nodup) :
    ∀ row ∈ state.reservations, row.active = true → row.revoked = false → now < row.expiresAt →
      row.id ∉ (releasedReservations state now).map (·.id) := by
  intro row hRow _ hLive hLasts hReleased
  obtain ⟨other, hOther, hID⟩ := mem_map.mp hReleased
  obtain ⟨hStored, hDue⟩ := mem_filter.mp hOther
  have hSame : other = row := inj_on_of_nodup_map hRows hStored hRow hID
  rw [hSame] at hDue
  simp [hLive, hLasts] at hDue

theorem stageCalls_careful (h : daemon.Holds codec) (hNow : daemon.clock ≤ io.now) {op : Op}
    (hOp : daemon.StageCalls io op) : op.daemon = true ∧ op.Careful io.now daemon.store.state := by
  have hStage := h.stage
  unfold StageHolds at hStage
  cases hOp with
  | claim | releaseClaim | managedScopes => exact ⟨rfl, rfl⟩
  | reservations pass hAt =>
    rw [hAt] at hStage
    refine ⟨rfl, ?_⟩
    rw [Op.Careful, hStage.2]
    exact releasedReservations_spares (hStage.2 ▸ h.backed.rows)
  | prune pass hAt hOK =>
    rw [hAt] at hStage
    obtain ⟨time, hBefore, hTime, _⟩ := hStage.settled
    exact ⟨rfl, hBefore.trans (hTime.trans hNow)⟩
  | entitlements => exact ⟨rfl, le_rfl⟩
  | authorizations | bareAuthorizations | leases | managedAuthorizations =>
    exact ⟨rfl, fun _ _ _ _ _ => not_mem_nil⟩

/-- The calls of a step are careful at the time it reads. -/
theorem next_careful (h : daemon.Holds codec) (hEvent : event.Admitted daemon)
    {errors : SaveErrors} {op : Op} (hNext : daemon.nextCall event = some (errors, op)) :
    op.daemon = true ∧ op.Careful (daemon.step grace codec event).clock daemon.store.state := by
  cases calls_of_next hNext with
  | advance io op hCalls =>
    rw [show (daemon.step grace codec (.advance io)).clock = io.now from
      advance_clock codec io daemon]
    exact stageCalls_careful h hEvent hCalls
  | request errors request op hFree hCalls =>
    obtain ⟨hTime, hDraws⟩ := hEvent
    cases hCalls with
    | claimKey | bookManaged => exact ⟨rfl, hDraws⟩
    | syncKeys | activate | release | revoke | addBypass => exact ⟨rfl, rfl⟩
    | authorize authorization now => exact ⟨rfl, hDraws.1⟩
    | book rootKey fresh name purpose session gpus startsAt expiresAt now hNode =>
      exact ⟨rfl, hNode, h.clock.trans (hTime now rfl), hDraws⟩
    | reclaim => exact ⟨rfl, fun _ _ _ _ _ => not_mem_nil⟩

theorem step_synced (event : DaemonEvent) (h : daemon.store.Synced codec) :
    (daemon.step grace codec event).store.Synced codec := by
  rw [step_store]
  cases daemon.nextCall event with
  | none => exact h
  | some call => exact Store.call_synced codec call.1 call.2 h

theorem step_backed (hSmall : Unicode.KeepsSmall)
    (h : daemon.Holds codec) (hEvent : event.Admitted daemon) :
    Backed (daemon.step grace codec event).clock (daemon.step grace codec event).store.state := by
  have hBefore : Backed (daemon.step grace codec event).clock daemon.store.state :=
    h.backed.later ((step_extends grace daemon event).clock hEvent)
  rcases step_state_cases grace event h.synced with hSame | ⟨errors, op, hNext, hState⟩
  · rwa [hSame]
  · rw [hState]
    exact Op.backed hSmall (next_careful grace h hEvent hNext).2 hBefore

/-- A call leaves rows of before or adds the one it is given. -/
theorem step_authorizations (h : daemon.Holds codec) (hEvent : event.Admitted daemon)
    {later : Authorization}
    (hLater : later ∈ (daemon.step grace codec event).store.state.authorizations) :
    (∃ row ∈ daemon.store.state.authorizations, AuthorizationFrom row later) ∨
      ∃ errors now, daemon.nextCall event = some (errors, .addAuthorization later now) := by
  rcases step_state_cases grace event h.synced with hSame | ⟨errors, op, hNext, hState⟩
  · exact .inl ⟨later, hSame ▸ hLater, .refl later⟩
  · rw [hState] at hLater
    rcases Op.authorizations daemon.store.state op (next_careful grace h hEvent hNext).1 with
      hLeaves | ⟨row, now, rfl, hRows⟩
    · exact .inl (hLeaves.partner hLater)
    · rw [hRows] at hLater
      rcases mem_concat.mp hLater with hOld | rfl
      · exact .inl ⟨later, hOld, .refl later⟩
      · exact .inr ⟨errors, now, hNext⟩

/-- The authorizations of runs stay those of bare processes. -/
theorem step_runs (h : daemon.Holds codec) (hEvent : event.Admitted daemon) :
    ∀ row ∈ (daemon.step grace codec event).store.state.authorizations,
      row.id ∈ (daemon.step grace codec event).runs → row.mode = modeBare := by
  intro row hRow hRun
  -- only a request to authorize a run adds to the runs, and its id is new
  have hRuns : row.id ∈ daemon.runs ∨ ∃ errors authorization now,
      event = .request errors (.authorize authorization now) ∧
        authorization.mode = modeBare ∧ row.id = authorization.id := by
    refine ((step_extends grace daemon event).runs row.id hRun).imp_right ?_
    rintro ⟨errors, request, rfl, hNew⟩
    cases request with
    | authorize authorization now =>
      simp only [Request.runs] at hNew
      split at hNew
      · rename_i hBare
        exact ⟨errors, authorization, now, rfl, hBare, mem_singleton.mp hNew⟩
      · cases hNew
    | _ => cases hNew
  rcases step_authorizations grace h hEvent hRow with ⟨old, hOld, hFrom⟩ | ⟨errors, now, hNext⟩
  · rw [hFrom.mode_eq]
    rcases hRuns with hKnown | ⟨errors, authorization, now, rfl, _, hID⟩
    · exact h.runs old hOld (hFrom.id_eq ▸ hKnown)
    · refine absurd ?_ hEvent.2.1
      exact mem_map.mpr ⟨old, hOld, hFrom.id_eq.symm.trans hID⟩
  · obtain ⟨authorization, rfl, rfl, _⟩ := next_adds hNext
    by_contra hOther
    rcases hRuns with hKnown | ⟨_, _, _, hSame, hBare, _⟩
    · exact hEvent.2.2 hOther hKnown
    · cases hSame
      exact hOther hBare

theorem step_counted (event : DaemonEvent)
    (h : daemon.clean = recordEvictionAssessments daemon.recorded {}) :
    (daemon.step grace codec event).clean =
      recordEvictionAssessments (daemon.step grace codec event).recorded {} := by
  obtain ⟨assessments, hClean, hRecorded⟩ := (step_extends grace daemon event).recorded
  rw [hClean, hRecorded, h]
  exact (foldl_append ..).symm

end Step

section Stages

variable {pass : PassState} {daemon next : Daemon}

omit [Unicode] in
theorem Unchanged.same (h : daemon.Unchanged pass)
    (hSame : SameScopes daemon.store.state next.store.state) (hClock : daemon.clock ≤ next.clock)
    (hRecorded : next.recorded = daemon.recorded) : next.Unchanged pass where
  ids := h.ids
  authorizations := hSame.authorizations.trans h.authorizations
  tokens _ hToken := hSame.tokens (h.tokens hToken)
  now := h.now.trans hClock
  recorded := hRecorded ▸ h.recorded

/-- What the later stages and a claim key request leave is still cleaned up. -/
theorem CleanedUp.step (h : daemon.CleanedUp pass)
    (hSource : ∀ later ∈ next.store.state.authorizations,
      ∃ old ∈ daemon.store.state.authorizations, AuthorizationFrom old later)
    (hBacked : ∀ time, Backed time daemon.store.state → Backed time next.store.state)
    (hSettled : ∀ time, Settled time daemon.store.state → Settled time next.store.state)
    (hClock : daemon.clock ≤ next.clock) : next.CleanedUp pass where
  ids := h.ids
  source later hLater := by
    obtain ⟨middle, hMiddle, hLate⟩ := hSource later hLater
    obtain ⟨old, hOld, hEarly⟩ := h.source middle hMiddle
    exact ⟨old, hOld, hEarly.trans hLate⟩
  settled := by
    obtain ⟨time, hNow, hTime, hBefore, hOK⟩ := h.settled
    exact ⟨time, hNow, hTime.trans hClock, hBacked time hBefore, fun ok => hSettled time (hOK ok)⟩

theorem CleanedUp.and (h : daemon.CleanedUp pass) (ok : Bool) :
    daemon.CleanedUp { pass with cleanupOK := ok && pass.cleanupOK } where
  ids := h.ids
  source := h.source
  settled := by
    obtain ⟨time, hNow, hTime, hBefore, hOK⟩ := h.settled
    exact ⟨time, hNow, hTime, hBefore, fun both => hOK (Bool.and_eq_true_iff.mp both).2⟩

variable [Digest] {codec : Codec}

/-- A claim key request among the calls of a pass. -/
theorem CleanedUp.claimKey (hSmall : Unicode.KeepsSmall)
    (h : daemon.CleanedUp pass) (hSynced : daemon.store.Synced codec) (errors : SaveErrors)
    {rootKey : RootKeyCheck} {fresh : Fresh} {name : String}
    (hNew : hashToken ("gk_" ++ fresh.secretHex) ∉ daemon.store.state.tokens.map (·.hash))
    (hStore : next.store =
      (daemon.store.call codec errors (.registerSoftToken rootKey fresh name now)).1)
    (hClock : daemon.clock ≤ next.clock) : next.CleanedUp pass := by
  have hSame := claimKey_same hSynced errors rootKey fresh name now
  rw [← hStore] at hSame
  refine h.step ?_ ?_ (fun _ hSettled => hSettled.same hSame) hClock
  · intro later hLater
    exact ⟨later, hSame.authorizations ▸ hLater, .refl later⟩
  · intro time hBefore
    rw [hStore]
    exact Store.call_keeps (P := Backed time) codec hSynced hBefore
      (Op.backed hSmall (show (Op.registerSoftToken rootKey fresh name now).Careful time
        daemon.store.state from hNew) hBefore)

/-- The later cleanups of a pass end scopes. -/
theorem CleanedUp.releaseScopes (hSmall : Unicode.KeepsSmall)
    (h : daemon.CleanedUp pass) (hSynced : daemon.store.Synced codec) (errors : SaveErrors)
    (authorizationIDs leaseIDs : List String)
    (hStore : next.store =
      (daemon.store.call codec errors (.releaseScopes [] authorizationIDs leaseIDs)).1)
    (hClock : daemon.clock ≤ next.clock) : next.CleanedUp pass := by
  have hEnds := releaseScopes_ends hSynced errors [] authorizationIDs leaseIDs
  rw [← hStore] at hEnds
  refine h.step ?_ ?_ (fun _ hSettled => hSettled.ends hEnds) hClock
  · intro later hLater
    obtain ⟨old, hOld, rfl | rfl⟩ := hEnds.authorizations later hLater
    · exact ⟨_, hOld, .refl _⟩
    · exact ⟨old, hOld, .released old true⟩
  · intro time hBefore
    rw [hStore]
    exact Store.call_keeps (P := Backed time) codec hSynced hBefore
      (Op.backed hSmall (show (Op.releaseScopes [] authorizationIDs leaseIDs).Careful time
        daemon.store.state from fun _ _ _ _ _ => not_mem_nil) hBefore)

omit [Unicode] [Digest] in
/-- What the cleanup at that time does not take for stale. -/
theorem settled_of_not_stale {row : Authorization} (hActive : row.active = true)
    (h : ¬ staleForCleanup state.tokens time row = true) :
    row.revoked = false ∧ authorizationExpired row time = false ∧
      (row.tokenHash = "" ∨
        ∃ token ∈ state.tokens, token.hash = row.tokenHash ∧ tokenActiveAt token time = true) := by
  simp only [staleForCleanup, hActive, Bool.true_and, Bool.or_eq_true, Bool.not_eq_true', not_or,
    Bool.not_eq_true, Bool.not_eq_false] at h
  obtain ⟨⟨hLive, hUnexpired⟩, hToken⟩ := h
  refine ⟨hLive, hUnexpired, ?_⟩
  simp only [tokenValidForCleanup, Bool.or_eq_true, beq_iff_eq] at hToken
  refine hToken.imp id fun hValid => ?_
  cases hFind : tokenByHash state.tokens row.tokenHash with
  | none => simp [hFind] at hValid
  | some token =>
    obtain ⟨hStored, hHash⟩ := tokenByHash_mem hFind
    refine ⟨token, hStored, hHash, ?_⟩
    rw [hFind, Option.elim_some] at hValid
    unfold tokenActiveAt tokenExpired
    revert hValid
    cases token.revoked <;> cases timeIsSet token.expiresAt <;>
      cases decide (time < token.expiresAt) <;> simp

omit [Unicode] [Digest] in
/-- What is due: the stale authorizations that need not wait. -/
theorem dueAuthorizations_eq (io : StageIO) (state : State) (daemon : Daemon) :
    daemon.dueAuthorizations io state =
      (state.authorizations.filter (staleForCleanup state.tokens io.now)).filter
        (!heldForCleanup io.stopCgroup daemon.clean ·) := by
  unfold dueAuthorizations cleanupExpiredAuthorizationsState
  dsimp only
  split
  · rename_i hNone
    exact hNone.symm
  · rfl

omit [Unicode] [Digest] in
/-- A cleanup that went well had nothing that waits, and its release did not fail. -/
theorem cleanup_ok {daemon : Daemon} {error : Option String}
    (h : (cleanupExpiredAuthorizationsState io.stopCgroup error daemon.clean state io.now).ok =
      true) :
    (∀ row ∈ state.authorizations, staleForCleanup state.tokens io.now row = true →
      row ∈ daemon.dueAuthorizations io state) ∧
      (daemon.dueAuthorizations io state ≠ [] → error = none) := by
  have hWaits : (state.authorizations.filter (staleForCleanup state.tokens io.now)).any
      (heldForCleanup io.stopCgroup daemon.clean) = false →
      ∀ row ∈ state.authorizations, staleForCleanup state.tokens io.now row = true →
        row ∈ daemon.dueAuthorizations io state := by
    intro hNone row hRow hStale
    have hMem := mem_filter.mpr ⟨hRow, hStale⟩
    rw [dueAuthorizations_eq]
    exact mem_filter.mpr ⟨hMem, by simpa using any_eq_false.mp hNone row hMem⟩
  unfold cleanupExpiredAuthorizationsState at h
  dsimp only at h
  split at h
  · rename_i hNone
    refine ⟨hWaits (by simpa using h), fun hSome => absurd ?_ hSome⟩
    rw [dueAuthorizations_eq, hNone]
  · split at h
    · cases h
    · exact ⟨hWaits (by simpa using h), fun _ => rfl⟩

theorem releaseScopes_none {errors : SaveErrors}
    {reservationIDs authorizationIDs leaseIDs : List String}
    (h : (daemon.releaseScopes codec errors reservationIDs authorizationIDs leaseIDs).2 = none) :
    (daemon.store.call codec errors
      (.releaseScopes reservationIDs authorizationIDs leaseIDs)).2 = .ok () := by
  unfold releaseScopes at h
  dsimp only at h
  split at h
  · cases h
  · assumption

/-- The cleanup of authorizations, if nothing had to wait, leaves no stale one active. -/
theorem cleanupExpiredAuthorizations_settles (daemon : Daemon) (hSynced : daemon.store.Synced codec)
    (hRows : daemon.store.state.authorizations = state.authorizations)
    (hTokens : state.tokens ⊆ daemon.store.state.tokens)
    (hOK : (daemon.cleanupExpiredAuthorizations codec io state).2 = true) :
    Settled io.now (daemon.cleanupExpiredAuthorizations codec io state).1.store.state := by
  have hCleanup : (cleanupExpiredAuthorizationsState io.stopCgroup (daemon.releaseScopes codec
      io.errors [] ((daemon.dueAuthorizations io state).map (·.id)) []).2 daemon.clean state
        io.now).ok = true := hOK
  obtain ⟨hDue, hError⟩ := cleanup_ok hCleanup
  have hAnswer : (daemon.store.call codec io.errors
      (.releaseScopes [] ((daemon.dueAuthorizations io state).map (·.id)) [])).2 = .ok () := by
    by_cases hNone : daemon.dueAuthorizations io state = []
    · rw [hNone]
      rfl
    · exact releaseScopes_none (hError hNone)
  have hState := (Store.perform_ok codec hAnswer).2
  intro row hRow hActive
  replace hRow : row ∈ ((GPUardian.releaseScopes []
      ((daemon.dueAuthorizations io state).map (·.id)) [] daemon.store.state).edits.apply
        daemon.store.state).authorizations := hState ▸ hRow
  obtain ⟨old, hOld, ⟨rfl, hSpared⟩ | ⟨rfl, _⟩⟩ := mem_released hRow
  · rw [hRows] at hOld
    have hFresh : ¬ staleForCleanup state.tokens io.now row = true := fun hStale =>
      hSpared hActive (mem_map_of_mem (hDue row hOld hStale))
    obtain ⟨hLive, hUnexpired, hToken⟩ := settled_of_not_stale hActive hFresh
    refine ⟨hLive, hUnexpired, hToken.imp id ?_⟩
    rintro ⟨token, hStored, hValid⟩
    refine ⟨token, ?_, hValid⟩
    have hSame := (releaseScopes_ends hSynced io.errors []
      ((daemon.dueAuthorizations io state).map (·.id)) []).tokens
    exact hSame.symm ▸ hTokens hStored
  · cases hActive

/-- Every stage leaves what the next one relies on. -/
theorem advance_stage (hSmall : Unicode.KeepsSmall)
    (h : daemon.Holds codec) (hNow : daemon.clock ≤ io.now)
    (hBacked : Backed io.now (daemon.advance codec io).store.state) :
    (daemon.advance codec io).StageHolds := by
  have hStage := h.stage
  have hSynced := h.synced
  obtain ⟨store, signals, clean, stage, runs, clock, recorded, ended⟩ := daemon
  cases stage with
  | claims pass decisions =>
    obtain ⟨hPass, hRows⟩ := hStage
    cases decisions with
    | nil =>
      exact ⟨hPass.same ⟨rfl, rfl, Subset.refl _⟩ hNow rfl, hRows⟩
    | cons decision rest =>
      simp only [advance] at hBacked ⊢
      cases hOp : claimOp io pass.now decision with
      | none => exact ⟨hPass.same ⟨rfl, rfl, Subset.refl _⟩ hNow rfl, hRows⟩
      | some op =>
        have hSame := claimOp_same hSynced io.errors hOp
        exact ⟨hPass.same hSame hNow rfl, hSame.reservations.trans hRows⟩
  | reservations pass =>
    obtain ⟨hPass, _⟩ := hStage
    obtain ⟨_, _, _, _, hFrame⟩ := advance_frame codec io
      ⟨store, signals, clean, .reservations pass, runs, clock, recorded, ended⟩
    have hSame := releaseReservations_same hSynced io.errors
      ((releasedReservations pass.state io.now).map (·.id))
    rw [← cleanupExpiredReservationsState_store codec io pass.state
      ⟨store, signals, clean, .reservations pass, runs, io.now, recorded, ended⟩] at hSame
    exact
      { ids := hPass.ids
        authorizations := hSame.1.trans hPass.authorizations
        tokens := fun token hToken => hSame.2.symm ▸ hPass.tokens hToken
        now := (congrArg Daemon.clock hFrame).symm ▸ hPass.now.trans hNow
        recorded := (congrArg Daemon.recorded hFrame).symm ▸ hPass.recorded }
  | authorizations pass =>
    have hPass : Unchanged pass _ := hStage
    have hEnds := releaseScopes_ends hSynced io.errors []
      ((dueAuthorizations io pass.state
        ⟨store, signals, clean, .authorizations pass, runs, io.now, recorded, ended⟩).map (·.id)) []
    refine ⟨hPass.ids, ?_, io.now, hPass.now.trans hNow, le_rfl, hBacked, fun hBoth => ?_⟩
    · intro later hLater
      rw [← hPass.authorizations]
      obtain ⟨old, hOld, rfl | rfl⟩ := hEnds.authorizations later hLater
      · exact ⟨_, hOld, .refl _⟩
      · exact ⟨old, hOld, .released old true⟩
    · exact cleanupExpiredAuthorizations_settles
        ⟨store, signals, clean, .authorizations pass, runs, io.now, recorded, ended⟩
        hSynced hPass.authorizations hPass.tokens (Bool.and_eq_true_iff.mp hBoth).1
  | bareAuthorizations pass =>
    exact CleanedUp.releaseScopes hSmall hStage hSynced io.errors _ [] rfl hNow
  | leases pass =>
    exact CleanedUp.and (CleanedUp.releaseScopes hSmall hStage hSynced io.errors [] _ rfl hNow) _
  | bareLeases pass =>
    exact CleanedUp.releaseScopes hSmall hStage hSynced io.errors [] _ rfl hNow
  | prune pass =>
    simp only [advance]
    split
    · trivial
    · trivial
  | _ => trivial

omit [Digest] in
/-- Without the lock no stage relies on anything. -/
theorem stageHolds_of_free (h : daemon.stage.locked = false) : daemon.StageHolds := by
  unfold StageHolds
  cases hAt : daemon.stage with
  | idle => trivial
  | escalation tick => trivial
  | _ => simp [hAt, MonitorStage.locked] at h

theorem serve_stage (errors : SaveErrors) (request : Request) (daemon : Daemon) :
    (daemon.serve codec errors request).stage = daemon.stage ∧
      (daemon.serve codec errors request).recorded = daemon.recorded := by
  rcases serve_cases errors request daemon with hSame | ⟨_, hServed⟩
  · rw [hSame]
    exact ⟨rfl, rfl⟩
  · rw [hServed]
    exact ⟨rfl, rfl⟩

/-- A claim key request may come at every stage. -/
theorem claimKey_stage (hSmall : Unicode.KeepsSmall)
    (h : daemon.Holds codec) (errors : SaveErrors) {rootKey : RootKeyCheck} {fresh : Fresh}
    {name : String} (hNow : daemon.clock ≤ now)
    (hNew : hashToken ("gk_" ++ fresh.secretHex) ∉ daemon.store.state.tokens.map (·.hash)) :
    (daemon.serve codec errors (.claimKey rootKey fresh name now)).StageHolds := by
  have hSame := claimKey_same h.synced errors rootKey fresh name now
  have hStage := h.stage
  have hSynced := h.synced
  obtain ⟨store, signals, clean, stage, runs, clock, recorded, ended⟩ := daemon
  cases stage with
  | claims pass decisions =>
    exact ⟨hStage.1.same hSame hNow rfl, hSame.reservations.trans hStage.2⟩
  | reservations pass =>
    exact ⟨hStage.1.same hSame hNow rfl, hSame.reservations.trans hStage.2⟩
  | authorizations pass => exact Unchanged.same hStage hSame hNow rfl
  | bareAuthorizations pass | leases pass | bareLeases pass | prune pass =>
    exact CleanedUp.claimKey hSmall hStage hSynced errors hNew rfl hNow
  | managedAuthorizations tick filtered =>
    intro row hRow
    obtain ⟨hStored, hCgroup⟩ := hStage row hRow
    exact ⟨hSame.authorizations.symm ▸ hStored, hCgroup⟩
  | _ => trivial

theorem request_stage (hSmall : Unicode.KeepsSmall)
    (h : daemon.Holds codec) (errors : SaveErrors) (request : Request)
    (hEvent : (DaemonEvent.request errors request).Admitted daemon) :
    (daemon.serve codec errors request).StageHolds := by
  cases hAt : daemon.stage.locked with
  | false =>
    apply stageHolds_of_free
    rw [(serve_stage errors request daemon).1]
    exact hAt
  | true =>
    cases request with
    | claimKey rootKey fresh name now =>
      exact claimKey_stage hSmall h errors (hEvent.1 now rfl) hEvent.2
    | _ =>
      rw [serve, if_pos (by simp [hAt, Request.locks])]
      exact h.stage

omit [Digest] in
theorem monitorOnce_stage (grace : Duration) (h : daemon.Holds codec) (tick : Tick) (now : Time) :
    (daemon.monitorOnce grace tick now).StageHolds := by
  unfold monitorOnce
  split
  · split
    · intro row hRow
      obtain ⟨hStored, hCgroup⟩ := mem_filter.mp hRow
      exact ⟨hStored, by simpa using hCgroup⟩
    · exact ⟨⟨h.backed.ids, rfl, Subset.refl _, le_rfl, by simp⟩, rfl⟩
  · exact h.stage

/-- Every step keeps the invariant. -/
theorem step_holds (hSmall : Unicode.KeepsSmall) (grace : Duration)
    (h : daemon.Holds codec) {event : DaemonEvent} (hEvent : event.Admitted daemon) :
    (daemon.step grace codec event).Holds codec where
  synced := step_synced grace event h.synced
  clock := h.clock.trans ((step_extends grace daemon event).clock hEvent)
  backed := step_backed grace hSmall h hEvent
  runs := step_runs grace h hEvent
  counted := step_counted grace event h.counted
  stage := by
    cases event with
    | request errors request => exact request_stage hSmall h errors request hEvent
    | monitorOnce tick now => exact monitorOnce_stage grace h tick now
    | advance io =>
      have hBacked := step_backed grace hSmall h hEvent
      rw [show (daemon.step grace codec (.advance io)).clock = io.now from
        advance_clock codec io daemon] at hBacked
      exact advance_stage hSmall h hEvent hBacked

end Stages

end Daemon

end GPUardian
