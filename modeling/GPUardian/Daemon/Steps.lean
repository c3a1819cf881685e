import GPUardian.Daemon.Monitor
import GPUardian.Store.Authorizations

/-! What a step of the daemon does: the store call it makes, and what it leaves of the rest. -/
namespace GPUardian

open GoStrings GoSlice List Option

/-- The request draws new names: secrets, rows and authorizations get ids that are not in use, and
none but a run gets the id of a run. -/
def Request.DrawsNew [Digest] (daemon : Daemon) : Request → Prop
  | .claimKey _ fresh _ _ =>
    hashToken ("gk_" ++ fresh.secretHex) ∉ daemon.store.state.tokens.map (·.hash)
  | .book _ fresh _ _ _ gpus _ _ _ =>
    hashToken ("gk_" ++ fresh.secretHex) ∉ daemon.store.state.tokens.map (·.hash) ∧
      (daemon.store.state.reservations.map (·.id) ++
        (newReservations fresh {} gpus).map (·.id)).Nodup
  | .bookManaged _ fresh _ _ _ gpus _ _ _ =>
    (daemon.store.state.reservations.map (·.id) ++
      (newReservations fresh {} gpus).map (·.id)).Nodup
  | .authorize authorization _ =>
    authorization.id ∉ daemon.store.state.authorizations.map (·.id) ∧
      (authorization.mode ≠ modeBare → authorization.id ∉ daemon.runs)
  | _ => True

/-- The clock does not go back, and names are new. -/
def DaemonEvent.Admitted [Digest] (daemon : Daemon) : DaemonEvent → Prop
  | .request _ asked => (∀ now ∈ asked.time, daemon.clock ≤ now) ∧ asked.DrawsNew daemon
  | .monitorOnce _ now => daemon.clock ≤ now
  | .advance io => daemon.clock ≤ io.now

section Decide

variable [Digest] (daemon : Daemon)

instance : (request : Request) → Decidable (request.DrawsNew daemon)
  | .claimKey .. => inferInstanceAs (Decidable (_ ∉ _))
  | .book .. => inferInstanceAs (Decidable (_ ∧ _))
  | .bookManaged .. => inferInstanceAs (Decidable (List.Nodup _))
  | .authorize .. => inferInstanceAs (Decidable (_ ∧ (_ → _)))
  | .syncKeys .. | .activate .. | .release _ | .reclaim .. | .revoke .. | .addBypass _ => isTrue trivial

instance : (event : DaemonEvent) → Decidable (event.Admitted daemon)
  | .request _ asked =>
    inferInstanceAs (Decidable ((∀ now ∈ asked.time, daemon.clock ≤ now) ∧ asked.DrawsNew daemon))
  | .monitorOnce _ now => inferInstanceAs (Decidable (daemon.clock ≤ now))
  | .advance io => inferInstanceAs (Decidable (daemon.clock ≤ io.now))

end Decide

variable {io : StageIO} {now : Time} {op : Op}

namespace Daemon

/-- The authorizations that the cleanup of a stage ends. -/
def dueAuthorizations (io : StageIO) (state : State) (daemon : Daemon) : List Authorization :=
  (cleanupExpiredAuthorizationsState io.stopCgroup none daemon.clean state io.now).released

def dueLeases (io : StageIO) (state : State) (daemon : Daemon) : List Lease :=
  (state.leases.filter (staleLeaseForCleanup state.tokens io.now)).filter
    (!heldLease io.stopCgroup daemon.clean ·)

variable [Unicode]

/-- The store call of a step of the monitor. -/
def stageOp (io : StageIO) (daemon : Daemon) : Option Op :=
  match daemon.stage with
  | .idle | .claims _ [] | .escalation _ => none
  | .claims pass (decision :: _) => claimOp io pass.now decision
  | .reservations pass =>
    some (.releaseScopes ((releasedReservations pass.state io.now).map (·.id)) [] [])
  | .authorizations pass =>
    some (.releaseScopes [] ((daemon.dueAuthorizations io pass.state).map (·.id)) [])
  | .bareAuthorizations pass =>
    some (.releaseScopes []
      ((pass.state.authorizations.filter (finishedBare io.emptied io.exists)).map (·.id)) [])
  | .leases pass => some (.releaseScopes [] [] ((daemon.dueLeases io pass.state).map (·.id)))
  | .bareLeases pass =>
    some (.releaseScopes [] [] ((pass.state.leases.filter fun lease =>
      lease.active && lease.mode == modeBare && io.leaseFinished lease).map (·.id)))
  | .prune pass => if pass.evictionOK && pass.cleanupOK then some (.prune pass.now) else none
  | .managedAuthorizations _ filtered =>
    some (.releaseScopes [] ((daemon.dueAuthorizations io filtered).map (·.id)) [])
  | .managedLeases _ filtered =>
    some (.releaseScopes [] [] ((daemon.dueLeases io filtered).map (·.id)))
  | .managedScopes _ =>
    let state := daemon.store.state
    some (.pruneInactiveManagedScopes
      ((state.authorizations.filter fun row =>
        !row.active && row.cgroupPath != "" && io.emptied row.cgroupPath).map (·.id))
      ((state.leases.filter fun row =>
        !row.active && row.cgroupPath != "" && io.emptied row.cgroupPath).map (·.id)))
  | .entitlements _ => some (.pruneUnreferencedInvalidEntitlements io.now)

/-- The store call of a step, with the errors of its save. -/
def nextCall (daemon : Daemon) : DaemonEvent → Option (SaveErrors × Op)
  | .request errors request =>
    if request.locks && daemon.stage.locked then none
    else (request.op daemon.store.state (daemon.runs ++ request.runs)).map (errors, ·)
  | .monitorOnce _ _ => none
  | .advance io => (daemon.stageOp io).map (io.errors, ·)

variable [Digest] (grace : Duration) (codec : Codec)

theorem cleanupExpiredReservationsState_store (io : StageIO) (state : State) (daemon : Daemon) :
    (daemon.cleanupExpiredReservationsState codec io state).1.store =
      (daemon.store.call codec io.errors
        (.releaseScopes ((releasedReservations state io.now).map (·.id)) [] [])).1 := by
  simp only [cleanupExpiredReservationsState, releaseScopes]
  cases (daemon.store.call codec io.errors
    (.releaseScopes ((releasedReservations state io.now).map (·.id)) [] [])).2 with
  | error message => rfl
  | ok answer => rfl

/-- A step makes at most one call of the store. -/
theorem step_store (daemon : Daemon) (event : DaemonEvent) :
    (daemon.step grace codec event).store =
      match daemon.nextCall event with
      | none => daemon.store
      | some (errors, op) => (daemon.store.call codec errors op).1 := by
  cases event with
  | request errors request =>
    simp only [step, serve, nextCall]
    split
    · rfl
    · cases hOp : request.op daemon.store.state (daemon.runs ++ request.runs) with
      | none => rfl
      | some op => rfl
  | monitorOnce tick now =>
    simp only [step, monitorOnce, nextCall]
    split
    · split
      · rfl
      · rfl
    · rfl
  | advance io =>
    simp only [step, nextCall, stageOp]
    obtain ⟨store, signals, clean, stage, runs, clock, recorded, ended⟩ := daemon
    cases stage with
    | claims pass decisions =>
      cases decisions with
      | nil => rfl
      | cons decision rest =>
        simp only [advance]
        cases claimOp io pass.now decision with
        | none => rfl
        | some op => rfl
    | reservations pass =>
      exact cleanupExpiredReservationsState_store codec io pass.state _
    | prune pass =>
      simp only [advance]
      split
      · rfl
      · rfl
    | _ => rfl

section Step

variable {codec} {daemon : Daemon} {event : DaemonEvent}

/-- What a step does to the state of the store: nothing, or the edits of its call. -/
theorem step_state_cases (event : DaemonEvent) (hSynced : daemon.store.Synced codec) :
    (daemon.step grace codec event).store.state = daemon.store.state ∨
    ∃ errors op, daemon.nextCall event = some (errors, op) ∧
      (daemon.step grace codec event).store.state =
        (op.effect daemon.store.state).edits.apply daemon.store.state := by
  rw [step_store]
  cases hNext : daemon.nextCall event with
  | none => exact .inl rfl
  | some call =>
    obtain ⟨errors, op⟩ := call
    rcases Store.call_cases codec errors op hSynced with ⟨_, hSame⟩ | ⟨_, _, next, rfl, hCall⟩
    · exact .inl (congrArg Store.state hSame)
    · exact .inr ⟨errors, op, rfl, congrArg Store.state hCall⟩

/-- A request that has to wait for the monitor does nothing; every other one reads the clock and
makes its call. -/
theorem serve_cases (errors : SaveErrors) (request : Request) (daemon : Daemon) :
    daemon.serve codec errors request = daemon ∨
    ∃ store, daemon.serve codec errors request =
      { daemon with
        store := store
        clock := request.time.getD daemon.clock
        runs := daemon.runs ++ request.runs } := by
  simp only [serve]
  split
  · exact .inl rfl
  · cases request.op daemon.store.state (daemon.runs ++ request.runs) with
    | none => exact .inr ⟨daemon.store, rfl⟩
    | some op => exact .inr ⟨_, rfl⟩

omit [Digest] in
/-- A tick does nothing while the last one goes on. Its pass records an assessment. -/
theorem monitorOnce_cases (tick : Tick) (now : Time) (daemon : Daemon) :
    daemon.monitorOnce grace tick now = daemon ∨
    (∃ stage, daemon.monitorOnce grace tick now = { daemon with clock := now, stage := stage }) ∨
    ∃ assessment signals stage, daemon.monitorOnce grace tick now =
      { daemon with
        clock := now
        signals := signals
        clean := recordEvictionAssessment assessment daemon.clean
        recorded := daemon.recorded ++ [assessment]
        stage := stage } := by
  simp only [monitorOnce]
  split
  · split
    · exact .inr (.inl ⟨_, rfl⟩)
    · exact .inr (.inr ⟨_, _, _, rfl⟩)
  · exact .inl rfl

/-- A step of the monitor reads the clock, may report ends, and leaves what only ticks and requests
change. -/
theorem advance_frame (codec : Codec) (io : StageIO) (daemon : Daemon) :
    ∃ store signals stage more, daemon.advance codec io =
      { daemon with
        store := store
        signals := signals
        stage := stage
        clock := io.now
        ended := daemon.ended ++ more } := by
  obtain ⟨store, signals, clean, stage, runs, clock, recorded, ended⟩ := daemon
  have hNone : ∀ store signals stage, ∃ store' signals' stage' more,
      (⟨store, signals, clean, stage, runs, io.now, recorded, ended⟩ : Daemon) =
        ⟨store', signals', clean, stage', runs, io.now, recorded, ended ++ more⟩ := fun _ _ _ =>
    ⟨_, _, _, [], by rw [append_nil]⟩
  cases stage with
  | claims pass decisions =>
    cases decisions with
    | nil => exact hNone _ _ _
    | cons decision rest =>
      simp only [advance]
      cases claimOp io pass.now decision with
      | none => exact hNone _ _ _
      | some op => exact hNone _ _ _
  | reservations pass =>
    simp only [advance, cleanupExpiredReservationsState, releaseScopes]
    cases (store.call codec io.errors
      (.releaseScopes ((releasedReservations pass.state io.now).map (·.id)) [] [])).2 with
    | error message => exact hNone _ _ _
    | ok answer => exact ⟨_, _, _, _, rfl⟩
  | prune pass =>
    simp only [advance]
    split
    · exact hNone _ _ _
    · exact hNone _ _ _
  | _ => exact hNone _ _ _

theorem advance_clock (codec : Codec) (io : StageIO) (daemon : Daemon) :
    (daemon.advance codec io).clock = io.now := by
  obtain ⟨_, _, _, _, hFrame⟩ := advance_frame codec io daemon
  rw [hFrame]

/-- What holds of the clock, the runs, the assessments and the reports across any step. -/
structure Extends (event : DaemonEvent) (daemon next : Daemon) : Prop where
  clock : event.Admitted daemon → daemon.clock ≤ next.clock
  runs : ∀ id ∈ next.runs, id ∈ daemon.runs ∨
    ∃ errors request, event = .request errors request ∧ id ∈ request.runs
  recorded : ∃ assessments, next.clean = recordEvictionAssessments assessments daemon.clean ∧
    next.recorded = daemon.recorded ++ assessments
  ended : daemon.ended ⊆ next.ended

theorem step_extends (daemon : Daemon) (event : DaemonEvent) :
    Extends event daemon (daemon.step grace codec event) := by
  have hSame : Extends event daemon daemon :=
    ⟨fun _ => le_rfl, fun _ => .inl, ⟨[], rfl, (append_nil _).symm⟩, Subset.refl _⟩
  cases event with
  | request errors request =>
    simp only [step]
    rcases serve_cases errors request daemon with hWaits | ⟨_, hServed⟩
    · rwa [hWaits]
    · rw [hServed]
      refine { hSame with clock := fun hEvent => ?_, runs := fun id hID => ?_ }
      · cases hNow : request.time with
        | none => exact le_rfl
        | some now => exact hEvent.1 now (by rw [hNow]; rfl)
      · exact (mem_append.mp hID).imp_right fun hNew => ⟨errors, request, rfl, hNew⟩
  | monitorOnce tick now =>
    simp only [step]
    rcases monitorOnce_cases grace tick now daemon with
      hWaits | ⟨_, hTick⟩ | ⟨assessment, _, _, hTick⟩
    · rwa [hWaits]
    · rw [hTick]
      exact { hSame with clock := fun hEvent => hEvent }
    · rw [hTick]
      exact { hSame with clock := fun hEvent => hEvent, recorded := ⟨[assessment], rfl, rfl⟩ }
  | advance io =>
    obtain ⟨_, _, _, more, hFrame⟩ := advance_frame codec io daemon
    simp only [step, hFrame]
    exact { hSame with clock := fun hEvent => hEvent, ended := subset_append_left _ _ }

omit [Unicode] [Digest] in
theorem claimOp_cases {decision : Decision} (h : claimOp io now decision = some op) :
    (∃ hex claim, op = .upsertSoftClaim hex claim now) ∨ ∃ id, op = .releaseSoftClaim id := by
  unfold claimOp at h
  split at h
  · cases h
    exact .inl ⟨_, _, rfl⟩
  · cases h
    exact .inr ⟨_, rfl⟩
  · cases h

end Step

end Daemon

/-- The store call of a request, by the request. -/
inductive Request.Calls [Unicode] (state : State) (runs : List String) : Request → Op → Prop where
  | claimKey rootKey fresh name now :
      Calls state runs (.claimKey rootKey fresh name now) (.registerSoftToken rootKey fresh name now)
  | book rootKey fresh name purpose session gpus startsAt expiresAt now
      (hNode : state.managedKeys = false) :
      Calls state runs (.book rootKey fresh name purpose session gpus startsAt expiresAt now)
        (.registerScheduledReservationsWithSession rootKey fresh name purpose session gpus startsAt
          expiresAt now)
  | bookManaged rootKey fresh userKeyID purpose session gpus startsAt expiresAt now :
      Calls state runs
        (.bookManaged rootKey fresh userKeyID purpose session gpus startsAt expiresAt now)
        (.registerManagedReservations rootKey fresh userKeyID purpose session gpus startsAt
          expiresAt now)
  | syncKeys rootKey groupHex snapshot now :
      Calls state runs (.syncKeys rootKey groupHex snapshot now)
        (.syncManagedUserKeys rootKey groupHex snapshot now)
  | authorize authorization now :
      Calls state runs (.authorize authorization now)
        (.addAuthorization { authorization with active := true, revoked := false } now)
  | activate id rootPID : Calls state runs (.activate id rootPID) (.activateAuthorization id rootPID)
  | release id (hRun : id ∈ runs) : Calls state runs (.release id) (.releaseAuthorization id)
  | reclaim tokenHash containers order now :
      Calls state runs (.reclaim tokenHash containers order now)
        (.releaseScopes [] ((staleDockerAuthorizations order
          (reclaimableDockerAuthorizations state tokenHash now) containers).map (·.id)) [])
  | revoke idOrToken now : Calls state runs (.revoke idOrToken now) (.revoke idOrToken now)
  | addBypass rule : Calls state runs (.addBypass rule) (.addBypass rule)

theorem Request.calls_of_op [Unicode] {state : State} {runs : List String} {request : Request}
    (h : request.op state runs = some op) : request.Calls state runs op := by
  cases request with
  | claimKey | bookManaged | syncKeys | authorize | activate | revoke | addBypass =>
    cases h
    constructor
  | book =>
    simp only [Request.op, ite_none_left_eq_some, Bool.not_eq_true] at h
    obtain ⟨hNode, hOp⟩ := h
    cases hOp
    exact .book _ _ _ _ _ _ _ _ _ hNode
  | release id =>
    simp only [Request.op, ite_none_right_eq_some] at h
    obtain ⟨hRun, hOp⟩ := h
    cases hOp
    exact .release id hRun
  | reclaim tokenHash containers order now =>
    simp only [Request.op, ite_none_left_eq_some] at h
    obtain ⟨_, hOp⟩ := h
    cases hOp
    exact .reclaim tokenHash containers order now

namespace Daemon

section Calls

variable [Unicode]

/-- The store call of a step of the monitor, by its stage. -/
inductive StageCalls (io : StageIO) (daemon : Daemon) : Op → Prop where
  | claim pass decisions (hStage : daemon.stage = .claims pass decisions) hex claim :
      StageCalls io daemon (.upsertSoftClaim hex claim pass.now)
  | releaseClaim pass decisions (hStage : daemon.stage = .claims pass decisions) id :
      StageCalls io daemon (.releaseSoftClaim id)
  | reservations pass (hStage : daemon.stage = .reservations pass) :
      StageCalls io daemon
        (.releaseScopes ((releasedReservations pass.state io.now).map (·.id)) [] [])
  | authorizations pass (hStage : daemon.stage = .authorizations pass) :
      StageCalls io daemon
        (.releaseScopes [] ((daemon.dueAuthorizations io pass.state).map (·.id)) [])
  | bareAuthorizations pass (hStage : daemon.stage = .bareAuthorizations pass) :
      StageCalls io daemon (.releaseScopes []
        ((pass.state.authorizations.filter (finishedBare io.emptied io.exists)).map (·.id)) [])
  | leases leaseIDs (hStage : daemon.stage.locked = true) :
      StageCalls io daemon (.releaseScopes [] [] leaseIDs)
  | prune pass (hStage : daemon.stage = .prune pass) (hOK : pass.cleanupOK = true) :
      StageCalls io daemon (.prune pass.now)
  | managedAuthorizations tick filtered
      (hStage : daemon.stage = .managedAuthorizations tick filtered) :
      StageCalls io daemon
        (.releaseScopes [] ((daemon.dueAuthorizations io filtered).map (·.id)) [])
  | managedScopes tick (hStage : daemon.stage = .managedScopes tick) authorizationIDs leaseIDs :
      StageCalls io daemon (.pruneInactiveManagedScopes authorizationIDs leaseIDs)
  | entitlements tick (hStage : daemon.stage = .entitlements tick) :
      StageCalls io daemon (.pruneUnreferencedInvalidEntitlements io.now)

variable {daemon : Daemon}

omit [Unicode] in
theorem stageCalls_of_op (h : daemon.stageOp io = some op) : daemon.StageCalls io op := by
  unfold stageOp at h
  cases hAt : daemon.stage with
  | idle | escalation => simp [hAt] at h
  | claims pass decisions =>
    cases decisions with
    | nil => simp [hAt] at h
    | cons decision rest =>
      simp only [hAt] at h
      rcases claimOp_cases h with ⟨hex, claim, rfl⟩ | ⟨id, rfl⟩
      · exact .claim pass _ hAt hex claim
      · exact .releaseClaim pass _ hAt id
  | prune pass =>
    simp only [hAt, ite_none_right_eq_some, Bool.and_eq_true] at h
    obtain ⟨⟨_, hOK⟩, hOp⟩ := h
    cases hOp
    exact .prune pass hAt hOK
  | reservations pass =>
    simp only [hAt] at h
    cases h
    exact .reservations pass hAt
  | authorizations pass =>
    simp only [hAt] at h
    cases h
    exact .authorizations pass hAt
  | bareAuthorizations pass =>
    simp only [hAt] at h
    cases h
    exact .bareAuthorizations pass hAt
  | managedAuthorizations tick filtered =>
    simp only [hAt] at h
    cases h
    exact .managedAuthorizations tick filtered hAt
  | leases | bareLeases | managedLeases =>
    simp only [hAt] at h
    cases h
    exact .leases _ (by rw [hAt]; rfl)
  | managedScopes tick =>
    simp only [hAt] at h
    cases h
    exact .managedScopes tick hAt _ _
  | entitlements tick =>
    simp only [hAt] at h
    cases h
    exact .entitlements tick hAt

/-- The store call of a step, by the event. -/
inductive Calls (daemon : Daemon) : DaemonEvent → SaveErrors → Op → Prop where
  | request (errors : SaveErrors) (request : Request) (op : Op)
      (hFree : request.locks = true → daemon.stage.locked = false)
      (h : request.Calls daemon.store.state (daemon.runs ++ request.runs) op) :
      Calls daemon (.request errors request) errors op
  | advance (io : StageIO) (op : Op) (h : daemon.StageCalls io op) :
      Calls daemon (.advance io) io.errors op

theorem calls_of_next {event : DaemonEvent} {errors : SaveErrors}
    (h : daemon.nextCall event = some (errors, op)) : daemon.Calls event errors op := by
  cases event with
  | monitorOnce tick now => cases h
  | request given request =>
    simp only [nextCall] at h
    split at h
    · cases h
    · rename_i hFree
      obtain ⟨called, hCalled, hSame⟩ := map_eq_some_iff.mp h
      cases hSame
      refine .request errors request op (fun hLocks => ?_) (Request.calls_of_op hCalled)
      simpa [hLocks] using hFree
  | advance io =>
    obtain ⟨called, hCalled, hSame⟩ := map_eq_some_iff.mp h
    cases hSame
    exact .advance io op (stageCalls_of_op hCalled)

/-- The call of a step that adds a row is that of a request to authorize. -/
theorem next_adds {event : DaemonEvent} {errors : SaveErrors} {row : Authorization}
    (hNext : daemon.nextCall event = some (errors, .addAuthorization row now)) :
    ∃ authorization, event = .request errors (.authorize authorization now) ∧
      row = { authorization with active := true, revoked := false } ∧
      daemon.stage.locked = false := by
  cases calls_of_next hNext with
  | advance io op hStage => cases hStage
  | request errors request op hFree hCalls =>
    cases hCalls with
    | authorize authorization now => exact ⟨authorization, rfl, rfl, hFree rfl⟩

end Calls

end Daemon

/-- No scope changes, and there may be more tokens. -/
structure SameScopes (before after : State) : Prop where
  authorizations : after.authorizations = before.authorizations
  reservations : after.reservations = before.reservations
  tokens : before.tokens ⊆ after.tokens

/-- Authorizations may have ended. -/
structure EndsScopes (before after : State) : Prop where
  authorizations : ∀ later ∈ after.authorizations, ∃ old ∈ before.authorizations,
    later = old ∨ later = { old with active := false }
  tokens : after.tokens = before.tokens

namespace Daemon

section Frames

variable [Unicode] [Digest] {codec : Codec} {store : Store}

theorem claimKey_same (hSynced : store.Synced codec) (errors : SaveErrors) (rootKey : RootKeyCheck)
    (fresh : Fresh) (name : String) (now : Time) :
    SameScopes store.state
      (store.call codec errors (.registerSoftToken rootKey fresh name now)).1.state := by
  refine Store.call_keeps (P := SameScopes store.state) codec hSynced
    ⟨rfl, rfl, Subset.refl _⟩ ?_
  simp only [Op.effect, registerSoftToken, requireRootKey]
  repeat' split
  all_goals first
    | exact ⟨rfl, rfl, Subset.refl _⟩
    | exact ⟨rfl, rfl, subset_append_left _ _⟩

theorem claimOp_same (hSynced : store.Synced codec) (errors : SaveErrors) {decision : Decision}
    (hOp : claimOp io now decision = some op) :
    SameScopes store.state (store.call codec errors op).1.state := by
  refine Store.call_keeps (P := SameScopes store.state) codec hSynced
    ⟨rfl, rfl, Subset.refl _⟩ ?_
  rcases claimOp_cases hOp with ⟨_, _, rfl⟩ | ⟨_, rfl⟩
  · simp only [Op.effect, upsertSoftClaim]
    split
    · exact ⟨rfl, rfl, Subset.refl _⟩
    · exact ⟨rfl, rfl, Subset.refl _⟩
  · exact ⟨rfl, rfl, Subset.refl _⟩

omit [Unicode] [Digest] in
/-- A row after its table was gone through is one of before that is not named, or an ended one. -/
theorem mem_endedRows {α : Type} {rows : List α} {ids : List String} {id : α → String}
    {active : α → Bool} {ending : α → α} {later : α}
    (hLater : later ∈ (Edit.update fun _ row =>
      if ids.contains (id row) && active row then ending row else row).onList rows) :
    ∃ old ∈ rows, later = old ∧ (active old = true → id old ∉ ids) ∨
      later = ending old ∧ active old = true ∧ id old ∈ ids := by
  rw [Edit.onList_update_map] at hLater
  obtain ⟨old, hOld, hSame⟩ := List.mem_map.mp hLater
  refine ⟨old, hOld, ?_⟩
  split at hSame
  · rename_i hNamed
    simp only [Bool.and_eq_true, contains_iff_mem] at hNamed
    exact .inr ⟨hSame.symm, hNamed.2, hNamed.1⟩
  · rename_i hSpared
    refine .inl ⟨hSame.symm, fun hActive hNamed => hSpared ?_⟩
    simp [hActive, hNamed]

omit [Unicode] [Digest] in
theorem mem_released {state : State} {reservationIDs authorizationIDs leaseIDs : List String}
    {later : Authorization} (hLater : later ∈ ((GPUardian.releaseScopes reservationIDs
      authorizationIDs leaseIDs state).edits.apply state).authorizations) :
    ∃ old ∈ state.authorizations, later = old ∧ (old.active = true → old.id ∉ authorizationIDs) ∨
      later = { old with active := false } ∧ old.active = true ∧ old.id ∈ authorizationIDs := by
  unfold GPUardian.releaseScopes at hLater
  split at hLater
  · rename_i hNone
    exact ⟨later, hLater, .inl ⟨rfl, fun _ => by simp [hNone.2.1]⟩⟩
  · exact mem_endedRows hLater

theorem releaseScopes_ends (hSynced : store.Synced codec) (errors : SaveErrors)
    (reservationIDs authorizationIDs leaseIDs : List String) :
    EndsScopes store.state (store.call codec errors
      (.releaseScopes reservationIDs authorizationIDs leaseIDs)).1.state := by
  refine Store.call_keeps (P := EndsScopes store.state) codec hSynced
    ⟨fun row hRow => ⟨row, hRow, .inl rfl⟩, rfl⟩ ⟨?_, ?_⟩
  · intro later hLater
    obtain ⟨old, hOld, hSame | hEnded⟩ := mem_released hLater
    · exact ⟨old, hOld, .inl hSame.1⟩
    · exact ⟨old, hOld, .inr hEnded.1⟩
  · simp only [Op.effect, GPUardian.releaseScopes]
    split
    · rfl
    · rfl

/-- The cleanup of reservations leaves the authorizations and the tokens. -/
theorem releaseReservations_same (hSynced : store.Synced codec) (errors : SaveErrors)
    (reservationIDs : List String) :
    (store.call codec errors (.releaseScopes reservationIDs [] [])).1.state.authorizations =
        store.state.authorizations ∧
      (store.call codec errors (.releaseScopes reservationIDs [] [])).1.state.tokens =
        store.state.tokens := by
  refine Store.call_keeps (P := fun state => state.authorizations = store.state.authorizations ∧
    state.tokens = store.state.tokens) codec hSynced ⟨rfl, rfl⟩ ?_
  simp only [Op.effect, GPUardian.releaseScopes]
  split
  · exact ⟨rfl, rfl⟩
  · exact ⟨Edit.onList_update_self fun _ row _ => if_neg (by simp), rfl⟩

end Frames

end Daemon

end GPUardian
