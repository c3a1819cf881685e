import GPUardian.Daemon.Removal
import GPUardian.Store.Keyed
import GPUardian.Store.Replay

/-! The reported ends of reservations. A pass ends the rows whose time is over, reports their
groups and then removes what has ended. A tick without a sample has no such pass: it removes rows
whose time is over and which nothing refers to, whether their end was reported or not. -/
namespace GPUardian

open GoStrings GoSlice List Interleaving

variable {after : State} {later : Reservation}

section Groups

variable {state : State} {row : Reservation}

variable {tokens : List Token}

theorem endedGroup_of_group (h : row.groupID ≠ "") : endedGroup tokens row = row.groupID := if_pos h

theorem endedGroup_of_token (hHashes : (tokens.map (·.hash)).Nodup) {token : Token}
    (hToken : token ∈ tokens) (hHash : token.hash = row.tokenHash) (hNone : row.groupID = "") :
    endedGroup tokens row = token.id := by
  rw [endedGroup, if_neg (not_not.mpr hNone), ← hHash, tokenByHash_of_mem hHashes hToken]
  rfl

/-- A row is reported under its own group or under the id of its token. -/
theorem Keyed.endedGroup_cases (h : Keyed state) (hRow : row ∈ state.reservations) :
    row.groupID ≠ "" ∨ row.groupID = "" ∧
      ∃ token ∈ state.tokens, token.hash = row.tokenHash ∧ token.id ≠ "" := by
  cases hManaged : state.managedKeys with
  | true => exact .inl ((h.managed hManaged).1 row hRow)
  | false =>
    obtain ⟨hNone, token, hToken, hHash, _⟩ := h.node hManaged row hRow
    exact .inr ⟨hNone, token, hToken, hHash, (h.named token hToken).2⟩

theorem Keyed.endedGroup_ne (h : Keyed state) (hHashes : (state.tokens.map (·.hash)).Nodup)
    (hRow : row ∈ state.reservations) : endedGroup state.tokens row ≠ "" := by
  rcases h.endedGroup_cases hRow with hGroup | ⟨hNone, token, hToken, hHash, hID⟩
  · rw [endedGroup_of_group hGroup]
    exact hGroup
  · rw [endedGroup_of_token hHashes hToken hHash hNone]
    exact hID

/-- The name a row is reported under stays while there are more tokens. -/
theorem Keyed.endedGroup_grows (h : Keyed state) (hRow : row ∈ state.reservations)
    {tokens : List Token} (hHashes : (state.tokens.map (·.hash)).Nodup)
    (hAfter : (tokens.map (·.hash)).Nodup) (hGrows : state.tokens ⊆ tokens) :
    endedGroup tokens row = endedGroup state.tokens row := by
  rcases h.endedGroup_cases hRow with hGroup | ⟨hNone, token, hToken, hHash, _⟩
  · rw [endedGroup_of_group hGroup, endedGroup_of_group hGroup]
  · rw [endedGroup_of_token hHashes hToken hHash hNone,
      endedGroup_of_token hAfter (hGrows hToken) hHash hNone]

/-- It stays while rows and tokens end or go. -/
theorem Keyed.endedGroup_shrinks (h : Keyed after) (hShrinks : Shrinks state after)
    (hHashes : (state.tokens.map (·.hash)).Nodup) (hAfter : (after.tokens.map (·.hash)).Nodup)
    (hLater : later ∈ after.reservations) (hEnded : EndedFrom row later) :
    endedGroup after.tokens later = endedGroup state.tokens row := by
  have hGroupID : later.groupID = row.groupID := by rw [hEnded.same]
  have hTokenHash : later.tokenHash = row.tokenHash := by rw [hEnded.same]
  rcases h.endedGroup_cases hLater with hGroup | ⟨hNone, token, hToken, hHash, _⟩
  · rw [endedGroup_of_group hGroup, endedGroup_of_group (hGroupID ▸ hGroup), hGroupID]
  · obtain ⟨old, hOld, hFrom⟩ := hShrinks.tokens.partner hToken
    have hOldHash : old.hash = row.tokenHash := by
      rw [← hTokenHash, ← hHash, hFrom.same]
    rw [endedGroup_of_token hAfter hToken hHash hNone,
      endedGroup_of_token hHashes hOld hOldHash (hGroupID ▸ hNone), hFrom.same]

/-- The loop reports the group of every row it is given. -/
theorem mem_reservationEndedEvents (tokens : List Token) (now : Time) {emitted : List String}
    {rows : List Reservation} (hRow : row ∈ rows) (hGroup : endedGroup tokens row ≠ "") :
    endedGroup tokens row ∈ emitted ∨
      ∃ event ∈ reservationEndedEvents tokens now emitted rows,
        event.groupID = endedGroup tokens row := by
  induction rows generalizing emitted with
  | nil => cases hRow
  | cons first rows ih =>
    simp only [reservationEndedEvents]
    split
    · rename_i hReported
      rcases mem_cons.mp hRow with rfl | hLater
      · exact .inr ⟨_, mem_cons_self, rfl⟩
      · rcases ih hLater with hSeen | ⟨event, hEvent, hSame⟩
        · rcases mem_cons.mp hSeen with hFirst | hOld
          · exact .inr ⟨_, mem_cons_self, hFirst.symm⟩
          · exact .inl hOld
        · exact .inr ⟨event, mem_cons_of_mem _ hEvent, hSame⟩
    · rename_i hSkipped
      rcases mem_cons.mp hRow with rfl | hLater
      · exact .inl (by simpa [hGroup] using hSkipped)
      · exact ih hLater

end Groups

variable {row : Reservation} {op : Op} {now : Time}

section Operations

variable [Unicode] [Digest] {clock : Time} {state : State}

/-- The call ends reservations. -/
def Op.EndsRows (op : Op) : Prop :=
  ∃ reservationIDs authorizationIDs leaseIDs,
    op = .releaseScopes reservationIDs authorizationIDs leaseIDs ∧ reservationIDs ≠ []

/-- The row goes on: in its session and under the name it is reported with. -/
structure GoesOn (state after : State) (row later : Reservation) : Prop where
  id : later.id = row.id
  session : later.externalSessionID = row.externalSessionID
  group : endedGroup after.tokens later = endedGroup state.tokens row

omit [Unicode] [Digest] in
theorem GoesOn.refl (hGroup : endedGroup after.tokens row = endedGroup state.tokens row) :
    GoesOn state after row row := ⟨rfl, rfl, hGroup⟩

omit [Unicode] [Digest] in
theorem EndedFrom.goesOn (h : EndedFrom row later)
    (hGroup : endedGroup after.tokens later = endedGroup state.tokens row) :
    GoesOn state after row later := by
  refine ⟨?_, ?_, hGroup⟩
  all_goals rw [h.same]

/-- The ids of the rows that a booking adds. -/
def Op.rowIDs : Op → List String
  | .registerScheduledReservationsWithSession _ fresh _ _ _ gpus _ _ _
  | .registerManagedReservations _ fresh _ _ _ gpus _ _ _ =>
    (newReservations fresh {} gpus).map (·.id)
  | _ => []

/-- The row is one of a new booking, and every row of its session is reported as it is. -/
structure Op.Books (op : Op) (after : State) (later : Reservation) : Prop where
  active : later.active = true
  id : later.id ∈ op.rowIDs
  session : later.externalSessionID ≠ "" → ∀ other ∈ after.reservations,
    other.externalSessionID = later.externalSessionID →
      endedGroup after.tokens other = endedGroup after.tokens later

omit [Unicode] [Digest] in
/-- The rows of a booking whose session has none yet. -/
theorem Op.books_new {fresh : Fresh} {token : Token} {groupID purpose session : String}
    {startsAt expiresAt : Time} {gpus : List Int}
    (hIDs : op.rowIDs = (newReservations fresh {} gpus).map (·.id))
    (hRows : after.reservations = state.reservations ++ newReservations fresh
      (reservationRow token groupID purpose session startsAt expiresAt now) gpus)
    (hNone : sessionReservations state session = [])
    (hLater : later ∈ newReservations fresh
      (reservationRow token groupID purpose session startsAt expiresAt now) gpus) :
    op.Books after later := by
  obtain ⟨i, gpu, _, rfl⟩ := mem_newReservations hLater
  refine ⟨rfl, ?_, fun hSession other hOther hSame => ?_⟩
  · rw [hIDs, newReservations_ids fresh {} (reservationRow token groupID purpose session startsAt
      expiresAt now)]
    exact mem_map_of_mem hLater
  · rw [hRows] at hOther
    rcases mem_append.mp hOther with hOld | hNew
    · change session ≠ "" at hSession
      change other.externalSessionID = session at hSame
      rw [sessionReservations, if_neg hSession] at hNone
      exact absurd (by simpa using hSame) (filter_eq_nil_iff.mp hNone other hOld)
    · obtain ⟨j, gpu', _, rfl⟩ := mem_newReservations hNew
      rfl

omit [Unicode] [Digest] in
theorem releaseScopes_rows (authorizationIDs leaseIDs : List String) (state : State) :
    ((releaseScopes [] authorizationIDs leaseIDs state).edits.apply state).reservations =
      state.reservations := by
  unfold releaseScopes
  split
  · rfl
  · exact Edit.onList_update_self fun _ row _ => if_neg (by simp)

/-- Of the calls that neither book nor issue keys, only one that ends reservations makes a row
inactive. -/
theorem Op.ended_from (hNarrowing : op.narrowing = true)
    (hLater : later ∈ ((op.effect state).edits.apply state).reservations) :
    ∃ row ∈ state.reservations, EndedFrom row later ∧ (row.active = later.active ∨ op.EndsRows) := by
  have hEdited := op.edited state
  generalize (op.effect state).edits = edits at hEdited hLater
  cases hEdited with
  | old _ _ hOld => exact absurd (Op.daemon_of_narrowing hNarrowing) (by simp [hOld])
  | issued | scheduled | managed | confirmed | cutOver => cases hNarrowing
  | pruned | prunedEntitlements =>
    exact ⟨later, mem_of_mem_filter hLater, .refl later, .inl rfl⟩
  | scopes reservationIDs authorizationIDs leaseIDs =>
    have hRows : List.Forall₂ (fun old new => EndedFrom old new ∧
        (old.active = new.active ∨ old.id ∈ reservationIDs)) state.reservations
        ((Edit.update fun _ row => if reservationIDs.contains row.id && row.active then
          { row with active := false } else row).onList state.reservations) := by
      refine Edit.forall₂_update _ fun _ row _ => ⟨endedFrom_released row _, ?_⟩
      split
      · rename_i hNamed
        exact .inr (contains_iff_mem.mp (Bool.and_eq_true_iff.mp hNamed).1)
      · exact .inl rfl
    obtain ⟨old, hOld, hFrom, hActive⟩ := forall₂_partner hRows.flip hLater
    exact ⟨old, hOld, hFrom, hActive.imp_right fun hNamed =>
      ⟨_, _, _, rfl, ne_nil_of_mem hNamed⟩⟩
  | revokedGroup | revokedRows =>
    -- revoking ends no row by itself
    have hRows : ∀ selected : Reservation → Bool, List.Forall₂ (fun old new =>
        EndedFrom old new ∧ old.active = new.active) state.reservations ((Edit.update fun _ row =>
          if selected row then { row with revoked := true } else row).onList
            state.reservations) := by
      refine fun selected => Edit.forall₂_update _ fun _ row _ => ⟨endedFrom_revoked row _, ?_⟩
      split
      · rfl
      · rfl
    obtain ⟨old, hOld, hFrom, hActive⟩ := forall₂_partner (hRows _).flip hLater
    exact ⟨old, hOld, hFrom, .inl hActive⟩
  | _ => exact ⟨later, hLater, .refl later, .inl rfl⟩

omit [Digest] in
/-- The cutover leaves a row its group or gives it the id of its token, under which it was
reported. -/
theorem Keyed.endedGroup_rebinds (h : Keyed state) (hHashes : (state.tokens.map (·.hash)).Nodup)
    (hRow : row ∈ state.reservations) (managed : List Token) (groupHex : Nat → String) (i : Nat) :
    endedGroup managed (rebindReservation state.tokens managed groupHex i row) =
      endedGroup state.tokens row := by
  rw [endedGroup_of_group (Keyed.rebindReservation_group _ _ _ _ _)]
  rcases h.endedGroup_cases hRow with hGroup | ⟨hNone, token, hToken, hHash, hID⟩
  · rw [endedGroup_of_group hGroup]
    exact if_neg hGroup
  · rw [endedGroup_of_token hHashes hToken hHash hNone]
    simp [rebindReservation, hNone, ← hHash, tokenByHash_of_mem hHashes hToken, hID]

/-- A row after a call is one of before, which only a call that ends reservations makes inactive,
or one of a new booking. -/
theorem Op.rows (hDaemon : op.daemon = true) (h : Keyed state)
    (hHashes : (state.tokens.map (·.hash)).Nodup)
    (hAfter : Keyed ((op.effect state).edits.apply state))
    (hNodup : (((op.effect state).edits.apply state).tokens.map (·.hash)).Nodup) :
    ∀ later ∈ ((op.effect state).edits.apply state).reservations,
      (∃ row ∈ state.reservations, GoesOn state ((op.effect state).edits.apply state) row later ∧
        (row.active = later.active ∨ op.EndsRows)) ∨
      op.Books ((op.effect state).edits.apply state) later := by
  intro later hLater
  by_cases hNarrowing : op.narrowing = true
  · obtain ⟨old, hOld, hFrom, hActive⟩ := Op.ended_from hNarrowing hLater
    exact .inl ⟨old, hOld, hFrom.goesOn (hAfter.endedGroup_shrinks
      (Op.shrinks state op hNarrowing) hHashes hNodup hLater hFrom), hActive⟩
  have hEdited := op.edited state
  generalize (op.effect state).edits = edits at hEdited hLater hNodup
  cases hEdited with
  | old _ _ hOld => exact absurd hDaemon (by simp [hOld])
  | quiet | confirmed => exact .inl ⟨later, hLater, .refl rfl, .inl rfl⟩
  | issued =>
    exact .inl ⟨later, hLater, .refl (h.endedGroup_grows hLater hHashes hNodup
      (subset_append_left _ _)), .inl rfl⟩
  | scheduled _ _ _ _ _ _ _ _ _ _ _ _ _ _ hNone =>
    rcases mem_append.mp hLater with hOld | hNew
    · exact .inl ⟨later, hOld, .refl (h.endedGroup_grows hOld hHashes hNodup
        (subset_append_left _ _)), .inl rfl⟩
    · exact .inr (Op.books_new rfl rfl hNone hNew)
  | managed _ _ _ _ _ _ _ _ _ _ _ _ _ _ _ _ hNone =>
    rcases mem_append.mp hLater with hOld | hNew
    · exact .inl ⟨later, hOld, .refl rfl, .inl rfl⟩
    · exact .inr (Op.books_new rfl rfl hNone hNew)
  | cutOver _ groupHex _ _ managed =>
    obtain ⟨i, old, _, hOld, rfl⟩ := mem_rebindReservations hLater
    exact .inl ⟨old, hOld, ⟨rfl, rfl, h.endedGroup_rebinds hHashes hOld managed groupHex i⟩,
      .inl rfl⟩
  | _ => exact absurd rfl hNarrowing

/-- Only the two prunes remove rows. -/
theorem Op.removes (hDaemon : op.daemon = true) (hRow : row ∈ state.reservations)
    (hGone : ∀ later ∈ ((op.effect state).edits.apply state).reservations, later.id ≠ row.id) :
    (∃ now, op = .prune now ∧ prunesReservation state now row = true) ∨
      ∃ now, op = .pruneUnreferencedInvalidEntitlements now ∧
        (row.active = true → row.revoked = true ∨ row.expiresAt ≤ now) ∧
        referencedTokenHash state row.tokenHash = false := by
  have hKept : ∀ {R : Reservation → Reservation → Prop}, (∀ old new, R old new → new.id = old.id) →
      List.Forall₂ R state.reservations ((op.effect state).edits.apply state).reservations →
      False := by
    intro R hID hRows
    obtain ⟨later, hLater, hFrom⟩ := forall₂_partner hRows hRow
    exact hGone later hLater (hID row later hFrom)
  have hStays : row ∉ ((op.effect state).edits.apply state).reservations := fun hStill =>
    hGone row hStill rfl
  have hEdited := op.edited state
  generalize (op.effect state).edits = edits at hEdited hKept hStays
  cases hEdited with
  | old _ _ hOld => exact absurd hDaemon (by simp [hOld])
  | pruned now =>
    refine .inl ⟨now, rfl, ?_⟩
    by_contra hSpared
    exact hStays (mem_filter.mpr ⟨hRow, by simpa using hSpared⟩)
  | prunedEntitlements now =>
    refine .inr ⟨now, rfl, ?_⟩
    by_contra hSpared
    refine hStays (mem_filter.mpr ⟨hRow, ?_⟩)
    rw [not_and_or, Bool.not_eq_false] at hSpared
    rcases hSpared with hLive | hNeeded
    · simp only [Classical.not_imp, not_or, not_le, Bool.not_eq_true] at hLive
      simp [hLive.1, hLive.2.1, hLive.2.2]
    · simp [hNeeded]
  | revokedGroup | revokedRows =>
    refine (hKept (R := EndedFrom) (fun old new hFrom => by rw [hFrom.same]) ?_).elim
    exact Edit.forall₂_update _ fun _ row _ => endedFrom_revoked row _
  | scopes =>
    refine (hKept (R := EndedFrom) (fun old new hFrom => by rw [hFrom.same]) ?_).elim
    exact Edit.forall₂_update _ fun _ row _ => endedFrom_released row _
  | cutOver =>
    refine (hKept (R := fun old new => new.id = old.id) (fun _ _ => id) ?_).elim
    exact Edit.forall₂_update _ fun _ _ _ => rfl
  | scheduled | managed => exact absurd (mem_append_left _ hRow) hStays
  | _ => exact absurd hRow hStays

end Operations

/-- A call that fails with its save, before the directory is synced, leaves the store as it was. -/
theorem Store.call_failed [Unicode] [Digest] {codec : Codec} {errors : SaveErrors} {store : Store}
    {message : String} (hSynced : store.Synced codec)
    (hResult : (op.effect store.state).result = .ok ()) (hSync : errors.syncDir = none)
    (h : (store.call codec errors op).2 = .error message) :
    (store.call codec errors op).1 = store := by
  rcases Store.call_cases codec errors op hSynced with ⟨_, hSame⟩ | ⟨hRenames, hSave, _⟩
  · exact hSame
  · rcases saveOutcome_cases codec errors ((op.effect store.state).edits.apply store.state)
      store.file with ⟨_, hOutcome⟩ | ⟨_, hOutcome⟩
    · simp [Store.renames, hOutcome] at hRenames
    · rw [hSync] at hOutcome
      simp [Store.call, Store.perform, hSave, Store.saveLocked, hOutcome, hResult] at h

/-- Where the monitor ends rows, the save does not fail after its rename; where it removes rows
without a sample, no row of a group is over and still active, unless a scope refers to it. -/
def MonitorStage.KeepsUnreported (state : State) (io : StageIO) : MonitorStage → Prop
  | .reservations pass => releasedReservations pass.state io.now ≠ [] → io.errors.syncDir = none
  | .entitlements _ =>
    ∀ row ∈ state.reservations, row.groupID ≠ "" → row.active = true →
      row.revoked = true ∨ row.expiresAt ≤ io.now →
      referencedTokenHash state row.tokenHash = true
  | _ => True

instance (state : State) (io : StageIO) :
    (stage : MonitorStage) → Decidable (stage.KeepsUnreported state io)
  | .reservations _ => inferInstanceAs (Decidable (_ → _))
  | .entitlements _ => inferInstanceAs (Decidable (∀ row ∈ _, _))
  | .idle | .claims .. | .authorizations _ | .bareAuthorizations _ | .leases _ | .bareLeases _
  | .prune _ | .managedAuthorizations .. | .managedLeases .. | .managedScopes _
  | .escalation _ => isTrue trivial

namespace Daemon

variable [Unicode]

/-- The names that the call of a step gives to keys are new. -/
def NamesKeys (daemon : Daemon) (event : DaemonEvent) : Prop :=
  ∀ call ∈ daemon.nextCall event, call.2.NamesKeys daemon.store.state

instance (daemon : Daemon) (event : DaemonEvent) : Decidable (daemon.NamesKeys event) :=
  inferInstanceAs (Decidable (∀ call ∈ daemon.nextCall event, _))

def KeepsUnreported (daemon : Daemon) : DaemonEvent → Prop
  | .advance io => daemon.stage.KeepsUnreported daemon.store.state io
  | _ => True

instance (daemon : Daemon) : (event : DaemonEvent) → Decidable (daemon.KeepsUnreported event)
  | .advance io =>
    inferInstanceAs (Decidable (daemon.stage.KeepsUnreported daemon.store.state io))
  | .request .. | .monitorOnce .. => isTrue trivial

/-- What the stages of the monitor rely on for the rows: the snapshot of a pass, and after its
cleanup that, if it went well, no active row is over. -/
def RowStage (daemon : Daemon) : Prop :=
  match daemon.stage with
  | .claims pass _ | .reservations pass =>
    Keyed pass.state ∧ (pass.state.tokens.map (·.hash)).Nodup
  | .authorizations pass | .bareAuthorizations pass | .leases pass | .bareLeases pass
  | .prune pass =>
    pass.cleanupOK = true → ∀ row ∈ daemon.store.state.reservations, row.active = true →
      row.revoked = false ∧ pass.now < row.expiresAt
  | _ => True

/-- Every inactive row was reported. -/
def Reported (daemon : Daemon) : Prop :=
  ∀ row ∈ daemon.store.state.reservations, row.active = false →
    ∃ event ∈ daemon.ended, event.groupID = endedGroup daemon.store.state.tokens row

structure Reports (codec : Codec) (daemon : Daemon) : Prop where
  holds : daemon.Holds codec
  keyed : Keyed daemon.store.state
  reported : daemon.Reported
  stage : daemon.RowStage

section Calls

variable {daemon : Daemon} {event : DaemonEvent} {errors : SaveErrors}

/-- Reservations end only in the cleanup of a pass. -/
theorem next_ends {reservationIDs authorizationIDs leaseIDs : List String}
    (hNext : daemon.nextCall event =
      some (errors, .releaseScopes reservationIDs authorizationIDs leaseIDs))
    (hSome : reservationIDs ≠ []) :
    ∃ pass io, daemon.stage = .reservations pass ∧ event = .advance io := by
  cases calls_of_next hNext with
  | request errors request op hFree hCalls =>
    cases hCalls with
    | reclaim => exact absurd rfl hSome
  | advance io op hCalls =>
    cases hCalls with
    | reservations pass hAt => exact ⟨pass, io, hAt, rfl⟩
    | _ => exact absurd rfl hSome

/-- The prune of entitlements is that of a tick without a sample. -/
theorem next_pruneUnreferenced
    (hNext : daemon.nextCall event = some (errors, .pruneUnreferencedInvalidEntitlements now)) :
    ∃ tick io, daemon.stage = .entitlements tick ∧ event = .advance io ∧ now = io.now := by
  cases calls_of_next hNext with
  | request errors request op hFree hCalls => cases hCalls
  | advance io op hCalls =>
    cases hCalls with
    | entitlements tick hAt => exact ⟨tick, io, hAt, rfl, rfl⟩

end Calls

section Step

variable [Digest] (grace : Duration) {codec : Codec} {daemon : Daemon} {event : DaemonEvent}

theorem step_keyed (hDigest : ∀ hex, hashToken ("gk_" ++ hex) ≠ "") (hHolds : daemon.Holds codec)
    (h : Keyed daemon.store.state) (hEvent : event.Admitted daemon)
    (hNames : daemon.NamesKeys event) : Keyed (daemon.step grace codec event).store.state := by
  rcases step_state_cases grace event hHolds.synced with hSame | ⟨errors, op, hNext, hState⟩
  · rwa [hSame]
  · rw [hState]
    exact Op.keyed hDigest (next_careful grace hHolds hEvent hNext).2 (hNames _ hNext)
      (hHolds.backed.later ((step_extends grace daemon event).clock hEvent)) h

/-- A row after a step is one of before or of a new booking. -/
theorem step_rows (hDigest : ∀ hex, hashToken ("gk_" ++ hex) ≠ "")
    (hSmall : Unicode.KeepsSmall) (hHolds : daemon.Holds codec)
    (h : Keyed daemon.store.state) (hEvent : event.Admitted daemon) (hNames : daemon.NamesKeys event)
    {later : Reservation} (hLater : later ∈ (daemon.step grace codec event).store.state.reservations) :
    (∃ row ∈ daemon.store.state.reservations,
      GoesOn daemon.store.state (daemon.step grace codec event).store.state row later ∧
        (row.active = later.active ∨ ∃ call ∈ daemon.nextCall event, call.2.EndsRows)) ∨
    ∃ call ∈ daemon.nextCall event,
      call.2.Books (daemon.step grace codec event).store.state later := by
  have hKeyed := step_keyed grace hDigest hHolds h hEvent hNames
  have hNodup := (step_backed grace hSmall hHolds hEvent).hashes
  rcases step_state_cases grace event hHolds.synced with hSame | ⟨errors, op, hNext, hState⟩
  · rw [hSame] at hLater ⊢
    exact .inl ⟨later, hLater, .refl rfl, .inl rfl⟩
  · rw [hState] at hLater hKeyed hNodup ⊢
    rcases Op.rows (next_careful grace hHolds hEvent hNext).1 h hHolds.backed.hashes hKeyed hNodup
      later hLater with ⟨row, hRow, hOn, hActive⟩ | hBooks
    · exact .inl ⟨row, hRow, hOn, hActive.imp_right fun hEnds => ⟨_, hNext, hEnds⟩⟩
    · exact .inr ⟨_, hNext, hBooks⟩

/-- Where no reservations end, what is inactive was so before. -/
theorem step_reported (hDigest : ∀ hex, hashToken ("gk_" ++ hex) ≠ "")
    (hSmall : Unicode.KeepsSmall) (h : daemon.Reports codec)
    (hEvent : event.Admitted daemon) (hNames : daemon.NamesKeys event)
    (hOther : ∀ pass io, daemon.stage = .reservations pass → event ≠ .advance io) :
    (daemon.step grace codec event).Reported := by
  intro later hLater hEnded
  rcases step_rows grace hDigest hSmall h.holds h.keyed hEvent hNames hLater with
    ⟨row, hRow, hOn, hActive | ⟨⟨errors, op⟩, hNext, _, _, _, rfl, hSome⟩⟩ | ⟨_, _, hBooked⟩
  · obtain ⟨event', hReported, hSame⟩ := h.reported row hRow (hActive.trans hEnded)
    exact ⟨event', (step_extends grace daemon event).ended hReported, hSame.trans hOn.group.symm⟩
  · obtain ⟨pass, io, hAt, rfl⟩ := next_ends hNext hSome
    exact absurd rfl (hOther pass io hAt)
  · rw [hBooked.active] at hEnded
    cases hEnded

omit [Unicode] [Digest] in
theorem mem_releasedRows {state : State} {reservationIDs authorizationIDs leaseIDs : List String}
    (hLater : later ∈ ((GPUardian.releaseScopes reservationIDs
      authorizationIDs leaseIDs state).edits.apply state).reservations) :
    ∃ old ∈ state.reservations, later = old ∧ (old.active = true → old.id ∉ reservationIDs) ∨
      later = { old with active := false } ∧ old.active = true ∧ old.id ∈ reservationIDs := by
  unfold GPUardian.releaseScopes at hLater
  split at hLater
  · rename_i hNone
    exact ⟨later, hLater, .inl ⟨rfl, fun _ => by simp [hNone.1]⟩⟩
  · exact mem_endedRows hLater

/-- The cleanup of reservations: the rows that it ends are reported, and if it goes well no active
row is over. -/
theorem cleanupReservations_reports (h : daemon.Reports codec) {pass : PassState}
    (hAt : daemon.stage = .reservations pass) {io : StageIO} (hNow : daemon.clock ≤ io.now)
    (hSave : releasedReservations pass.state io.now ≠ [] → io.errors.syncDir = none) :
    (daemon.advance codec io).Reported ∧ (daemon.advance codec io).RowStage := by
  have hStage := h.holds.stage
  have hKeyedPass := h.stage
  have hReported := h.reported
  have hSynced := h.holds.synced
  have hHashes := h.holds.backed.hashes
  have hRowIDs := h.holds.backed.rows
  rw [StageHolds, hAt] at hStage
  rw [RowStage, hAt] at hKeyedPass
  obtain ⟨hPass, hRows⟩ := hStage
  obtain ⟨hKeyed, hPassHashes⟩ := hKeyedPass
  obtain ⟨store, signals, clean, stage, runs, clock, recorded, ended⟩ := daemon
  obtain rfl : stage = .reservations pass := hAt
  have hTokens := (releaseReservations_same hSynced io.errors
    ((releasedReservations pass.state io.now).map (·.id))).2
  simp only [advance, cleanupExpiredReservationsState, releaseScopes]
  cases hAnswer : (store.call codec io.errors
      (.releaseScopes ((releasedReservations pass.state io.now).map (·.id)) [] [])).2 with
  | error message =>
    have hSome : releasedReservations pass.state io.now ≠ [] := by
      intro hNone
      rw [hNone] at hAnswer
      cases hAnswer
    have hResult : ((Op.releaseScopes ((releasedReservations pass.state io.now).map (·.id)) []
        []).effect store.state).result = .ok () := by
      simp only [Op.effect, GPUardian.releaseScopes]
      split
      · rfl
      · rfl
    have hSame := Store.call_failed hSynced hResult (hSave hSome) hAnswer
    refine ⟨?_, fun hStage => by cases hStage⟩
    intro row hRow hInactive
    dsimp only at hRow ⊢
    rw [hSame] at hRow ⊢
    exact hReported row hRow hInactive
  | ok answer =>
    have hState := (Store.perform_ok codec hAnswer).2
    constructor
    · intro later hLater hInactive
      rw [show endedGroup (store.call codec io.errors (.releaseScopes ((releasedReservations
        pass.state io.now).map (·.id)) [] [])).1.state.tokens later =
          endedGroup store.state.tokens later from congrArg (endedGroup · later) hTokens]
      replace hLater := hState ▸ hLater
      obtain ⟨old, hOld, ⟨rfl, _⟩ | ⟨rfl, hActive, hNamed⟩⟩ := mem_releasedRows hLater
      · obtain ⟨event, hEvent, hGroup⟩ := hReported later hOld hInactive
        exact ⟨event, mem_append_left _ hEvent, hGroup⟩
      · obtain ⟨other, hOther, hID⟩ := mem_map.mp hNamed
        have hStored : other ∈ store.state.reservations := by
          rw [hRows]
          exact mem_of_mem_filter hOther
        have hSame : other = old := inj_on_of_nodup_map hRowIDs hStored hOld hID
        rw [hSame] at hOther
        have hOldPass : old ∈ pass.state.reservations := mem_of_mem_filter hOther
        have hGroup : endedGroup store.state.tokens { old with active := false } =
            endedGroup pass.state.tokens old :=
          hKeyed.endedGroup_grows hOldPass hPassHashes hHashes hPass.tokens
        rcases mem_reservationEndedEvents pass.state.tokens io.now hOther
          (hKeyed.endedGroup_ne hPassHashes hOldPass) with hNone | ⟨event, hEvent, hReports⟩
        · exact absurd hNone not_mem_nil
        · exact ⟨event, mem_append_right _ hEvent, hReports.trans hGroup.symm⟩
    · intro _ later hLater hActive
      replace hLater := hState ▸ hLater
      obtain ⟨old, hOld, ⟨rfl, hSpared⟩ | ⟨rfl, _⟩⟩ := mem_releasedRows hLater
      · have hLasts : ¬ later ∈ releasedReservations pass.state io.now := fun hReleased =>
          hSpared hActive (mem_map_of_mem hReleased)
        rw [hRows] at hOld
        simp only [releasedReservations, mem_filter, hOld, hActive, true_and, Bool.true_and,
          Bool.or_eq_true, Bool.not_eq_true', decide_eq_false_iff_not, not_or, not_not,
          Bool.not_eq_true] at hLasts
        exact ⟨hLasts.1, lt_of_le_of_lt (hPass.now.trans hNow) hLasts.2⟩
      · cases hActive

/-- The later cleanups of a pass leave the rows. -/
theorem call_releaseScopes_rows {store : Store} (hSynced : store.Synced codec) (errors : SaveErrors)
    (authorizationIDs leaseIDs : List String) :
    (store.call codec errors
      (.releaseScopes [] authorizationIDs leaseIDs)).1.state.reservations =
        store.state.reservations :=
  Store.call_keeps (P := fun state => state.reservations = store.state.reservations) codec hSynced
    rfl (releaseScopes_rows authorizationIDs leaseIDs store.state)

omit [Unicode] [Digest] in
theorem rowStage_of_free (h : daemon.stage.locked = false) : daemon.RowStage := by
  unfold RowStage
  cases hAt : daemon.stage with
  | idle => trivial
  | escalation tick => trivial
  | _ => simp [hAt, MonitorStage.locked] at h

/-- A claim key request may come at every stage. -/
theorem claimKey_rowStage (h : daemon.Reports codec) (errors : SaveErrors) (rootKey : RootKeyCheck)
    (fresh : Fresh) (name : String) (now : Time) :
    (daemon.serve codec errors (.claimKey rootKey fresh name now)).RowStage := by
  have hSame := (claimKey_same h.holds.synced errors rootKey fresh name now).reservations
  have hStage := h.stage
  obtain ⟨store, signals, clean, stage, runs, clock, recorded, ended⟩ := daemon
  cases stage with
  | claims pass decisions => exact hStage
  | reservations pass => exact hStage
  | authorizations pass | bareAuthorizations pass | leases pass | bareLeases pass | prune pass =>
    intro hOK row hRow
    exact hStage hOK row (hSame ▸ hRow)
  | _ => trivial

/-- The other steps leave what the stages rely on for the rows. -/
theorem step_rowStage (h : daemon.Reports codec)
    (hOther : ∀ pass io, daemon.stage = .reservations pass → event ≠ .advance io) :
    (daemon.step grace codec event).RowStage := by
  have hStage := h.stage
  cases event with
  | request errors request =>
    cases hAt : daemon.stage.locked with
    | false =>
      apply rowStage_of_free
      rw [show (daemon.step grace codec (.request errors request)).stage = daemon.stage from
        (serve_stage errors request daemon).1]
      exact hAt
    | true =>
      cases request with
      | claimKey rootKey fresh name now =>
        exact claimKey_rowStage h errors rootKey fresh name now
      | _ =>
        rw [step, serve, if_pos (by simp [hAt, Request.locks])]
        exact hStage
  | monitorOnce tick now =>
    simp only [step, monitorOnce]
    split
    · split
      · trivial
      · exact ⟨h.keyed, h.holds.backed.hashes⟩
    · exact hStage
  | advance io =>
    have hSynced := h.holds.synced
    obtain ⟨store, signals, clean, stage, runs, clock, recorded, ended⟩ := daemon
    cases stage with
    | reservations pass => exact absurd rfl (hOther pass io rfl)
    | claims pass decisions =>
      cases decisions with
      | nil => exact hStage
      | cons decision rest =>
        simp only [step, advance]
        cases claimOp io pass.now decision with
        | none => exact hStage
        | some op => exact hStage
    | authorizations pass =>
      intro hOK row hRow
      exact hStage (Bool.and_eq_true_iff.mp hOK).2 row
        (call_releaseScopes_rows hSynced io.errors _ [] ▸ hRow)
    | bareAuthorizations pass =>
      intro hOK row hRow
      exact hStage hOK row (call_releaseScopes_rows hSynced io.errors _ [] ▸ hRow)
    | leases pass =>
      intro hOK row hRow
      exact hStage (Bool.and_eq_true_iff.mp hOK).2 row
        (call_releaseScopes_rows hSynced io.errors [] _ ▸ hRow)
    | bareLeases pass =>
      intro hOK row hRow
      exact hStage hOK row (call_releaseScopes_rows hSynced io.errors [] _ ▸ hRow)
    | prune pass =>
      simp only [step, advance]
      split
      · trivial
      · trivial
    | _ => trivial

/-- Every such step keeps the reports complete. -/
theorem step_reports (hDigest : ∀ hex, hashToken ("gk_" ++ hex) ≠ "")
    (hSmall : Unicode.KeepsSmall) (h : daemon.Reports codec)
    (hEvent : event.Admitted daemon) (hNames : daemon.NamesKeys event)
    (hKeeps : daemon.KeepsUnreported event) : (daemon.step grace codec event).Reports codec := by
  have hHolds := step_holds hSmall grace h.holds hEvent
  have hKeyed := step_keyed grace hDigest h.holds h.keyed hEvent hNames
  by_cases hEnds : ∃ pass io, daemon.stage = .reservations pass ∧ event = .advance io
  · obtain ⟨pass, io, hAt, rfl⟩ := hEnds
    replace hKeeps : daemon.stage.KeepsUnreported daemon.store.state io := hKeeps
    rw [hAt] at hKeeps
    obtain ⟨hReported, hStage⟩ := cleanupReservations_reports h hAt hEvent hKeeps
    exact ⟨hHolds, hKeyed, hReported, hStage⟩
  · have hOther : ∀ pass io, daemon.stage = .reservations pass → event ≠ .advance io :=
      fun pass io hAt hSame => hEnds ⟨pass, io, hAt, hSame⟩
    exact ⟨hHolds, hKeyed, step_reported grace hDigest hSmall h hEvent hNames hOther,
      step_rowStage grace h hOther⟩

omit [Digest] in
/-- A live row is not pruned. -/
theorem not_prunesReservation {state : State} (h : Keyed state)
    (hHashes : (state.tokens.map (·.hash)).Nodup) (hRow : row ∈ state.reservations)
    (hActive : row.active = true) (hLive : row.revoked = false) (hLasts : now < row.expiresAt) :
    prunesReservation state now row = false := by
  refine prunesReservation_eq_false.mpr ⟨⟨hActive, hLive, hLasts⟩, expiredTokenHash_eq_false.mpr ?_⟩
  intro token hToken hOwn hNamed
  have hUnrevoked : token.revoked = false := by
    cases hRevoked : token.revoked with
    | false => rfl
    | true => simp [h.revoked token hToken hRevoked row hRow hOwn.symm] at hLive
  have hUnexpired : tokenExpired token now = false := by
    cases hManaged : state.managedKeys with
    | true => simp [tokenExpired, timeIsSet, (h.managed hManaged).2 token hToken]
    | false =>
      obtain ⟨_, own, hStored, hSame, hExpires⟩ := h.node hManaged row hRow
      have hEq : own = token := inj_on_of_nodup_map hHashes hStored hToken
        (hSame.trans hOwn.symm)
      simp [tokenExpired, ← hEq, hExpires, hLasts]
  refine prunesToken_eq_false.mpr ⟨by simp [tokenActiveAt, hUnrevoked, hUnexpired], fun _ => ?_⟩
  exact liveReservationTokenHash_eq_true.mpr
    ⟨hOwn ▸ hNamed, row, hRow, ⟨hActive, hLive, hLasts⟩, hOwn.symm⟩

/-- A row of a group goes only after the group was reported. -/
theorem step_removes_reported (h : daemon.Reports codec) (hEvent : event.Admitted daemon)
    (hKeeps : daemon.KeepsUnreported event) (hRow : row ∈ daemon.store.state.reservations)
    (hGroup : row.groupID ≠ "")
    (hGone : ∀ later ∈ (daemon.step grace codec event).store.state.reservations,
      later.id ≠ row.id) : ∃ ended ∈ daemon.ended, ended.groupID = row.groupID := by
  suffices hInactive : row.active = false by
    obtain ⟨ended, hEnded, hSame⟩ := h.reported row hRow hInactive
    exact ⟨ended, hEnded, hSame.trans (endedGroup_of_group hGroup)⟩
  rcases step_state_cases grace event h.holds.synced with hSame | ⟨errors, op, hNext, hState⟩
  · rw [hSame] at hGone
    exact absurd rfl (hGone row hRow)
  · rw [hState] at hGone
    rcases Op.removes (next_careful grace h.holds hEvent hNext).1 hRow hGone with
      ⟨now, rfl, hPruned⟩ | ⟨now, rfl, hOver, hUnneeded⟩
    · obtain ⟨pass, hAt, hOK, rfl⟩ := next_prunes hNext
      have hStage := h.stage
      rw [RowStage, hAt] at hStage
      by_contra hActive
      have hLive := eq_true_of_ne_false hActive
      obtain ⟨hUnrevoked, hLasts⟩ := hStage hOK row hRow hLive
      rw [not_prunesReservation h.keyed h.holds.backed.hashes hRow hLive hUnrevoked hLasts] at hPruned
      cases hPruned
    · obtain ⟨tick, io, hAt, rfl, rfl⟩ := next_pruneUnreferenced hNext
      replace hKeeps : daemon.stage.KeepsUnreported daemon.store.state io := hKeeps
      rw [hAt] at hKeeps
      by_contra hActive
      have hLive := eq_true_of_ne_false hActive
      rw [hKeeps row hRow hGroup hLive (hOver hLive)] at hUnneeded
      cases hUnneeded

end Step

end Daemon

open Daemon

/-- Over every run of requests and passes with a clock that does not go back and with new names, in
which each step meets the condition: a row of a group is removed only after the end of the group
was reported. -/
theorem removed_only_after_reported [Unicode] [Digest]
    (hSmall : ∀ c : Char, c.isLower → Unicode.lower c = c)
    (hDigest : ∀ hex, hashToken ("gk_" ++ hex) ≠ "") (grace : Duration) (codec : Codec)
    (events : List DaemonEvent) (event : DaemonEvent)
    (hRun : Along (step grace codec) (fun daemon event =>
      event.Admitted daemon ∧ daemon.NamesKeys event ∧ daemon.KeepsUnreported event) {}
      (events ++ [event])) :
    let before := run (step grace codec) {} events
    let after := run (step grace codec) {} (events ++ [event])
    ∀ row ∈ before.store.state.reservations, row.groupID ≠ "" →
      (∀ later ∈ after.store.state.reservations, later.id ≠ row.id) →
      ∃ ended ∈ before.ended, ended.groupID = row.groupID := by
  intro before after row hRow hGroup hGone
  obtain ⟨hEarlier, ⟨hAdmitted, _, hKeeps⟩, _⟩ := along_append.mp hRun
  have hStart : ({} : Daemon).Reports codec :=
    ⟨holds_start codec, .empty, fun _ hNone => absurd hNone not_mem_nil, trivial⟩
  have hBefore : before.Reports codec := hEarlier.invariant (Daemon.Reports codec)
    (fun _ _ hStep h => step_reports grace hDigest hSmall h hStep.1 hStep.2.1 hStep.2.2) hStart
  have hAfter : after = before.step grace codec event := Interleaving.run_append _ _ _ _
  rw [hAfter] at hGone
  exact step_removes_reported grace hBefore hAdmitted hKeeps hRow hGroup hGone

section Samples

open scoped Plain

/-- The keys come from a gateway, and Alice books two GPUs. -/
def aliceRequests : List DaemonEvent :=
  [.request {} (.syncKeys (.ok true) (fun _ => "0")
      { snapshotID := "s1", keys := [keyOf "uk_1" "alice" 'a'] } 10),
    .request {} (.bookManaged (.ok true)
      { groupHex := "1", reservationHex := fun i => if i = 0 then "1" else "2" } "uk_1" "" "" [0, 1]
      100 200 20)]

def aliceEnded : State :=
  { aliceBooked with reservations := aliceBooked.reservations.map ({ · with active := false }) }

def aliceEndedCodec : Codec := tableCodec [aliceKeyed, aliceBooked, aliceEnded]

/-- A tick after the booking has expired, with a sample. -/
def aliceExpires : List DaemonEvent :=
  aliceRequests ++ quietPass 250 ++ List.replicate 4 (.advance { now := 250 })

theorem hashToken_ne_empty (hex : String) : hashToken ("gk_" ++ hex) ≠ "" := by
  intro hEmpty
  have hList := congrArg String.toList hEmpty
  simp [hashToken, Digest.sha256Hex] at hList

/-- Alice's booking expires and is reported before the prune. -/
theorem removed_only_after_reported_alice :
    let before := run (step 2 aliceEndedCodec) {} aliceExpires
    let after := run (step 2 aliceEndedCodec) {}
      (aliceExpires ++ [.advance { now := 250 }])
    before.store.state.reservations = aliceEnded.reservations ∧
      after.store.state.reservations = [] ∧
      ∃ ended ∈ before.ended, ended.groupID = "grp_1" := by
  have hRun : Along (step 2 aliceEndedCodec) (fun daemon event =>
      DaemonEvent.Admitted daemon event ∧ NamesKeys daemon event ∧
        daemon.KeepsUnreported event) {} (aliceExpires ++ [.advance { now := 250 }]) := by
    decide +kernel
  have hBefore : (run (step 2 aliceEndedCodec) {}
      aliceExpires).store.state.reservations = aliceEnded.reservations := by decide +kernel
  have hAfter : (run (step 2 aliceEndedCodec) {}
      (aliceExpires ++ [.advance { now := 250 }])).store.state.reservations = [] := by decide +kernel
  have hReported := @removed_only_after_reported ascii plain ascii_lower_of_isLower
    hashToken_ne_empty 2 aliceEndedCodec aliceExpires (.advance { now := 250 }) hRun
    { aliceRow "res_1" 0 with active := false }
  refine ⟨hBefore, hAfter, ?_⟩
  rw [hBefore, hAfter] at hReported
  exact hReported mem_cons_self (by decide) fun _ hNone => absurd hNone not_mem_nil

/-- A tick for which the GPUs cannot be read. -/
def outageTick (time : Time) : Tick :=
  { tickAt time {} [] [] (.ok intruder) with sample := .error "nvidia-smi: signal: killed" }

/-- The booking expires during an outage. -/
def aliceForgotten : List DaemonEvent :=
  aliceRequests ++ [.monitorOnce (outageTick 250) 250, .advance { now := 250 },
    .advance { now := 250 }, .advance { now := 250 }]

/-- The rows are removed, and nothing was reported. -/
theorem removed_unreported :
    let before := run (step 2 aliceEndedCodec) {} aliceForgotten
    let after := run (step 2 aliceEndedCodec) {}
      (aliceForgotten ++ [.advance { now := 250 }])
    Along (step 2 aliceEndedCodec) (fun daemon event =>
        event.Admitted daemon ∧ daemon.NamesKeys event) {}
        (aliceForgotten ++ [.advance { now := 250 }]) ∧
      before.store.state.reservations.map (fun row => (row.id, row.groupID)) =
        [("res_1", "grp_1"), ("res_2", "grp_1")] ∧
      after.store.state.reservations = [] ∧ after.ended.length = 0 := by
  decide +kernel

end Samples

end GPUardian
