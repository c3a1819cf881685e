import GPUardian.Library.Interleaving
import GPUardian.Store.Persistence

/-! What the operations leave that neither book nor issue keys: rows and tokens end or are
dropped, and nothing else about them changes. Runs in which each call meets a condition on
the state it finds are interleavings of the store's calls. -/
namespace GPUardian

open GoStrings GoSlice List Interleaving

/-- The later row is the earlier one, except that it may have ended. -/
structure EndedFrom (old new : Reservation) : Prop where
  same : new = { old with active := new.active, revoked := new.revoked }
  active : new.active = true → old.active = true
  revoked : old.revoked = true → new.revoked = true

/-- The later token is the earlier one, except that it may have been revoked. -/
structure RevokedFrom (old new : Token) : Prop where
  same : new = { old with revoked := new.revoked }
  revoked : old.revoked = true → new.revoked = true

theorem EndedFrom.refl (row : Reservation) : EndedFrom row row := ⟨rfl, id, id⟩

theorem RevokedFrom.refl (token : Token) : RevokedFrom token token := ⟨rfl, id⟩

theorem endedFrom_revoked (row : Reservation) (c : Bool) :
    EndedFrom row (if c then { row with revoked := true } else row) := by
  cases c with
  | false => exact .refl row
  | true => exact ⟨rfl, id, fun _ => rfl⟩

theorem endedFrom_released (row : Reservation) (c : Bool) :
    EndedFrom row (if c then { row with active := false } else row) := by
  cases c with
  | false => exact .refl row
  | true => exact ⟨rfl, nofun, id⟩

theorem revokedFrom_revoked (token : Token) (c : Bool) :
    RevokedFrom token (if c then { token with revoked := true } else token) := by
  cases c with
  | false => exact .refl token
  | true => exact ⟨rfl, fun _ => rfl⟩

/-- Rows and tokens have ended or are gone, there are no new ones, and the keys are managed
as before. -/
structure Shrinks (before after : State) : Prop where
  rows : Leaves EndedFrom before.reservations after.reservations
  tokens : Leaves RevokedFrom before.tokens after.tokens
  managedKeys : after.managedKeys = before.managedKeys
  keySnapshotID : after.keySnapshotID = before.keySnapshotID

theorem Shrinks.of_eq {before after : State} (hRows : after.reservations = before.reservations)
    (hTokens : after.tokens = before.tokens) (hManaged : after.managedKeys = before.managedKeys)
    (hSnapshot : after.keySnapshotID = before.keySnapshotID) : Shrinks before after where
  rows := hRows ▸ .of_sublist EndedFrom.refl (Sublist.refl _)
  tokens := hTokens ▸ .of_sublist RevokedFrom.refl (Sublist.refl _)
  managedKeys := hManaged
  keySnapshotID := hSnapshot

/-- The operations of the daemon that neither book nor issue keys. -/
def Op.narrowing : Op → Bool
  | .registerSoftToken .. | .registerScheduledReservationsWithSession ..
  | .registerManagedReservations .. | .syncManagedUserKeys .. => false
  | op => op.daemon

theorem Op.daemon_of_narrowing {op : Op} (h : op.narrowing = true) : op.daemon = true := by
  cases op with
  | registerSoftToken | registerScheduledReservationsWithSession | registerManagedReservations
  | syncManagedUserKeys => rfl
  | _ => exact h

section Operations

variable [Unicode] [Digest]

theorem Op.shrinks (state : State) (op : Op) (h : op.narrowing = true) :
    Shrinks state ((op.effect state).edits.apply state) := by
  refine Op.edits_ind fun edits hEdited => ?_
  cases hEdited with
  | old _ _ hOp => exact absurd (Op.daemon_of_narrowing h) (by simp [hOp])
  | issued | scheduled | managed | confirmed | cutOver => cases h
  | revokedGroup =>
    exact ⟨.of_forall₂ (Edit.forall₂_update _ fun _ row _ => endedFrom_revoked row _),
      .of_sublist RevokedFrom.refl (Sublist.refl _), rfl, rfl⟩
  | revokedRows =>
    exact ⟨.of_forall₂ (Edit.forall₂_update _ fun _ row _ => endedFrom_revoked row _),
      .of_forall₂ (Edit.forall₂_update _ fun _ token _ => revokedFrom_revoked token _), rfl, rfl⟩
  | scopes =>
    exact ⟨.of_forall₂ (Edit.forall₂_update _ fun _ row _ => endedFrom_released row _),
      .of_sublist RevokedFrom.refl (Sublist.refl _), rfl, rfl⟩
  | pruned | prunedEntitlements =>
    exact ⟨.of_sublist EndedFrom.refl filter_sublist,
      .of_sublist RevokedFrom.refl filter_sublist, rfl, rfl⟩
  | _ => exact .of_eq rfl rfl rfl rfl

end Operations

namespace Store

variable [Unicode] [Digest] (codec : Codec)

/-- Every call of a run meets a condition on the state it finds. -/
def Meets (ok : State → Op → Prop) (store : Store) (calls : List (SaveErrors × Op)) : Prop :=
  Along (fun (store : Store) call => (store.call codec call.1 call.2).1)
    (fun store call => ok store.state call.2) store calls

/-- A property of the state and of its edited form holds after the call, whatever fails. -/
theorem call_keeps {P : State → Prop} {errors : SaveErrors} {op : Op} {store : Store}
    (hSynced : store.Synced codec) (hP : P store.state)
    (hEdited : P ((op.effect store.state).edits.apply store.state)) :
    P (store.call codec errors op).1.state := by
  rcases call_cases codec errors op hSynced with ⟨_, hSame⟩ | ⟨_, _, next, hNext, hCall⟩
  · rw [hSame]
    exact hP
  · rw [hCall, hNext]
    exact hEdited

/-- A property that the edits of such calls keep holds along the run, whatever fails. -/
theorem Meets.invariant {ok : State → Op → Prop} {P : State → Prop}
    (hStep : ∀ state op, ok state op → P state → P ((op.effect state).edits.apply state))
    {store : Store} {calls : List (SaveErrors × Op)} (h : store.Meets codec ok calls)
    (hSynced : store.Synced codec) (hP : P store.state) : P (store.run codec calls).state := by
  have hBoth : (store.run codec calls).Synced codec ∧ P (store.run codec calls).state := by
    refine Along.invariant (fun store => store.Synced codec ∧ P store.state)
      (fun store call hOk hInv => ?_) h ⟨hSynced, hP⟩
    exact ⟨call_synced codec call.1 call.2 hInv.1,
      call_keeps codec hInv.1 hInv.2 (hStep store.state call.2 hOk hInv.2)⟩
  exact hBoth.2

/-- The save of the call, if it comes to one, succeeds. -/
def Saves (errors : SaveErrors) (op : Op) (store : Store) : Prop :=
  (op.effect store.state).save = true →
    (saveOutcome codec errors ((op.effect store.state).edits.apply store.state) store.file).error =
      none

theorem call_saved {errors : SaveErrors} {op : Op} {store : Store}
    (h : Saves codec errors op store) :
    (store.call codec errors op).1.state = (op.effect store.state).edits.apply store.state ∧
      (store.call codec errors op).2 = (op.effect store.state).result := by
  unfold call perform
  dsimp only
  cases hSave : (op.effect store.state).save with
  | false => exact ⟨rfl, rfl⟩
  | true =>
    simp [saveLocked, h hSave]

end Store

end GPUardian
