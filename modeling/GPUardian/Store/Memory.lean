import GPUardian.Store.Persistence

/-! The store in memory. Both copies of the state are records of slices, the mutators
write through the slices of the working copy, and a save or a rollback copies slices.
Rows are values: no mutator writes into the command of a row, and the copies made of
it are not modelled. Each field has an arena of its own, since Go never lets arrays of
different element types overlap. -/
namespace GPUardian

open GoStrings GoSlice

/-- The fields that are no slices. -/
structure Scalars where
  managedKeys : Bool := false
  keySnapshotID : String := ""
  managedKeyAuthority : String := ""

def State.scalars (state : State) : Scalars :=
  ⟨state.managedKeys, state.keySnapshotID, state.managedKeyAuthority⟩

def Scalars.edit (edits : Edits) (scalars : Scalars) : Scalars :=
  { managedKeys := edits.managedKeys.getD scalars.managedKeys
    keySnapshotID := edits.keySnapshotID.getD scalars.keySnapshotID
    managedKeyAuthority := edits.managedKeyAuthority.getD scalars.managedKeyAuthority }

/-- What the spare cells of a newly grown array hold, for each field. -/
structure Spare where
  tokens : List Token := []
  reservations : List Reservation := []
  authorizations : List Authorization := []
  softClaims : List SoftClaim := []
  leases : List Lease := []
  bypasses : List BypassRule := []
  audit : List AuditEvent := []

structure Memory where
  live : Scalars
  saved : Scalars
  tokens : Column Token
  reservations : Column Reservation
  authorizations : Column Authorization
  softClaims : Column SoftClaim
  leases : Column Lease
  bypasses : Column BypassRule
  audit : Column AuditEvent
  file : Option String

namespace Memory

def state (memory : Memory) : State :=
  { managedKeys := memory.live.managedKeys
    keySnapshotID := memory.live.keySnapshotID
    managedKeyAuthority := memory.live.managedKeyAuthority
    tokens := memory.tokens.rows
    reservations := memory.reservations.rows
    authorizations := memory.authorizations.rows
    softClaims := memory.softClaims.rows
    leases := memory.leases.rows
    bypasses := memory.bypasses.rows
    audit := memory.audit.rows }

def committed (memory : Memory) : State :=
  { managedKeys := memory.saved.managedKeys
    keySnapshotID := memory.saved.keySnapshotID
    managedKeyAuthority := memory.saved.managedKeyAuthority
    tokens := memory.tokens.savedRows
    reservations := memory.reservations.savedRows
    authorizations := memory.authorizations.savedRows
    softClaims := memory.softClaims.savedRows
    leases := memory.leases.savedRows
    bypasses := memory.bypasses.savedRows
    audit := memory.audit.savedRows }

/-- What the memory shows, without how it is laid out. -/
def store (memory : Memory) : Store := ⟨memory.state, memory.committed, memory.file⟩

/-- The statements of a mutator on the working copy. -/
def edit (spare : Spare) (edits : Edits) (memory : Memory) : Memory :=
  { memory with
    live := memory.live.edit edits
    tokens := memory.tokens.edit spare.tokens edits.tokens
    reservations := memory.reservations.edit spare.reservations edits.reservations
    authorizations := memory.authorizations.edit spare.authorizations edits.authorizations
    softClaims := memory.softClaims.edit spare.softClaims edits.softClaims
    leases := memory.leases.edit spare.leases edits.leases
    bypasses := memory.bypasses.edit spare.bypasses edits.bypasses }

/-- `s.committed = cloneState(s.state)`. -/
def commit (spare : Spare) (memory : Memory) : Memory :=
  { memory with
    saved := memory.live
    tokens := memory.tokens.commit spare.tokens
    reservations := memory.reservations.commit spare.reservations
    authorizations := memory.authorizations.commit spare.authorizations
    softClaims := memory.softClaims.commit spare.softClaims
    leases := memory.leases.commit spare.leases
    bypasses := memory.bypasses.commit spare.bypasses
    audit := memory.audit.commit spare.audit }

/-- `s.state = cloneState(s.committed)`. -/
def rollback (spare : Spare) (memory : Memory) : Memory :=
  { memory with
    live := memory.saved
    tokens := memory.tokens.rollback spare.tokens
    reservations := memory.reservations.rollback spare.reservations
    authorizations := memory.authorizations.rollback spare.authorizations
    softClaims := memory.softClaims.rollback spare.softClaims
    leases := memory.leases.rollback spare.leases
    bypasses := memory.bypasses.rollback spare.bypasses
    audit := memory.audit.rollback spare.audit }

def setFile (file : Option String) (memory : Memory) : Memory := { memory with file := file }

/-- A store that has just loaded `state` from `file`. -/
def load (spare : Spare) (state : State) (file : Option String) : Memory :=
  { live := state.scalars
    saved := state.scalars
    tokens := .load spare.tokens state.tokens
    reservations := .load spare.reservations state.reservations
    authorizations := .load spare.authorizations state.authorizations
    softClaims := .load spare.softClaims state.softClaims
    leases := .load spare.leases state.leases
    bypasses := .load spare.bypasses state.bypasses
    audit := .load spare.audit state.audit
    file := file }

section Views

variable (spare : Spare) (memory : Memory)

@[simp]
theorem state_edit (edits : Edits) : (memory.edit spare edits).state = edits.apply memory.state := by
  simp [state, edit, Edits.apply, Scalars.edit]

@[simp]
theorem committed_edit (edits : Edits) :
    (memory.edit spare edits).committed = memory.committed := by
  simp [committed, edit]

theorem store_setFile (file : Option String) :
    (memory.setFile file).store = { memory.store with file := file } := rfl

theorem store_commit :
    (memory.commit spare).store = { memory.store with committed := memory.store.state } := by
  simp [store, committed, state, commit]

theorem store_rollback :
    (memory.rollback spare).store = { memory.store with state := memory.store.committed } := by
  simp [store, committed, state, rollback]

theorem store_load (state : State) (file : Option String) :
    (load spare state file).store = ⟨state, state, file⟩ := by
  simp [store, Memory.state, committed, load, State.scalars]

end Views

section Calls

variable [Unicode] [Digest] (codec : Codec)

def saveLocked (errors : SaveErrors) (spare : Spare) (memory : Memory) : Memory × Option String :=
  let outcome := saveOutcome codec errors memory.state memory.file
  let memory := memory.setFile outcome.file
  let memory := if outcome.committedToDisk then memory.commit spare else memory
  match outcome.error with
  | some message => (memory.rollback spare, some message)
  | none => (memory, none)

/-- One call of a mutator on the memory. -/
def call (errors : SaveErrors) (spare : Spare) (op : Op) (memory : Memory) :
    Memory × Except String Unit :=
  let effect := op.effect memory.state
  let edited := memory.edit spare effect.edits
  if effect.save then
    match edited.saveLocked codec errors spare with
    | (saved, some message) => (saved, .error message)
    | (saved, none) => (saved, effect.result)
  else (edited, effect.result)

def run (calls : List (SaveErrors × Spare × Op)) (memory : Memory) : Memory :=
  calls.foldl (fun memory (errors, spare, op) => (memory.call codec errors spare op).1) memory

omit [Digest] in
theorem store_saveLocked (errors : SaveErrors) (spare : Spare) (memory : Memory) :
    (memory.saveLocked codec errors spare).map store id = memory.store.saveLocked codec errors := by
  rcases saveOutcome_cases codec errors memory.state memory.file with ⟨message, hOutcome⟩ | ⟨_, hOutcome⟩
  · simp only [saveLocked, Store.saveLocked, store_rollback, Prod.map, hOutcome,
      show memory.store.state = memory.state from rfl, show memory.store.file = memory.file from rfl]
    rfl
  · simp only [saveLocked, Store.saveLocked, hOutcome,
      show memory.store.state = memory.state from rfl, show memory.store.file = memory.file from rfl]
    cases errors.syncDir with
    | none =>
      simp only [Prod.map, if_true, store_commit, store_setFile]
      rfl
    | some message =>
      simp only [Prod.map, if_true, store_rollback, store_commit, store_setFile]
      rfl

/-- Writing through the shared slices shows as the call on values, for the working
copy, the saved copy and the file at once. -/
theorem store_call (errors : SaveErrors) (spare : Spare) (op : Op) (memory : Memory) :
    (memory.call codec errors spare op).map store id = memory.store.call codec errors op := by
  have hEdited : (memory.edit spare (op.effect memory.state).edits).store =
      { memory.store with state := (op.effect memory.state).edits.apply memory.state } := by
    simp only [store, state_edit, committed_edit]
    rfl
  have hSaved :=
    store_saveLocked codec errors spare (memory.edit spare (op.effect memory.state).edits)
  simp only [call, Store.call, Store.perform]
  rw [show memory.store.state = memory.state from rfl, ← hEdited, ← hSaved]
  cases hSave : (op.effect memory.state).save with
  | false => rfl
  | true =>
    simp only [if_true]
    obtain ⟨saved, error⟩ :=
      saveLocked codec errors spare (memory.edit spare (op.effect memory.state).edits)
    cases error with
    | none => rfl
    | some message => rfl

theorem store_run (calls : List (SaveErrors × Spare × Op)) (memory : Memory) :
    (memory.run codec calls).store =
      memory.store.run codec (calls.map fun (errors, _, op) => (errors, op)) := by
  induction calls generalizing memory with
  | nil => rfl
  | cons head calls ih =>
    obtain ⟨errors, spare, op⟩ := head
    have hHead := congrArg Prod.fst (store_call codec errors spare op memory)
    have hRest := ih (memory.call codec errors spare op).1
    rw [show (memory.call codec errors spare op).1.store = _ from hHead] at hRest
    exact hRest

end Calls

end Memory

end GPUardian
