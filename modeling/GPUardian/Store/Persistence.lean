import GPUardian.Store.Codec
import GPUardian.Store.Operations

/-! Saving the state: bounds, encoding, a synced temporary file, a rename and a sync of
the directory. Every step of it can fail, and the rename is the commit point. The file
is what the path holds; a missing file is `none`. -/
namespace GPUardian

open GoStrings GoSlice List

/-- The error of each I/O step of one save, or nothing where the step succeeds. -/
structure SaveErrors where
  mkdir : Option String := none
  marshal : Option String := none
  create : Option String := none
  chmod : Option String := none
  write : Option String := none
  sync : Option String := none
  close : Option String := none
  rename : Option String := none
  syncDir : Option String := none

/-- What a save does to the file, whether the rename took place, and its error. -/
structure SaveOutcome where
  file : Option String
  committedToDisk : Bool
  error : Option String

/-- The first failing step wins; a failing close counts only after a successful sync. -/
def writeSyncedTempFile (errors : SaveErrors) : Option String :=
  errors.create.or <| errors.chmod.or <| errors.write.or <| errors.sync.or errors.close

def writeFileAtomically (errors : SaveErrors) (file : Option String) (data : String) : SaveOutcome :=
  match writeSyncedTempFile errors with
  | some message => ⟨file, false, some message⟩
  | none =>
    match errors.rename with
    | some message => ⟨file, false, some message⟩
    | none => ⟨some data, true, errors.syncDir⟩

section Save

variable [Unicode] (codec : Codec)

def saveOutcome (errors : SaveErrors) (state : State) (file : Option String) : SaveOutcome :=
  match validateStateBounds state with
  | some message => ⟨file, false, some message⟩
  | none =>
    match errors.mkdir with
    | some message => ⟨file, false, some message⟩
    | none =>
      match errors.marshal with
      | some message => ⟨file, false, some message⟩
      | none =>
        let data := codec.encode state
        if maxStateFileBytes < byteLen data then
          ⟨file, false, some s!"state exceeds {maxStateFileBytes}-byte limit"⟩
        else writeFileAtomically errors file (data ++ "\n")

/-- A save that does not reach the rename fails and leaves the file alone; one that
does writes the encoded state, and can still fail. -/
theorem saveOutcome_cases (errors : SaveErrors) (state : State) (file : Option String) :
    (∃ message, saveOutcome codec errors state file = ⟨file, false, some message⟩) ∨
    (validateStateBounds state = none ∧
      saveOutcome codec errors state file = ⟨some (codec.encode state ++ "\n"), true, errors.syncDir⟩) := by
  unfold saveOutcome writeFileAtomically
  dsimp only
  repeat' split
  all_goals first
    | exact .inl ⟨_, rfl⟩
    | exact .inr ⟨by assumption, rfl⟩

/-- The answer of reading the state file: `failure` is the error of opening or reading
it, if any. A missing file is not an error. -/
def readStateFile (path : String) (failure file : Option String) :
    Except String (Option String) :=
  match failure, file with
  | some message, _ => .error message
  | none, none => .ok none
  | none, some data =>
    if maxStateFileBytes < byteLen data then
      .error s!"state {path} exceeds {maxStateFileBytes}-byte limit"
    else .ok (some data)

/-- The rows of a file before they are checked. A blank file holds none. -/
def unmarshalState (file : Option String) : Except String State :=
  match file with
  | none => .ok {}
  | some data => if trimSpace data = "" then .ok {} else codec.decode data

/-- What a file says about the state: its rows without the audit events that older
daemons kept there. -/
def decodeFile (file : Option String) : Except String State :=
  (unmarshalState codec file).map fun state => { state with audit := [] }

omit [Unicode] in
theorem decodeFile_encode (state : State) (h : state.audit = []) :
    decodeFile codec (some (codec.encode state ++ "\n")) = .ok state := by
  simp only [decodeFile, unmarshalState, if_neg (codec.encode_not_blank state),
    codec.decode_encode, Except.map]
  rw [← h]

/-- The state a store gets from its first load. -/
def loadLocked (path : String) (failure file : Option String) : Except String State := do
  let data ← readStateFile path failure file
  let state ← unmarshalState codec data
  match validateStateBounds state with
  | some message => .error s!"invalid persisted state: {message}"
  | none => .ok { state with audit := [] }

end Save

/-- A loaded store: the working state, the copy of what was last saved, and the file. -/
structure Store where
  state : State
  committed : State
  file : Option String
deriving DecidableEq

namespace Store

variable [Unicode] [Digest] (codec : Codec)

def saveLocked (errors : SaveErrors) (store : Store) : Store × Option String :=
  let outcome := saveOutcome codec errors store.state store.file
  let committed := if outcome.committedToDisk then store.state else store.committed
  match outcome.error with
  | some message => (⟨committed, committed, outcome.file⟩, some message)
  | none => (⟨store.state, committed, outcome.file⟩, none)

/-- One call that has the effect, and what it returns. -/
def perform {α : Type} (errors : SaveErrors) (effect : Effect α) (store : Store) :
    Store × Except String α :=
  let edited := { store with state := effect.edits.apply store.state }
  if effect.save then
    match edited.saveLocked codec errors with
    | (saved, some message) => (saved, .error message)
    | (saved, none) => (saved, effect.result)
  else (edited, effect.result)

/-- One call of a mutator. -/
def call (errors : SaveErrors) (op : Op) (store : Store) : Store × Except String Unit :=
  store.perform codec errors (op.effect store.state)

omit [Digest] in
/-- What becomes of the answer does not matter for the store. -/
theorem perform_map {α β : Type} (f : α → β) (errors : SaveErrors) (effect : Effect α)
    (store : Store) :
    store.perform codec errors (effect.map f) = ((store.perform codec errors effect).1,
      (store.perform codec errors effect).2.map f) := by
  unfold perform Effect.map
  dsimp only
  split
  · split
    · rfl
    · rfl
  · rfl

omit [Digest] in
/-- A call that succeeds leaves its edits. -/
theorem perform_ok {α : Type} {errors : SaveErrors} {effect : Effect α} {store : Store} {answer : α}
    (h : (store.perform codec errors effect).2 = .ok answer) :
    effect.result = .ok answer ∧
      (store.perform codec errors effect).1.state = effect.edits.apply store.state := by
  unfold perform at h ⊢
  dsimp only at h ⊢
  cases hSave : effect.save with
  | false =>
    simp only [hSave] at h ⊢
    exact ⟨h, rfl⟩
  | true =>
    cases hError : (saveOutcome codec errors (effect.edits.apply store.state) store.file).error with
    | none =>
      simp only [hSave, saveLocked, hError] at h ⊢
      exact ⟨h, rfl⟩
    | some message => simp [hSave, saveLocked, hError] at h

/-- The calls of a run, each with the I/O errors it meets. -/
def run (calls : List (SaveErrors × Op)) (store : Store) : Store :=
  calls.foldl (fun store (errors, op) => (store.call codec errors op).1) store

theorem run_append (calls more : List (SaveErrors × Op)) (store : Store) :
    store.run codec (calls ++ more) = (store.run codec calls).run codec more :=
  foldl_append

/-- The two copies and the file agree: what every call starts from and ends in. -/
structure Synced (store : Store) : Prop where
  committed : store.committed = store.state
  file : decodeFile codec store.file = .ok store.state
  audit : store.state.audit = []

omit [Unicode] [Digest] in
/-- The store that has just saved the state. -/
def saved (state : State) : Store := ⟨state, state, some (codec.encode state ++ "\n")⟩

/-- Whether a call gets as far as the rename. -/
def renames (errors : SaveErrors) (op : Op) (store : Store) : Bool :=
  let effect := op.effect store.state
  effect.save &&
    (saveOutcome codec errors (effect.edits.apply store.state) store.file).committedToDisk

/-- What a call does to a synced store: nothing, with whatever error, or all of the
operation's edits in both copies and the file, with an error only from the last step. -/
theorem call_cases (errors : SaveErrors) (op : Op) {store : Store} (h : store.Synced codec) :
    (renames codec errors op store = false ∧ (store.call codec errors op).1 = store) ∨
    (renames codec errors op store = true ∧ (op.effect store.state).save = true ∧
      ∃ next, next = (op.effect store.state).edits.apply store.state ∧
        (store.call codec errors op).1 = ⟨next, next, some (codec.encode next ++ "\n")⟩) := by
  obtain ⟨state, committed, file⟩ := store
  obtain rfl : committed = state := h.committed
  cases hSave : (op.effect committed).save with
  | false =>
    refine .inl ⟨by simp [renames, hSave], ?_⟩
    have hClean := Op.effect_clean committed op hSave
    simp [call, perform, hSave, hClean]
  | true =>
    rcases saveOutcome_cases codec errors ((op.effect committed).edits.apply committed) file with
      ⟨message, hOutcome⟩ | ⟨_, hOutcome⟩
    · refine .inl ⟨by simp [renames, hOutcome], ?_⟩
      simp [call, perform, hSave, saveLocked, hOutcome]
    · refine .inr ⟨by simp [renames, hSave, hOutcome], rfl, _, rfl, ?_⟩
      simp only [call, perform, hSave, saveLocked, hOutcome, if_true]
      cases errors.syncDir <;> rfl

theorem call_synced (errors : SaveErrors) (op : Op) {store : Store} (h : store.Synced codec) :
    (store.call codec errors op).1.Synced codec := by
  rcases call_cases codec errors op h with ⟨_, hSame⟩ | ⟨_, _, next, hNext, hCall⟩
  · rw [hSame]
    exact h
  · rw [hCall]
    have hAudit : next.audit = [] := by
      rw [hNext, Edits.apply_audit]
      exact h.audit
    exact ⟨rfl, decodeFile_encode codec next hAudit, hAudit⟩

theorem run_synced (calls : List (SaveErrors × Op)) {store : Store} (h : store.Synced codec) :
    (store.run codec calls).Synced codec := by
  induction calls generalizing store with
  | nil => exact h
  | cons call calls ih => exact ih (call_synced codec call.1 call.2 h)

omit [Unicode] [Digest] in
/-- A node that has never saved anything. -/
theorem synced_empty : (⟨{}, {}, none⟩ : Store).Synced codec := ⟨rfl, rfl, rfl⟩

omit [Digest] in
/-- A store that has just loaded its file is synced. -/
theorem synced_of_load {path : String} {failure file : Option String} {state : State}
    (h : loadLocked codec path failure file = .ok state) :
    (⟨state, state, file⟩ : Store).Synced codec := by
  have hData : ∀ data, readStateFile path failure file = .ok data → data = file := by
    intro data hRead
    unfold readStateFile at hRead
    repeat' split at hRead
    all_goals cases hRead
    all_goals rfl
  unfold loadLocked at h
  cases hRead : readStateFile path failure file with
  | error message =>
    rw [hRead] at h
    cases h
  | ok data =>
    obtain rfl := hData data hRead
    rw [hRead] at h
    cases hRaw : unmarshalState codec data with
    | error message => simp [bind, Except.bind, hRaw] at h
    | ok raw =>
      simp only [bind, Except.bind, hRaw] at h
      split at h
      · cases h
      · cases h
        exact ⟨rfl, by simp [decodeFile, hRaw, Except.map], rfl⟩

end Store

/-- A codec for the states that the operations lead through. -/
def reachedCodec [Unicode] [Digest] (ops : List Op) : Codec :=
  tableCodec (ops.scanl (fun state op => (op.effect state).edits.apply state) {})

end GPUardian
