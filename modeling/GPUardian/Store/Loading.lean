import GPUardian.Store.Persistence

/-! Loading the state file into a store that may have failed to load it before. The decoder writes
into the state of the store itself, so what a rejected document left there is still there when the
next one is read. -/
namespace GPUardian

open GoStrings List

/-- A JSON object for a row: what its fields make of the row that they are read into. Those that it
omits stay as they are. -/
abbrev RowDocument (α : Type) := α → α

/-- What a document has for a slice: nothing, or a JSON array. After an error inside of it, which ends
the decoding, the slice is not shortened. -/
inductive SliceDocument (α : Type) where
  | absent
  | array (rows : List (RowDocument α)) (cut : Bool := false)

namespace SliceDocument

variable {α : Type} [Inhabited α]

/-- The decoder writes into the array that the slice has: into its rows and, from its length on, into
those that an earlier document left behind its end. An empty JSON array takes a new one. -/
def into (rows behind : List α) : SliceDocument α → List α × List α
  | .absent => (rows, behind)
  | .array docs cut =>
    if docs.isEmpty && !cut then ([], [])
    else
      let array := rows ++ behind
      let read := docs.zipIdx.map fun entry => entry.1 (array.getD entry.2 default)
      let cells := read ++ array.drop docs.length
      let length := if cut then max docs.length rows.length else docs.length
      (cells.take length, cells.drop length)

/-- What the document does not write is empty: the slice if it omits it, and else what its rows omit
of the rows that are there, which then read as into new rows. -/
def Clean (rows behind : List α) : SliceDocument α → Prop
  | .absent => rows = []
  | .array docs cut =>
    (∀ entry ∈ docs.zipIdx, entry.1 ((rows ++ behind).getD entry.2 default) = entry.1 default) ∧
      (cut = true → rows.length ≤ docs.length)

omit [Inhabited α] in
/-- What an array keeps of its cells is what was read exactly if it is read alike and no row stays
behind it. -/
theorem take_cells_eq_iff {read fresh array : List α} {length : Nat} (cut : Bool)
    (hSame : read.length = fresh.length) (hArray : length ≤ array.length) :
    (read ++ array.drop read.length).take (if cut then max read.length length else read.length) =
        fresh ↔ read = fresh ∧ (cut = true → length ≤ read.length) := by
  cases cut with
  | false => simp
  | true =>
    simp only [if_true, true_implies]
    constructor
    · intro h
      have hLength := congrArg List.length h
      simp only [length_take, length_append, length_drop] at hLength
      have hShort : length ≤ read.length := by omega
      rw [max_eq_left hShort, take_left] at h
      exact ⟨h, hShort⟩
    · rintro ⟨rfl, hShort⟩
      rw [max_eq_left hShort, take_left]

theorem into_eq_iff (doc : SliceDocument α) (rows behind : List α) :
    (doc.into rows behind).1 = (doc.into [] []).1 ↔ doc.Clean rows behind := by
  cases doc with
  | absent => rfl
  | array docs cut =>
    by_cases hEmpty : docs.isEmpty && !cut
    · obtain ⟨hNone, hWhole⟩ : docs = [] ∧ cut = false := by simpa using hEmpty
      simp [into, Clean, hNone, hWhole]
    · have hFresh : ((SliceDocument.array docs cut).into [] []).1 =
          docs.zipIdx.map fun entry => entry.1 default := by
        simp only [into, hEmpty]
        rw [take_of_length_le] <;> simp
      have hArray : rows.length ≤ (rows ++ behind).length := by simp
      have hCells := take_cells_eq_iff cut (show (docs.zipIdx.map fun entry =>
        entry.1 ((rows ++ behind).getD entry.2 default)).length =
          (docs.zipIdx.map fun entry => entry.1 default).length by simp) hArray
      rw [length_map, length_zipIdx, map_inj_left] at hCells
      rw [hFresh, Clean, ← hCells]
      unfold into
      dsimp only
      rw [if_neg hEmpty]

end SliceDocument

/-- The top level of a JSON document of a state: the fields it has. -/
structure StateDocument where
  managedKeys : Option Bool := none
  keySnapshotID : Option String := none
  managedKeyAuthority : Option String := none
  tokens : SliceDocument Token := .absent
  reservations : SliceDocument Reservation := .absent
  authorizations : SliceDocument Authorization := .absent
  softClaims : SliceDocument SoftClaim := .absent
  leases : SliceDocument Lease := .absent
  bypasses : SliceDocument BypassRule := .absent
  audit : SliceDocument AuditEvent := .absent

/-- A state that documents were read into, and the rows behind the ends of its slices. -/
structure DecodedState where
  state : State := {}
  behind : State := {}
deriving DecidableEq

/-- The fields of the document are written into those of the state; the others stay. -/
def StateDocument.into (doc : StateDocument) (memory : DecodedState) : DecodedState :=
  let ⟨state, behind⟩ := memory
  let tokens := doc.tokens.into state.tokens behind.tokens
  let reservations := doc.reservations.into state.reservations behind.reservations
  let authorizations := doc.authorizations.into state.authorizations behind.authorizations
  let softClaims := doc.softClaims.into state.softClaims behind.softClaims
  let leases := doc.leases.into state.leases behind.leases
  let bypasses := doc.bypasses.into state.bypasses behind.bypasses
  let audit := doc.audit.into state.audit behind.audit
  { state :=
      { managedKeys := doc.managedKeys.getD state.managedKeys
        keySnapshotID := doc.keySnapshotID.getD state.keySnapshotID
        managedKeyAuthority := doc.managedKeyAuthority.getD state.managedKeyAuthority
        tokens := tokens.1
        reservations := reservations.1
        authorizations := authorizations.1
        softClaims := softClaims.1
        leases := leases.1
        bypasses := bypasses.1
        audit := audit.1 }
    behind :=
      { tokens := tokens.2
        reservations := reservations.2
        authorizations := authorizations.2
        softClaims := softClaims.2
        leases := leases.2
        bypasses := bypasses.2
        audit := audit.2 } }

/-- `json.Unmarshal` of a text: the fields that it writes, and its error. Text that is not JSON
has no fields; a value of the wrong type is an error, and the fields around it are written. -/
structure Decoder where
  unmarshal : String → StateDocument × Option String

/-- A store before and after it is loaded. -/
structure LoadingStore extends DecodedState where
  committed : State := {}
  loaded : Bool := false
deriving DecidableEq

section Load

variable [Unicode] (decoder : Decoder)

namespace LoadingStore

/-- The checks after the file was read into the state. -/
def accept (store : LoadingStore) (read : DecodedState) :
    LoadingStore × Option String :=
  match validateStateBounds read.state with
  | some message =>
    ({ store with toDecodedState := read }, some s!"invalid persisted state: {message}")
  | none =>
    let state := { read.state with audit := [] }
    ({ state := state, behind := read.behind, committed := state, loaded := true }, none)

/-- `loadLocked` on any store; `failure` is the error of reading the file. -/
def load (path : String) (failure file : Option String) (store : LoadingStore) :
    LoadingStore × Option String :=
  if store.loaded then (store, none)
  else match readStateFile path failure file with
  | .error message => (store, some message)
  | .ok none => ({ loaded := true }, none)
  | .ok (some data) =>
    if trimSpace data = "" then store.accept {}
    else match decoder.unmarshal data with
    | (doc, some message) =>
      ({ store with toDecodedState := doc.into store.toDecodedState }, some message)
    | (doc, none) => store.accept (doc.into store.toDecodedState)

/-- Loads one after the other, each with what it finds at the path. -/
def loads (path : String) (files : List (Option String × Option String))
    (store : LoadingStore) : LoadingStore :=
  files.foldl (fun store (failure, file) => (store.load decoder path failure file).1) store

end LoadingStore

open LoadingStore

/-- What the decoder makes of a text for a new state. -/
def Decoder.decode (data : String) : Except String State :=
  match decoder.unmarshal data with
  | (_, some message) => .error message
  | (doc, none) => .ok (doc.into {}).state

/-- On a new store this is the load that a store was modelled to begin with. -/
theorem load_new {codec : Codec} (hDecode : codec.decode = decoder.decode) (path : String)
    (failure file : Option String) :
    match loadLocked codec path failure file with
    | .ok state => ∃ behind,
      load decoder path failure file {} = (⟨⟨state, behind⟩, state, true⟩, none)
    | .error message => (load decoder path failure file {}).2 = some message := by
  have hEmpty : validateStateBounds ({} : State) = none := rfl
  unfold loadLocked load
  simp only [bind, Except.bind]
  cases hRead : readStateFile path failure file with
  | error message => rfl
  | ok data =>
    cases data with
    | none => exact ⟨_, rfl⟩
    | some data =>
      by_cases hBlank : trimSpace data = ""
      · simp only [unmarshalState, if_pos hBlank, accept, hEmpty]
        exact ⟨_, rfl⟩
      · simp only [unmarshalState, if_neg hBlank, hDecode, Decoder.decode]
        obtain ⟨doc, error⟩ := decoder.unmarshal data
        cases error with
        | some message => rfl
        | none =>
          simp only [accept]
          cases validateStateBounds (doc.into {}).state with
          | some message => rfl
          | none => exact ⟨_, rfl⟩

/-- Audit events that the bounds admit. -/
def AuditBounded (audit : List AuditEvent) : Prop :=
  audit.length ≤ maxAuditEvents ∧ firstError validateAuditEvent audit = none

/-- What the document does not write is empty, apart from the audit events, which are dropped after
the check and only have to pass it. -/
structure Unspoiled (doc : StateDocument) (left : DecodedState) : Prop where
  managedKeys : doc.managedKeys = none → left.state.managedKeys = false
  keySnapshotID : doc.keySnapshotID = none → left.state.keySnapshotID = ""
  managedKeyAuthority : doc.managedKeyAuthority = none → left.state.managedKeyAuthority = ""
  tokens : doc.tokens.Clean left.state.tokens left.behind.tokens
  reservations : doc.reservations.Clean left.state.reservations left.behind.reservations
  authorizations : doc.authorizations.Clean left.state.authorizations left.behind.authorizations
  softClaims : doc.softClaims.Clean left.state.softClaims left.behind.softClaims
  leases : doc.leases.Clean left.state.leases left.behind.leases
  bypasses : doc.bypasses.Clean left.state.bypasses left.behind.bypasses
  audit : AuditBounded (doc.audit.into left.state.audit left.behind.audit).1

omit decoder in
/-- The bounds of the audit events are apart from those of the rest. -/
theorem validateStateBounds_audit (state : State) :
    validateStateBounds state = none ↔
      validateStateBounds { state with audit := [] } = none ∧ AuditBounded state.audit := by
  simp only [validateStateBounds, Option.or_eq_none_iff, validateCounts, firstError, AuditBounded,
    findSome?_eq_none_iff, mem_cons, not_mem_nil, or_false, ite_eq_right_iff,
    reduceCtorEq, imp_false, not_lt, forall_eq_or_imp, forall_eq, length_nil, Nat.zero_le,
    and_true, IsEmpty.forall_iff, implies_true]
  tauto

omit decoder [Unicode] in
theorem unspoiled_iff (doc : StateDocument) (left : DecodedState) :
    Unspoiled doc left ↔
      { (doc.into left).state with audit := [] } = { (doc.into {}).state with audit := [] } ∧
        AuditBounded (doc.into left).state.audit := by
  have getD_eq_iff : ∀ {α : Type} (field : Option α) (value empty : α),
      field.getD value = field.getD empty ↔ (field = none → value = empty) := by
    intro α field value empty
    cases field <;> simp
  simp only [StateDocument.into, State.mk.injEq, getD_eq_iff, SliceDocument.into_eq_iff]
  constructor
  · rintro ⟨h1, h2, h3, h4, h5, h6, h7, h8, h9, hAudit⟩
    exact ⟨⟨h1, h2, h3, h4, h5, h6, h7, h8, h9, trivial⟩, hAudit⟩
  · rintro ⟨⟨h1, h2, h3, h4, h5, h6, h7, h8, h9, -⟩, hAudit⟩
    exact ⟨h1, h2, h3, h4, h5, h6, h7, h8, h9, hAudit⟩

omit decoder in
/-- A document that a new state accepts is read into an older state to the same effect exactly when
what it does not write was empty there. -/
theorem accept_eq_new_iff {doc : StateDocument} (left : LoadingStore)
    (hValid : validateStateBounds (doc.into {}).state = none) :
    ((left.accept (doc.into left.toDecodedState)).1.state =
          { (doc.into {}).state with audit := [] } ∧
        (left.accept (doc.into left.toDecodedState)).1.committed =
          { (doc.into {}).state with audit := [] }) ↔
      Unspoiled doc left.toDecodedState := by
  have hRest := ((validateStateBounds_audit _).mp hValid).1
  rw [unspoiled_iff]
  constructor
  · rintro ⟨hState, -⟩
    cases hBounds : validateStateBounds (doc.into left.toDecodedState).state with
    | some message =>
      -- the state that the check rejected would be one it accepts
      simp only [accept, hBounds] at hState
      rw [hState, hRest] at hBounds
      cases hBounds
    | none =>
      simp only [accept, hBounds] at hState
      exact ⟨hState, ((validateStateBounds_audit _).mp hBounds).2⟩
  · rintro ⟨hState, hAudit⟩
    have hBounds : validateStateBounds (doc.into left.toDecodedState).state = none := by
      rw [validateStateBounds_audit, hState]
      exact ⟨hRest, hAudit⟩
    simp only [accept, hBounds]
    exact ⟨hState, hState⟩

/-- The document that a load reads, if it gets that far. -/
def Decoder.documentAt (path : String) (file : Option String × Option String) :
    Option StateDocument :=
  match readStateFile path file.1 file.2 with
  | .ok (some data) => some (decoder.unmarshal data).1
  | _ => none

/-- Documents read one over the other into a new state. -/
def StateDocument.overlay (docs : List StateDocument) (memory : DecodedState) : DecodedState :=
  docs.foldl (fun memory doc => doc.into memory) memory

/-- A load that fails leaves the store unloaded, with the document in its state. -/
theorem LoadingStore.load_failed {path : String} {file : Option String × Option String}
    {store : LoadingStore}
    (h : (store.load decoder path file.1 file.2).1.loaded = false) :
    store.loaded = false ∧ (store.load decoder path file.1 file.2).1.toDecodedState =
      StateDocument.overlay (decoder.documentAt path file).toList store.toDecodedState := by
  unfold load at h ⊢
  unfold Decoder.documentAt
  cases hLoaded : store.loaded with
  | true =>
    rw [hLoaded, if_pos rfl] at h
    rw [hLoaded] at h
    cases h
  | false =>
    refine ⟨rfl, ?_⟩
    rw [if_neg (by simp)]
    rw [hLoaded, if_neg (by simp)] at h
    cases hRead : readStateFile path file.1 file.2 with
    | error message => rfl
    | ok data =>
      rw [hRead] at h
      cases data with
      | none => cases h
      | some data =>
        by_cases hBlank : trimSpace data = ""
        · simp only [if_pos hBlank, accept] at h
          cases h
        · simp only [if_neg hBlank] at h ⊢
          generalize decoder.unmarshal data = decoded at h ⊢
          obtain ⟨doc, error⟩ := decoded
          cases error with
          | some message => rfl
          | none =>
            simp only [accept] at h ⊢
            cases hBounds : validateStateBounds (doc.into store.toDecodedState).state with
            | some message => rfl
            | none =>
              rw [hBounds] at h
              cases h

/-- Loads that all fail leave every document that they read in the state. -/
theorem LoadingStore.loads_failed {path : String} {files : List (Option String × Option String)}
    {store : LoadingStore} (h : (store.loads decoder path files).loaded = false) :
    store.loaded = false ∧ (store.loads decoder path files).toDecodedState =
      StateDocument.overlay (files.filterMap (decoder.documentAt path)) store.toDecodedState := by
  induction files generalizing store with
  | nil => exact ⟨h, rfl⟩
  | cons file files ih =>
    obtain ⟨hFirst, hRest⟩ := ih h
    obtain ⟨hLoaded, hState⟩ := load_failed decoder hFirst
    refine ⟨hLoaded, ?_⟩
    show ((store.load decoder path file.1 file.2).1.loads decoder path files).toDecodedState = _
    rw [hRest, hState, filterMap_cons]
    cases decoder.documentAt path file <;> rfl

/-- The file at the path is missing, is blank, or holds a document that writes over all that the
documents read before it have left. -/
def Decoder.Covers (path : String) (files : List (Option String × Option String))
    (failure file : Option String) : Prop :=
  ∀ data, readStateFile path failure file = .ok (some data) → trimSpace data ≠ "" →
    Unspoiled (decoder.unmarshal data).1
      (StateDocument.overlay (files.filterMap (decoder.documentAt path)) {})

/-- After failed loads, a file that a new store loads is loaded as a new store loads it exactly
when it covers what the failed loads left in memory. -/
theorem reload_eq_new_iff (path : String) (files : List (Option String × Option String))
    (failure file : Option String)
    (hFailed : (loads decoder path files {}).loaded = false)
    (hValid : (load decoder path failure file {}).2 = none) :
    ((((loads decoder path files {}).load decoder path failure file).1.state =
          (load decoder path failure file {}).1.state) ∧
        (((loads decoder path files {}).load decoder path failure file).1.committed =
          (load decoder path failure file {}).1.committed)) ↔
      decoder.Covers path files failure file := by
  have hLeft := (loads_failed decoder hFailed).2
  unfold Decoder.Covers
  rw [← hLeft]
  generalize loads decoder path files {} = left at hFailed
  unfold load at hValid ⊢
  rw [hFailed]
  simp only [Bool.false_eq_true, if_false] at hValid ⊢
  cases hRead : readStateFile path failure file with
  | error message =>
    rw [hRead] at hValid
    cases hValid
  | ok data =>
    rw [hRead] at hValid
    cases data with
    | none => simp
    | some data =>
      by_cases hBlank : trimSpace data = ""
      · have hEmpty : validateStateBounds ({} : State) = none := rfl
        simp [hBlank, accept, hEmpty]
      · simp only [if_neg hBlank] at hValid ⊢
        cases hDoc : decoder.unmarshal data with
        | mk doc error =>
          cases error with
          | some message =>
            rw [hDoc] at hValid
            cases hValid
          | none =>
            rw [hDoc] at hValid
            have hBounds : validateStateBounds (doc.into {}).state = none := by
              simp only [accept] at hValid
              cases hBounds : validateStateBounds (doc.into {}).state with
              | none => rfl
              | some message =>
                rw [hBounds] at hValid
                cases hValid
            have hIff := accept_eq_new_iff left hBounds
            simp only [accept, hBounds] at hIff ⊢
            rw [hIff]
            simp [hBlank, hDoc]

end Load

section Samples

open LoadingStore

open scoped Plain

/-- The state of a managed node with a revoked reservation of a GPU that cannot exist. -/
def rejectedFile : String :=
  "\x7b\"managed_keys\":true,\"key_snapshot_id\":\"s1\",\"tokens\":[],\"reservations\":[\x7b\"id\":\"res_1\",\"gpu\":-1,\"revoked\":true\x7d],\"bypasses\":[],\"audit\":[]\x7d"

/-- The state of a standalone node, which is saved without the fields that are empty. -/
def repairedFile : String :=
  "\x7b\"tokens\":[],\"reservations\":[\x7b\"id\":\"res_1\",\"gpu\":0\x7d],\"bypasses\":[],\"audit\":[]\x7d"

/-- A standalone node with a reservation of a GPU that cannot exist. -/
def mistypedFile : String :=
  "\x7b\"tokens\":[],\"reservations\":[\x7b\"id\":\"res_1\",\"gpu\":-1\x7d],\"bypasses\":[],\"audit\":[]\x7d"

def nodeReservation (gpu : Int) : Reservation := { id := "res_1", gpu := gpu }

def nodeDocument (rows : List (RowDocument Reservation)) : StateDocument :=
  { tokens := .array [], reservations := .array rows, bypasses := .array [], audit := .array [] }

def fileDecoder : Decoder where
  unmarshal data :=
    if data = rejectedFile then
      ({ nodeDocument [({ · with id := "res_1", gpu := -1, revoked := true })] with
         managedKeys := some true, keySnapshotID := some "s1" }, none)
    else if data = repairedFile then (nodeDocument [({ · with id := "res_1", gpu := 0 })], none)
    else if data = mistypedFile then (nodeDocument [({ · with id := "res_1", gpu := -1 })], none)
    else ({}, some "unexpected end of JSON input")

def failedFiles : List (Option String × Option String) :=
  [(none, some "truncated"), (none, some mistypedFile)]

/-- The fields of the reservation that was rejected are all written over. -/
theorem reload_eq_new_iff_repaired :
    let left := loads fileDecoder "state.json" failedFiles {}
    let after := (left.load fileDecoder "state.json" none (some repairedFile)).1
    let fresh := load fileDecoder "state.json" none (some repairedFile) {}
    left.loaded = false ∧ left.state = { reservations := [nodeReservation (-1)] } ∧
      fresh.1.state = { reservations := [nodeReservation 0] } ∧
      fresh.2 = none ∧ after.state = fresh.1.state ∧ after.committed = fresh.1.committed := by
  have hFailed : (loads fileDecoder "state.json" failedFiles {}).loaded =
      false := by decide +kernel
  have hValid : (load fileDecoder "state.json" none (some repairedFile) {}).2 =
      none := by decide +kernel
  have hIff := @reload_eq_new_iff ascii fileDecoder "state.json" failedFiles none
    (some repairedFile) hFailed hValid
  refine ⟨hFailed, by decide +kernel, by decide +kernel, hValid, hIff.mpr ?_⟩
  have hLeft : StateDocument.overlay (failedFiles.filterMap (fileDecoder.documentAt "state.json"))
      {} = { state := { reservations := [nodeReservation (-1)] } } := by decide +kernel
  intro data hRead hBlank
  have hFile : readStateFile "state.json" none (some repairedFile) = .ok (some repairedFile) := by
    decide +kernel
  obtain rfl : repairedFile = data := by simpa [hFile] using hRead
  have hDoc : fileDecoder.unmarshal repairedFile =
      (nodeDocument [({ · with id := "res_1", gpu := 0 })], none) := by
    unfold fileDecoder
    dsimp only
    rw [if_neg (by decide +kernel), if_pos rfl]
  rw [hLeft, hDoc]
  have hNone {α : Type} [Inhabited α] : (SliceDocument.array [] : SliceDocument α).Clean [] [] :=
    ⟨nofun, nofun⟩
  exact ⟨fun _ => rfl, fun _ => rfl, fun _ => rfl, hNone,
    ⟨forall_mem_singleton.mpr rfl, nofun⟩, rfl, rfl, rfl, hNone, by decide, rfl⟩

/-- The standalone state is loaded after the rejected one: the node is a managed one, and the
reservation is revoked. -/
theorem reload_keeps_rejected :
    let left := loads fileDecoder "state.json" [(none, some rejectedFile)] {}
    let after := left.load fileDecoder "state.json" none (some repairedFile)
    let fresh := load fileDecoder "state.json" none (some repairedFile) {}
    left.loaded = false ∧ after.2 = none ∧ fresh.2 = none ∧
      after.1.committed =
        { managedKeys := true, keySnapshotID := "s1"
          reservations := [{ nodeReservation 0 with revoked := true }] } ∧
      fresh.1.committed = { reservations := [nodeReservation 0] } ∧
      after.1.state ≠ fresh.1.state := by
  decide +kernel

end Samples

end GPUardian
