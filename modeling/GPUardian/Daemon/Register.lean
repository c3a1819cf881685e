import GPUardian.Enforce.Plan
import GPUardian.Store.Replay
import GPUardian.Store.Views

/-! The `register` request of the daemon. A claimed-mode request issues a key; a reserved-mode
request books GPUs after the daemon has looked whether their window is free. -/
namespace GPUardian

open GoStrings GoSlice List

def maxGPUsPerRequest : Nat := 64
def maxRequestValue : Nat := 4096
def defaultHardTTL : Duration := 2 * 3600 * second

/-- `time.ParseDuration`. -/
class DurationSyntax where
  parseDuration : String → Except String Duration

/-- The arguments of `register`. -/
structure RegisterArgs where
  rootKey : String := ""
  mode : String := ""
  name : String := ""
  purpose : String := ""
  externalSessionID : String := ""
  userKeyID : String := ""
  gpus : List Int := []
  ttl : String := ""
  startsAt : Option Time := none
  expiresAt : Option Time := none

structure RegisterResult where
  token : String := ""
  tokenID : String := ""
  groupID : String := ""
  mode : String := ""
  reservationIDs : List String := []
  gpus : List Int := []
  startsAt : Option Time := none
  expiresAt : Option Time := none
deriving DecidableEq, Repr

/-- `maxText` is how the maximum is printed. -/
def parseTTL [DurationSyntax] (value : String) (default max : Duration) (maxText : String) :
    Except String Duration :=
  if trimSpace value = "" then .ok default
  else match DurationSyntax.parseDuration value with
  | .error message => .error message
  | .ok ttl =>
    if ttl ≤ 0 then .error "ttl must be positive"
    else if 0 < max ∧ max < ttl then .error s!"ttl exceeds max {maxText}"
    else .ok ttl

def validateRequestValue (label value : String) : Option String :=
  if maxRequestValue < byteLen value then
    some s!"{label} must be at most {maxRequestValue} bytes"
  else none

def validateGPUs (gpus : List Int) : Option String :=
  if gpus = [] then some "at least one gpu is required"
  else if maxGPUsPerRequest < gpus.length then
    some s!"at most {maxGPUsPerRequest} gpus may be requested"
  else checkRequestedGPUs (fun gpu =>
    if gpu < 0 ∨ maxGPUIndex < gpu then some s!"gpu must be between 0 and {maxGPUIndex}"
    else none) [] gpus

def validateConfiguredGPUs (gpuCount : Int) (gpus : List Int) : Option String :=
  match validateGPUs gpus with
  | some message => some message
  | none =>
    if 0 < gpuCount then
      firstError (fun gpu =>
        if gpuCount ≤ gpu then
          some s!"gpu {gpu} is outside configured inventory of {gpuCount} GPUs"
        else none) gpus
    else none

/-- A request after its checks, with the window of a booking. -/
inductive RegisterPlan where
  | claimed
  | reserved (startsAt expiresAt : Time)

section Prepare

variable [Unicode] [DurationSyntax]

/-- The window of a reserved-mode request. -/
def requestedWindow (args : RegisterArgs) (now : Time) : Except String (Time × Time) :=
  let startsAt := args.startsAt.getD now
  let expiresAt := args.expiresAt.getD 0
  if expiresAt = 0 then
    match parseTTL args.ttl defaultHardTTL maxHardTTL "720h0m0s" with
    | .error message => .error message
    | .ok ttl => .ok (startsAt, startsAt + ttl)
  else .ok (startsAt, expiresAt)

/-- What `dispatch` checks before it takes a lock or reads the store. -/
def prepareRegister (gpuCount : Int) (rootKey : RootKeyCheck) (args : RegisterArgs) (now : Time) :
    Except String RegisterPlan :=
  if trimSpace args.mode = "" then .error "mode must be reserved or claimed"
  else match firstError (fun value : String × String => validateRequestValue value.1 value.2)
      [("name", args.name), ("purpose", args.purpose),
        ("external session id", args.externalSessionID)] with
  | some message => .error message
  | none =>
  match rootKey with
  | .error message => .error message
  | .ok false => .error errInvalidRootKey
  | .ok true =>
  if normalizeTokenMode args.mode = tokenModeReserved then
    match validateConfiguredGPUs gpuCount args.gpus with
    | some message => .error message
    | none =>
    match requestedWindow args now with
    | .error message => .error message
    | .ok (startsAt, expiresAt) =>
      if ¬ now < expiresAt then .error "reservation end must be in the future"
      else .ok (.reserved startsAt expiresAt)
  else if normalizeTokenMode args.mode = tokenModeClaimed then .ok .claimed
  else .error "mode must be reserved or claimed"

end Prepare

/-- The loop of `BusyProcessesForGPU`: the processes on the GPU that no bypass rule covers. -/
def busyProcesses (a : Authorizer) (site : Site) (bypasses : List BypassRule) (gpu : Int)
    (now : Time) : Nat → List GPUProcess → Except String (List GPUProcess)
  | _, [] => .ok []
  | i, process :: rest =>
    match a.ctxErr (site ++ [i]) with
    | some text => .error text
    | none =>
      if process.gpu ≠ gpu ∨ usesGPUResources process = false then
        busyProcesses a site bypasses gpu now (i + 1) rest
      else match a.proc.map (·.info process.pid) with
      | none | some (.error _) => busyProcesses a site bypasses gpu now (i + 1) rest
      | some (.ok info) =>
        if bypassMatch bypasses info now a.bootID then
          busyProcesses a site bypasses gpu now (i + 1) rest
        else (busyProcesses a site bypasses gpu now (i + 1) rest).map (process :: ·)

def busyProcessesForGPU (a : Authorizer) (site : Site) (state : State) (processes : List GPUProcess)
    (gpu : Int) (now : Time) : Except String (List GPUProcess) :=
  busyProcesses a site state.bypasses gpu now 0 processes

/-- What the availability check finds around it: two readings of the clock, the sample, and the
process table with its own clock. -/
structure WindowWorld where
  start : Time
  now : Time
  sample : Except String (List GPUProcess)
  authorizer : Authorizer
  busyNow : Time

def checkBusyGPUs (world : WindowWorld) (state : State) (processes : List GPUProcess) :
    Nat → List Int → Option String
  | _, [] => none
  | i, gpu :: rest =>
    match busyProcessesForGPU world.authorizer [i] state processes gpu world.busyNow with
    | .error message => some message
    | .ok [] => checkBusyGPUs world state processes (i + 1) rest
    | .ok (_ :: _) => some s!"gpu {gpu} is busy"

def ensureGPUsCanReserveWindowSampled (gpuCount : Int) (world : WindowWorld) (gpus : List Int)
    (startsAt expiresAt : Time) (state : State) : Option String :=
  match validateConfiguredGPUs gpuCount gpus with
  | some message => some message
  | none =>
  let startsAt := requestedStart startsAt world.start
  if ¬ startsAt < expiresAt then some "reservation end must be after start"
  else if ¬ world.now < expiresAt then some "reservation end must be in the future"
  else match state.reservations.find? fun row =>
      gpus.contains row.gpu && reservationOverlaps row startsAt expiresAt with
  | some row => some s!"gpu {row.gpu} already reserved by {row.id}"
  | none =>
  match state.leases.find? fun lease => gpus.contains lease.gpu && lease.active &&
      decide (world.now < lease.expiresAt) && decide (startsAt < lease.expiresAt) with
  | some lease => some s!"gpu {lease.gpu} already held by legacy lease {lease.id}"
  | none =>
  if world.now < startsAt ∨ ¬ world.now < expiresAt then none
  else match world.sample with
  | .error message => some s!"GPU process list: {message}"
  | .ok processes => checkBusyGPUs world state processes 0 gpus

/-- What one request finds around it. -/
structure RegisterWorld where
  now : Time
  /-- The answer of `ValidateRootKey` to the daemon and to the store. -/
  validateRootKey : String → RootKeyCheck
  storeValidateRootKey : String → RootKeyCheck
  window : WindowWorld
  fresh : Fresh
  errors : SaveErrors

def errUserKeyIDRequired : String := "user_key_id is required; keys are managed by the web gateway"
def errClaimKeysManaged : String := "claim keys are managed by the web gateway"

/-- The answer to a booking. Without a group it names the token's. -/
def registerResult (secret groupID : String) (token : Token) (rows : List Reservation)
    (startsAt expiresAt : Time) : RegisterResult :=
  { token := secret
    tokenID := token.id
    groupID := if groupID = "" then token.id else groupID
    mode := token.mode
    reservationIDs := rows.map (·.id)
    gpus := rows.map (·.gpu)
    startsAt := timePtrIfSet startsAt
    expiresAt := timePtrIfSet expiresAt }

section Requests

variable [Unicode] [Digest] (codec : Codec)

/-- The last store call of a claimed-mode request. -/
def issueClaimKey (world : RegisterWorld) (args : RegisterArgs) (store : Store) :
    Store × Except String RegisterResult :=
  let (store, answer) := store.perform codec world.errors
    (registerSoftToken (world.storeValidateRootKey args.rootKey) world.fresh args.name world.now
      store.state)
  (store, answer.map fun (secret, token) => { token := secret, mode := token.mode })

/-- The last store call of a booking under a managed key. -/
def bookManaged (world : RegisterWorld) (args : RegisterArgs) (startsAt expiresAt : Time)
    (store : Store) : Store × Except String RegisterResult :=
  let (store, answer) := store.perform codec world.errors
    (registerManagedReservations (world.storeValidateRootKey args.rootKey) world.fresh
      args.userKeyID args.purpose args.externalSessionID args.gpus startsAt expiresAt world.now
      store.state)
  (store, answer.map fun (token, groupID, rows) =>
    registerResult "" groupID token rows startsAt expiresAt)

/-- The last store call of a booking that brings its own key. -/
def bookLocal (world : RegisterWorld) (args : RegisterArgs) (startsAt expiresAt : Time)
    (store : Store) : Store × Except String RegisterResult :=
  let (store, answer) := store.perform codec world.errors
    (registerScheduledReservationsWithSession (world.storeValidateRootKey args.rootKey) world.fresh
      args.name args.purpose args.externalSessionID args.gpus startsAt expiresAt world.now
      store.state)
  (store, answer.map fun (secret, token, rows) =>
    registerResult secret "" token rows startsAt expiresAt)

variable [DurationSyntax]

/-- The plan of a request that is not refused before its store call. -/
def registerPlan (gpuCount : Int) (world : RegisterWorld) (args : RegisterArgs) (state : State) :
    Except String RegisterPlan :=
  match prepareRegister gpuCount (world.validateRootKey args.rootKey) args world.now with
  | .error message => .error message
  | .ok .claimed => if state.managedKeys then .error errClaimKeysManaged else .ok .claimed
  | .ok (.reserved startsAt expiresAt) =>
    match ensureGPUsCanReserveWindowSampled gpuCount world.window args.gpus startsAt expiresAt
        state with
    | some message => .error message
    | none =>
      if trimSpace args.userKeyID = "" ∧ state.managedKeys then .error errUserKeyIDRequired
      else .ok (.reserved startsAt expiresAt)

/-- One `register` request that no other request interrupts. -/
def register (gpuCount : Int) (world : RegisterWorld) (args : RegisterArgs) (store : Store) :
    Store × Except String RegisterResult :=
  match registerPlan gpuCount world args store.state with
  | .error message => (store, .error message)
  | .ok .claimed => issueClaimKey codec world args store
  | .ok (.reserved startsAt expiresAt) =>
    if trimSpace args.userKeyID ≠ "" then bookManaged codec world args startsAt expiresAt store
    else bookLocal codec world args startsAt expiresAt store

end Requests

section Repeat

variable [Unicode] [Digest] [DurationSyntax] (codec : Codec)

omit [Unicode] [Digest] in
theorem parseTTL_pos {value : String} {default max : Duration} {maxText : String} {ttl : Duration}
    (hDefault : 0 < default) (h : parseTTL value default max maxText = .ok ttl) : 0 < ttl := by
  unfold parseTTL at h
  split at h
  · exact Except.ok.inj h ▸ hDefault
  split at h
  · cases h
  split at h
  · cases h
  rename_i hPositive
  split at h
  · cases h
  · exact Except.ok.inj h ▸ not_le.mp hPositive

/-- The call of the store that the daemon makes for a booking. -/
def RegisterArgs.booking (args : RegisterArgs) (startsAt expiresAt now : Time) : BookingRequest :=
  { booker := if trimSpace args.userKeyID ≠ "" then .managed args.userKeyID else .local args.name
    purpose := args.purpose
    session := args.externalSessionID
    gpus := args.gpus
    startsAt := startsAt
    expiresAt := expiresAt
    now := now }

variable {args : RegisterArgs}

omit [Digest] in
/-- A request that passes its checks is for a claim key, or for a booking that has not ended. -/
theorem prepareRegister_ok {gpuCount : Int} {rootKey : RootKeyCheck} {now : Time}
    {plan : RegisterPlan} (h : prepareRegister gpuCount rootKey args now = .ok plan) :
    (normalizeTokenMode args.mode ≠ tokenModeReserved ∧ plan = .claimed) ∨
      ∃ startsAt expiresAt, requestedWindow args now = .ok (startsAt, expiresAt) ∧
        now < expiresAt ∧ plan = .reserved startsAt expiresAt := by
  unfold prepareRegister at h
  split at h
  · cases h
  split at h
  · cases h
  split at h
  · cases h
  · cases h
  split at h
  · split at h
    · cases h
    split at h
    · cases h
    rename_i startsAt expiresAt hWindow
    split at h
    · cases h
    rename_i hFuture
    exact .inr ⟨startsAt, expiresAt, hWindow, not_not.mp hFuture, (Except.ok.inj h).symm⟩
  · rename_i hMode
    split at h
    · exact .inl ⟨hMode, (Except.ok.inj h).symm⟩
    · cases h

variable {world : RegisterWorld} {startsAt expiresAt : Time} {store : Store}
variable {result : RegisterResult}

omit [Digest] in
/-- A reserved-mode request that is not refused is planned for its window. -/
theorem registerPlan_ok {gpuCount : Int} {state : State} {plan : RegisterPlan}
    (hReserved : normalizeTokenMode args.mode = tokenModeReserved)
    (h : registerPlan gpuCount world args state = .ok plan) :
    ∃ startsAt expiresAt, requestedWindow args world.now = .ok (startsAt, expiresAt) ∧
      world.now < expiresAt ∧ plan = .reserved startsAt expiresAt ∧
      ensureGPUsCanReserveWindowSampled gpuCount world.window args.gpus startsAt expiresAt state =
        none := by
  unfold registerPlan at h
  split at h
  · cases h
  · rename_i hPlan
    rcases prepareRegister_ok hPlan with ⟨hMode, _⟩ | ⟨_, _, _, _, hPlanned⟩
    · exact absurd hReserved hMode
    · cases hPlanned
  · rename_i startsAt expiresAt hPlan
    rcases prepareRegister_ok hPlan with ⟨_, hPlanned⟩ | ⟨_, _, hWindow, hFuture, hPlanned⟩
    · cases hPlanned
    cases hPlanned
    split at h
    · cases h
    rename_i hClear
    split at h
    · cases h
    exact ⟨startsAt, expiresAt, hWindow, hFuture, (Except.ok.inj h).symm, hClear⟩

/-- The store call of a booking that the daemon accepts. -/
theorem register_books {gpuCount : Int}
    (hReserved : normalizeTokenMode args.mode = tokenModeReserved)
    (h : (register codec gpuCount world args store).2 = .ok result) :
    ∃ startsAt expiresAt token rows,
      registerPlan gpuCount world args store.state = .ok (.reserved startsAt expiresAt) ∧
      result.reservationIDs = rows.map (·.id) ∧
      store.perform codec world.errors ((args.booking startsAt expiresAt world.now).effect
        (world.storeValidateRootKey args.rootKey) world.fresh store.state) =
          ((register codec gpuCount world args store).1, .ok (token, rows)) := by
  cases hPlan : registerPlan gpuCount world args store.state with
  | error message =>
    simp only [register, hPlan] at h
    cases h
  | ok plan =>
    obtain ⟨startsAt, expiresAt, _, _, rfl, _⟩ := registerPlan_ok hReserved hPlan
    simp only [register, hPlan] at h ⊢
    split at h
    · rename_i hKey
      obtain ⟨⟨token, groupID, rows⟩, hAnswer, rfl⟩ := Except.map_eq_ok h
      refine ⟨startsAt, expiresAt, token, rows, rfl, rfl, ?_⟩
      rw [BookingRequest.effect, RegisterArgs.booking, if_pos hKey, Store.perform_map]
      exact Prod.ext (by simp [hKey, bookManaged]) (congrArg (Except.map _) hAnswer)
    · rename_i hKey
      obtain ⟨⟨secret, token, rows⟩, hAnswer, rfl⟩ := Except.map_eq_ok h
      refine ⟨startsAt, expiresAt, token, rows, rfl, rfl, ?_⟩
      rw [BookingRequest.effect, RegisterArgs.booking, if_neg hKey, Store.perform_map]
      exact Prod.ext (by simp [hKey, bookLocal]) (congrArg (Except.map _) hAnswer)

/-- What a booking leaves that the daemon has accepted. -/
structure AcceptedBooking (args : RegisterArgs) (now : Time) (after : State)
    (result : RegisterResult) (startsAt expiresAt : Time) : Prop where
  window : requestedWindow args now = .ok (startsAt, expiresAt)
  future : now < expiresAt
  start : requestedStart startsAt now < expiresAt
  row : ∃ row ∈ after.reservations, row.id ∈ result.reservationIDs ∧ row.gpu ∈ args.gpus ∧
    reservationStartsAt row = requestedStart startsAt now ∧ row.expiresAt = expiresAt

theorem register_accepted {gpuCount : Int}
    (hReserved : normalizeTokenMode args.mode = tokenModeReserved)
    (h : (register codec gpuCount world args store).2 = .ok result) :
    ∃ startsAt expiresAt, AcceptedBooking args world.now
      (register codec gpuCount world args store).1.state result startsAt expiresAt := by
  obtain ⟨startsAt, expiresAt, token, rows, hPlan, hIDs, hCall⟩ := register_books codec hReserved h
  obtain ⟨hResult, hState⟩ := Store.perform_ok codec (congrArg Prod.snd hCall)
  obtain ⟨hBookable, hBooked, _⟩ := BookingRequest.effect_ok hResult
  obtain ⟨row, hMem, hStored, hGPU, hStart, hEnd⟩ := hBooked.exists_row hBookable.nonempty
  rw [← hState, hCall] at hStored
  obtain ⟨_, _, hWindow, hFuture, hPlanned, _⟩ := registerPlan_ok hReserved hPlan
  cases hPlanned
  refine ⟨startsAt, expiresAt, hWindow, hFuture, hBookable.window, row, hStored, ?_, hGPU, hStart, hEnd⟩
  rw [hIDs]
  exact mem_map_of_mem hMem

/-- The row is stored, at the same place and for the same time, and it has not ended. -/
def StillLive (state : State) (now : Time) (row : Reservation) : Prop :=
  ∃ stored ∈ state.reservations, stored.id = row.id ∧ stored.gpu = row.gpu ∧
    reservationStartsAt stored = reservationStartsAt row ∧ stored.expiresAt = row.expiresAt ∧
    stored.active = true ∧ stored.revoked = false ∧ now < stored.expiresAt

omit [Unicode] [Digest] in
/-- A later request of the same arguments overlaps the window of the earlier one until that ends.
Where it does not, its own window is empty. -/
theorem requestedWindow_overlaps {now later clock : Time} {startsAgain expiresAgain : Time}
    (hLater : now ≤ later) (hClock : later ≠ 0)
    (hWindow : requestedWindow args now = .ok (startsAt, expiresAt))
    (hAgain : requestedWindow args later = .ok (startsAgain, expiresAgain))
    (hFuture : now < expiresAt) (hStart : requestedStart startsAt now < expiresAt)
    (hLive : later < expiresAt) (hNonempty : requestedStart startsAgain clock < expiresAgain) :
    requestedStart startsAt now < expiresAgain ∧ requestedStart startsAgain clock < expiresAt := by
  unfold requestedWindow at hWindow hAgain
  dsimp only at hWindow hAgain
  cases hArgs : args.startsAt with
  | some start =>
    -- The window is the same.
    simp only [hArgs, Option.getD_some] at hWindow hAgain
    rw [hWindow] at hAgain
    obtain ⟨rfl, rfl⟩ := Prod.mk.inj (Except.ok.inj hAgain)
    exact ⟨hStart, hNonempty⟩
  | none =>
    simp only [hArgs, Option.getD_none] at hWindow hAgain
    split at hWindow
    · rename_i hOpen
      rw [if_pos hOpen] at hAgain
      split at hWindow
      · cases hWindow
      rename_i ttl hTTL
      rw [hTTL] at hAgain
      obtain ⟨rfl, rfl⟩ := Prod.mk.inj (Except.ok.inj hWindow)
      obtain ⟨rfl, rfl⟩ := Prod.mk.inj (Except.ok.inj hAgain)
      have hPositive : 0 < ttl := parseTTL_pos (by decide) hTTL
      have hSame : requestedStart now now = now := by simp [requestedStart]
      have hNow : requestedStart later clock = later := if_neg hClock
      rw [hSame, hNow]
      exact ⟨lt_of_le_of_lt hLater (Int.lt_add_of_pos_right later hPositive), hLive⟩
    · rename_i hGiven
      rw [if_neg hGiven] at hAgain
      obtain ⟨rfl, rfl⟩ := Prod.mk.inj (Except.ok.inj hWindow)
      obtain ⟨rfl, rfl⟩ := Prod.mk.inj (Except.ok.inj hAgain)
      have hNow : requestedStart later clock = later := if_neg hClock
      rw [hNow]
      exact ⟨hStart, hLive⟩

omit [Unicode] [Digest] [DurationSyntax] in
/-- A stored row that overlaps the window on one of the GPUs makes it unavailable. -/
theorem ensureGPUs_overlap (gpuCount : Int) {world : WindowWorld} {gpus : List Int} {state : State}
    (h : requestedStart startsAt world.start < expiresAt →
      ∃ row ∈ state.reservations, row.gpu ∈ gpus ∧
        reservationOverlaps row (requestedStart startsAt world.start) expiresAt = true) :
    ∃ message, ensureGPUsCanReserveWindowSampled gpuCount world gpus startsAt expiresAt state =
      some message := by
  unfold ensureGPUsCanReserveWindowSampled
  split
  · exact ⟨_, rfl⟩
  dsimp only
  split
  · exact ⟨_, rfl⟩
  rename_i hWindow
  split
  · exact ⟨_, rfl⟩
  obtain ⟨row, hRow, hGPU, hOverlaps⟩ := h (not_not.mp hWindow)
  split
  · exact ⟨_, rfl⟩
  · rename_i hNone
    have hSelected := find?_eq_none.mp hNone row hRow
    simp [hGPU, hOverlaps] at hSelected

/-- A booking is accepted, and the same request comes again while the reservations of the first
answer are live, wherever the store has gone in between. It is refused, whether it has a session
or not and whosever key it is made with. -/
theorem repeated_booking_refused {gpuCount : Int} {world later : RegisterWorld}
    {args : RegisterArgs} {store after : Store} {result : RegisterResult}
    (hReserved : normalizeTokenMode args.mode = tokenModeReserved)
    (hAccepted : (register codec gpuCount world args store).2 = .ok result)
    (hLater : world.now ≤ later.now) (hClock : later.now ≠ 0)
    (hLive : ∀ row ∈ (register codec gpuCount world args store).1.state.reservations,
      row.id ∈ result.reservationIDs → StillLive after.state later.now row) :
    ∃ message, register codec gpuCount later args after = (after, .error message) := by
  obtain ⟨startsAt, expiresAt, hBooking⟩ := register_accepted codec hReserved hAccepted
  obtain ⟨row, hMem, hID, hGPU, hRowStart, hRowEnd⟩ := hBooking.row
  obtain ⟨stored, hStored, _, hSameGPU, hSameStart, hSameEnd, hActive, hRevoked, hEnds⟩ :=
    hLive row hMem hID
  cases hPlan : registerPlan gpuCount later args after.state with
  | error message => exact ⟨message, by simp only [register, hPlan]⟩
  | ok plan =>
    obtain ⟨startsAgain, expiresAgain, hAgain, _, _, hClear⟩ := registerPlan_ok hReserved hPlan
    have hOverlap : requestedStart startsAgain later.window.start < expiresAgain →
        ∃ row ∈ after.state.reservations, row.gpu ∈ args.gpus ∧ reservationOverlaps row
          (requestedStart startsAgain later.window.start) expiresAgain = true := by
      intro hNonempty
      have hEnd : stored.expiresAt = expiresAt := hSameEnd.trans hRowEnd
      obtain ⟨hBefore, hAfter⟩ := requestedWindow_overlaps hLater hClock hBooking.window hAgain
        hBooking.future hBooking.start (hEnd ▸ hEnds) hNonempty
      refine ⟨stored, hStored, hSameGPU ▸ hGPU, ?_⟩
      simp [reservationOverlaps, hActive, hRevoked, hSameStart, hRowStart, hEnd, hBefore, hAfter]
    obtain ⟨message, hRefused⟩ := ensureGPUs_overlap gpuCount hOverlap
    cases hClear.symm.trans hRefused

end Repeat

section Samples

open scoped Plain

/-- An authorizer that reads no process. -/
def idleAuthorizer : Authorizer where
  proc := none
  runtime := none
  usernameLookup := fun _ _ => .error ""
  bootID := ""
  dryRun := false
  ctxErr := fun _ => none
  gpuOrder := id
  gpuOrder_perm := fun gpus => List.Perm.refl gpus

def idleWorld (now : Time) : RegisterWorld :=
  { now := now
    validateRootKey := fun _ => .ok true
    storeValidateRootKey := fun _ => .ok true
    window := { start := now, now := now, sample := .ok [], authorizer := idleAuthorizer
                busyNow := now }
    fresh := { aliceDraws with groupHex := "4" }
    errors := {} }

/-- Alice's session, with the fixed key if there is one. -/
def sessionArgs (userKeyID : String) : RegisterArgs :=
  { mode := "reserved", name := "alice", externalSessionID := "sess_1", userKeyID := userKeyID
    gpus := [0], startsAt := some 100, expiresAt := some 200 }

/-- The state after alice's session was booked with the fixed key. -/
def sessionKeyed : State :=
  { aliceKeyed with
    reservations := [{ sessionRow with groupID := "grp_4", tokenHash := repeatedHash 'a' }] }

def registerCodec : Codec := tableCodec [sessionBooked, aliceKeyed, sessionKeyed]

def sessionResult (secret tokenID groupID mode : String) : RegisterResult :=
  { token := secret, tokenID := tokenID, groupID := groupID, mode := mode
    reservationIDs := ["res_3"], gpus := [0], startsAt := some 100, expiresAt := some 200 }

theorem session_registered :
    letI : DurationSyntax := ⟨fun _ => .error "time: invalid duration"⟩
    register registerCodec 0 (idleWorld 20) (sessionArgs "") ⟨{}, {}, none⟩ =
      (Store.saved registerCodec sessionBooked,
        .ok (sessionResult "gk_1" "tok_2" "tok_2" "reserved")) := by
  decide +kernel

theorem repeated_booking_refused_alice :
    letI : DurationSyntax := ⟨fun _ => .error "time: invalid duration"⟩
    let store := Store.saved registerCodec sessionBooked
    StillLive store.state 40 sessionRow ∧
      ∃ message, register registerCodec 0 (idleWorld 40) (sessionArgs "") store =
        (store, .error message) := by
  have hLive : StillLive sessionBooked 40 sessionRow :=
    ⟨sessionRow, mem_cons_self, rfl, rfl, rfl, rfl, rfl, rfl, by decide⟩
  refine ⟨hLive, @repeated_booking_refused ascii plain ⟨fun _ => .error "time: invalid duration"⟩
    registerCodec 0 (idleWorld 20) (idleWorld 40) (sessionArgs "") ⟨{}, {}, none⟩
    (Store.saved registerCodec sessionBooked) (sessionResult "gk_1" "tok_2" "tok_2" "reserved")
    (by decide +kernel) (by rw [session_registered]) (by decide) (by decide) ?_⟩
  intro row hRow _
  rw [session_registered] at hRow
  obtain rfl : row = sessionRow := mem_singleton.mp hRow
  exact hLive

/-- The first requests of both kinds are answered with one reservation, which is then live, and
the second ones are refused because of it. -/
theorem repeated_session_refused :
    letI : DurationSyntax := ⟨fun _ => .error "time: invalid duration"⟩
    let keyed := Store.saved registerCodec aliceKeyed
    let booked := Store.saved registerCodec sessionBooked
    let bookedKeyed := Store.saved registerCodec sessionKeyed
    register registerCodec 0 (idleWorld 20) (sessionArgs "") ⟨{}, {}, none⟩ =
        (booked, .ok (sessionResult "gk_1" "tok_2" "tok_2" "reserved")) ∧
      register registerCodec 0 (idleWorld 40) (sessionArgs "") booked =
        (booked, .error "gpu 0 already reserved by res_3") ∧
      register registerCodec 0 (idleWorld 20) (sessionArgs "uk_1") keyed =
        (bookedKeyed, .ok (sessionResult "" "uk_1" "grp_4" "managed")) ∧
      register registerCodec 0 (idleWorld 40) (sessionArgs "uk_1") bookedKeyed =
        (bookedKeyed, .error "gpu 0 already reserved by res_3") :=
  ⟨session_registered, by decide +kernel, by decide +kernel, by decide +kernel⟩

end Samples

end GPUardian
