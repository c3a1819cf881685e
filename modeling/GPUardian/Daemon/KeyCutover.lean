import GPUardian.Daemon.Register
import Mathlib.Logic.Function.Basic

/-! The switch of a node to keys that the gateway manages, among concurrent requests. The daemon
looks whether the keys are managed and issues a key in two calls of the store; a booking holds
`enforceMu` over both, as the key sync does over its call, and a claim key request holds nothing. -/
namespace GPUardian

open GoStrings GoSlice List Option Interleaving

/-- A `register` request, or a key sync with what it finds around it. -/
inductive KeyRequest where
  | register (world : RegisterWorld) (args : RegisterArgs)
  | sync (rootKey : RootKeyCheck) (groupHex : Nat → String) (snapshot : ManagedUserKeySnapshot)
      (now : Time) (errors : SaveErrors)

inductive KeyAnswer where
  | registered (answer : Except String RegisterResult)
  | synced (answer : Except String ManagedUserKeySyncResult)

/-- What a request does next. From `window` to `unlock`, and at `sync`, it holds `enforceMu`. -/
inductive Stage where
  | managedCheck (world : RegisterWorld) (args : RegisterArgs)
  | issueKey (world : RegisterWorld) (args : RegisterArgs)
  | waitToBook (world : RegisterWorld) (args : RegisterArgs) (startsAt expiresAt : Time)
  | window (world : RegisterWorld) (args : RegisterArgs) (startsAt expiresAt : Time)
  | bookingCheck (world : RegisterWorld) (args : RegisterArgs) (startsAt expiresAt : Time)
  | book (world : RegisterWorld) (args : RegisterArgs) (startsAt expiresAt : Time)
  | bookManaged (world : RegisterWorld) (args : RegisterArgs) (startsAt expiresAt : Time)
  | waitToSync (rootKey : RootKeyCheck) (groupHex : Nat → String)
      (snapshot : ManagedUserKeySnapshot) (now : Time) (errors : SaveErrors)
  | sync (rootKey : RootKeyCheck) (groupHex : Nat → String) (snapshot : ManagedUserKeySnapshot)
      (now : Time) (errors : SaveErrors)
  | unlock (answer : KeyAnswer)
  | done (answer : KeyAnswer)

namespace Stage

def locked : Stage → Bool
  | .window .. | .bookingCheck .. | .book .. | .bookManaged .. | .sync .. | .unlock _ => true
  | _ => false

/-- The request has been told that the keys are not managed, and is about to issue one. -/
def issuing : Stage → Bool
  | .issueKey .. | .book .. => true
  | _ => false

/-- The request issues a key without the lock. -/
def unguarded : Stage → Bool
  | .issueKey .. => true
  | _ => false

def syncing : Stage → Bool
  | .sync .. => true
  | _ => false

end Stage

/-- The store, the holder of the lock and the requests that have come. -/
structure KeyCutover where
  store : Store
  enforceMu : Option Nat := none
  requests : Nat → Option Stage := fun _ => none

inductive CutoverEvent where
  | arrive (i : Nat) (request : KeyRequest)
  | step (i : Nat)

/-- Where the keys are managed, every token is one of them. -/
def AllManaged (state : State) : Prop :=
  state.managedKeys = true → ∀ token ∈ state.tokens, token.managed = true

section Calls

variable [Unicode] [Digest] (codec : Codec)

/-- A request leaves the store as the operation does that it calls. -/
theorem perform_op {α : Type} (errors : SaveErrors) (store : Store) (op : Op) {effect : Effect α}
    (h : op.effect store.state = effect.map fun _ => ()) :
    (store.perform codec errors effect).1 = (store.call codec errors op).1 := by
  rw [Store.call, h, Store.perform_map]

/-- The flag is as before and, where it is set, so are the tokens. -/
def FlagKept (before after : State) : Prop :=
  after.managedKeys = before.managedKeys ∧
    (before.managedKeys = true → after.tokens = before.tokens)

omit [Unicode] [Digest] in
theorem FlagKept.allManaged {before after : State} (h : FlagKept before after)
    (hBefore : AllManaged before) : AllManaged after := by
  intro hManaged
  rw [h.1] at hManaged
  rw [h.2 hManaged]
  exact hBefore hManaged

omit [Unicode] [Digest] in
/-- Where the flag is not set, a call that leaves it may issue tokens. -/
theorem flagKept_of_unmanaged {before after : State} (hFlag : after.managedKeys = before.managedKeys)
    (hBefore : before.managedKeys = false) : FlagKept before after :=
  ⟨hFlag, fun hManaged => absurd hManaged (by simp [hBefore])⟩

/-- Only a snapshot changes the flag. -/
theorem Op.managedKeys_kept {op : Op} (hDaemon : op.daemon = true)
    (hSync : ∀ rootKey groupHex snapshot now,
      op ≠ .syncManagedUserKeys rootKey groupHex snapshot now) (state : State) :
    ((op.effect state).edits.apply state).managedKeys = state.managedKeys := by
  refine Op.edits_ind fun edits hEdited => ?_
  cases hEdited with
  | old _ _ hOld => exact absurd hDaemon (by simp [hOld])
  | cutOver => exact absurd rfl (hSync _ _ _ _)
  | _ => rfl

theorem registerManaged_flagKept (rootKey : RootKeyCheck) (fresh : Fresh)
    (userKeyID purpose session : String) (gpus : List Int) (startsAt expiresAt now : Time)
    (state : State) :
    FlagKept state (((Op.registerManagedReservations rootKey fresh userKeyID purpose session gpus
      startsAt expiresAt now).effect state).edits.apply state) := by
  have hEdited := Op.edited state (.registerManagedReservations rootKey fresh userKeyID purpose
    session gpus startsAt expiresAt now)
  refine ⟨Op.managedKeys_kept rfl (by nofun) state, fun _ => ?_⟩
  generalize (Op.effect state (.registerManagedReservations rootKey fresh userKeyID purpose
    session gpus startsAt expiresAt now)).edits = edits at hEdited
  cases hEdited with
  | old _ _ hOld => cases hOld
  | _ => rfl

/-- A snapshot leaves managed tokens only. -/
theorem sync_allManaged (rootKey : RootKeyCheck) (groupHex : Nat → String)
    (snapshot : ManagedUserKeySnapshot) (now : Time) {state : State} (h : AllManaged state) :
    AllManaged (((Op.syncManagedUserKeys rootKey groupHex snapshot now).effect state).edits.apply
      state) := by
  have hEdited := Op.edited state (.syncManagedUserKeys rootKey groupHex snapshot now)
  generalize (Op.effect state (.syncManagedUserKeys rootKey groupHex snapshot now)).edits = edits
    at hEdited
  cases hEdited with
  | old _ _ hOld => cases hOld
  | quiet | confirmed => exact h
  | cutOver _ _ _ _ managed _ hAdmitted =>
    intro _ token hToken
    obtain ⟨key, _, rfl⟩ := admitManagedKeys_mem hAdmitted hToken
    rfl

end Calls

namespace KeyCutover

variable [Unicode] [Digest] [DurationSyntax] (codec : Codec) (gpuCount : Int)

def move (i : Nat) (stage : Stage) (s : KeyCutover) : KeyCutover :=
  { s with requests := Function.update s.requests i (some stage) }

/-- Where a request starts, after the checks that need neither the lock nor the store. -/
def arrival : KeyRequest → Stage
  | .register world args =>
    match prepareRegister gpuCount (world.validateRootKey args.rootKey) args world.now with
    | .error message => .done (.registered (.error message))
    | .ok .claimed => .managedCheck world args
    | .ok (.reserved startsAt expiresAt) => .waitToBook world args startsAt expiresAt
  | .sync rootKey groupHex snapshot now errors =>
    .waitToSync rootKey groupHex snapshot now errors

/-- The next step of a request at some stage. One that waits for the lock stays. -/
def advance (i : Nat) (s : KeyCutover) : Stage → KeyCutover
  | .managedCheck world args =>
    s.move i (if s.store.state.managedKeys then .done (.registered (.error errClaimKeysManaged))
      else .issueKey world args)
  | .issueKey world args =>
    let call := issueClaimKey codec world args s.store
    { s with store := call.1 }.move i (.done (.registered call.2))
  | .waitToBook world args startsAt expiresAt =>
    if s.enforceMu = none then
      { s with enforceMu := some i }.move i (.window world args startsAt expiresAt)
    else s
  | .window world args startsAt expiresAt =>
    match ensureGPUsCanReserveWindowSampled gpuCount world.window args.gpus startsAt expiresAt
        s.store.state with
    | some message => s.move i (.unlock (.registered (.error message)))
    | none =>
      s.move i (if trimSpace args.userKeyID ≠ "" then .bookManaged world args startsAt expiresAt
        else .bookingCheck world args startsAt expiresAt)
  | .bookingCheck world args startsAt expiresAt =>
    s.move i (if s.store.state.managedKeys then
        .unlock (.registered (.error errUserKeyIDRequired))
      else .book world args startsAt expiresAt)
  | .book world args startsAt expiresAt =>
    let call := bookLocal codec world args startsAt expiresAt s.store
    { s with store := call.1 }.move i (.unlock (.registered call.2))
  | .bookManaged world args startsAt expiresAt =>
    let call := GPUardian.bookManaged codec world args startsAt expiresAt s.store
    { s with store := call.1 }.move i (.unlock (.registered call.2))
  | .waitToSync rootKey groupHex snapshot now errors =>
    if s.enforceMu = none then
      { s with enforceMu := some i }.move i (.sync rootKey groupHex snapshot now errors)
    else s
  | .sync rootKey groupHex snapshot now errors =>
    let call := s.store.perform codec errors
      (syncManagedUserKeys rootKey groupHex snapshot now s.store.state)
    { s with store := call.1 }.move i (.unlock (.synced call.2))
  | .unlock answer => { s with enforceMu := none }.move i (.done answer)
  | .done _ => s

def step (s : KeyCutover) : CutoverEvent → KeyCutover
  | .arrive i request =>
    match s.requests i with
    | none => s.move i (arrival gpuCount request)
    | some _ => s
  | .step i =>
    match s.requests i with
    | none => s
    | some stage => s.advance codec gpuCount i stage

/-- A request that is alone gets the answer of `register`. -/
theorem alone (i : Nat) (world : RegisterWorld) (args : RegisterArgs) (store : Store) :
    let s := run (step codec gpuCount) { store := store }
      (.arrive i (.register world args) :: List.replicate 5 (.step i))
    s.store = (register codec gpuCount world args store).1 ∧ s.enforceMu = none ∧
      s.requests i = some (.done (.registered (register codec gpuCount world args store).2)) := by
  simp only [Interleaving.run_cons, List.replicate, Interleaving.run_nil]
  cases hPlan : prepareRegister gpuCount (world.validateRootKey args.rootKey) args world.now with
  | error message => simp [step, arrival, advance, move, register, registerPlan, hPlan]
  | ok plan =>
    cases plan with
    | claimed =>
      by_cases hManaged : store.state.managedKeys = true
      · simp [step, arrival, advance, move, register, registerPlan, hPlan, hManaged]
      · simp [step, arrival, advance, move, register, registerPlan, hPlan, hManaged]
    | reserved startsAt expiresAt =>
      cases hWindow : ensureGPUsCanReserveWindowSampled gpuCount world.window args.gpus startsAt
          expiresAt store.state with
      | some message => simp [step, arrival, advance, move, register, registerPlan, hPlan, hWindow]
      | none =>
        by_cases hKey : trimSpace args.userKeyID = ""
        · by_cases hManaged : store.state.managedKeys = true
          · simp [step, arrival, advance, move, register, registerPlan, hPlan, hWindow, hKey, hManaged]
          · simp [step, arrival, advance, move, register, registerPlan, hPlan, hWindow, hKey, hManaged]
        · simp [step, arrival, advance, move, register, registerPlan, hPlan, hWindow, hKey]

/-- What holds while no snapshot overtakes a claim key. -/
structure Guarded (s : KeyCutover) : Prop where
  synced : s.store.Synced codec
  managed : AllManaged s.store.state
  lock : ∀ j stage, s.requests j = some stage → stage.locked = true → s.enforceMu = some j
  issuing : ∀ j stage, s.requests j = some stage → stage.issuing = true →
    s.store.state.managedKeys = false

/-- No snapshot is applied while a claim key is about to be issued. -/
def Undisturbed (s : KeyCutover) : CutoverEvent → Prop
  | .arrive _ _ => True
  | .step i => ∀ stage, s.requests i = some stage → stage.syncing = true →
      ∀ j other, s.requests j = some other → other.unguarded = false

variable {codec} {s : KeyCutover}

omit [Unicode] [Digest] [DurationSyntax] in
/-- One request moves on: it may have the lock, and it may be told that the keys are not managed. -/
theorem Guarded.moved {i : Nat} {stage : Stage} {store : Store} {lock : Option Nat}
    (hSynced : store.Synced codec) (hManaged : AllManaged store.state)
    (hLock : stage.locked = true → lock = some i)
    (hIssuing : stage.issuing = true → store.state.managedKeys = false)
    (hOthers : ∀ j other, j ≠ i → s.requests j = some other →
      (other.locked = true → lock = some j) ∧
      (other.issuing = true → store.state.managedKeys = false)) :
    Guarded codec (KeyCutover.move i stage { s with store := store, enforceMu := lock }) := by
  have hStage : ∀ j other, Function.update s.requests i (some stage) j = some other →
      (j = i ∧ other = stage) ∨ (j ≠ i ∧ s.requests j = some other) := by
    intro j other hOther
    by_cases hj : j = i
    · subst hj
      rw [Function.update_self] at hOther
      exact .inl ⟨rfl, (some.inj hOther).symm⟩
    · rw [Function.update_of_ne hj] at hOther
      exact .inr ⟨hj, hOther⟩
  refine ⟨hSynced, hManaged, fun j other hOther hLocked => ?_, fun j other hOther hIssues => ?_⟩
  · rcases hStage j other hOther with ⟨rfl, rfl⟩ | ⟨hj, hOther⟩
    · exact hLock hLocked
    · exact (hOthers j other hj hOther).1 hLocked
  · rcases hStage j other hOther with ⟨rfl, rfl⟩ | ⟨hj, hOther⟩
    · exact hIssuing hIssues
    · exact (hOthers j other hj hOther).2 hIssues

omit [Unicode] [Digest] [DurationSyntax] in
/-- The lock stays where it is, and the flag does not change. -/
theorem Guarded.goes (h : Guarded codec s) {i : Nat} {stage : Stage} {store : Store}
    (hSynced : store.Synced codec) (hFlag : FlagKept s.store.state store.state)
    (hLock : stage.locked = true → s.enforceMu = some i)
    (hIssuing : stage.issuing = true → s.store.state.managedKeys = false) :
    Guarded codec (KeyCutover.move i stage { s with store := store }) := by
  refine Guarded.moved hSynced (hFlag.allManaged h.managed) hLock
    (fun hIssues => hFlag.1.trans (hIssuing hIssues)) fun j other _ hOther => ?_
  exact ⟨h.lock j other hOther, fun hIssues => hFlag.1.trans (h.issuing j other hOther hIssues)⟩

omit [Unicode] [Digest] [DurationSyntax] in
/-- Nobody has the lock, and the request takes it. -/
theorem Guarded.locks (h : Guarded codec s) (hFree : s.enforceMu = none) (i : Nat) {stage : Stage}
    (hIssuing : stage.issuing = false) :
    Guarded codec (KeyCutover.move i stage { s with enforceMu := some i }) := by
  refine Guarded.moved h.synced h.managed (fun _ => rfl)
    (fun hIssues => absurd hIssues (by simp [hIssuing])) fun j other _ hOther => ?_
  refine ⟨fun hLocked => ?_, h.issuing j other hOther⟩
  rw [h.lock j other hOther hLocked] at hFree
  cases hFree

omit [DurationSyntax] in
/-- A call of the store that keeps the flag. -/
theorem Guarded.calls (h : Guarded codec s) {i : Nat} {stage : Stage} {store : Store} {op : Op}
    {errors : SaveErrors} (hStore : store = (s.store.call codec errors op).1)
    (hFlag : FlagKept s.store.state ((op.effect s.store.state).edits.apply s.store.state))
    (hLock : stage.locked = true → s.enforceMu = some i) (hIssuing : stage.issuing = false) :
    Guarded codec (KeyCutover.move i stage { s with store := store }) := by
  rw [hStore]
  exact h.goes (Store.call_synced codec _ _ h.synced) (Store.call_keeps (P := FlagKept s.store.state)
    codec h.synced ⟨rfl, fun _ => rfl⟩ hFlag) hLock fun hIssues => absurd hIssues (by simp [hIssuing])

omit [DurationSyntax] in
/-- The step of a request at some stage, unless a snapshot overtakes a claim key. -/
theorem Guarded.advance (gpuCount : Int) (h : Guarded codec s) {i : Nat} {stage : Stage}
    (hStage : s.requests i = some stage)
    (hSync : stage.syncing = true → ∀ j other, s.requests j = some other →
      other.unguarded = false) :
    Guarded codec (s.advance codec gpuCount i stage) := by
  have hSame : FlagKept s.store.state s.store.state := ⟨rfl, fun _ => rfl⟩
  cases stage with
  | managedCheck world args =>
    refine h.goes h.synced hSame ?_ ?_
    all_goals split
    · nofun
    · nofun
    · nofun
    · intro _
      simpa using ‹¬ s.store.state.managedKeys = true›
  | issueKey world args =>
    have hFlag := h.issuing i _ hStage rfl
    exact h.calls (perform_op codec world.errors s.store (.registerSoftToken _ _ _ _) rfl)
      (flagKept_of_unmanaged (Op.managedKeys_kept rfl (by nofun) _) hFlag) nofun rfl
  | waitToBook world args startsAt expiresAt =>
    simp only [KeyCutover.advance]
    split
    · exact h.locks ‹_› i rfl
    · exact h
  | window world args startsAt expiresAt =>
    have hLock := h.lock i _ hStage rfl
    simp only [KeyCutover.advance]
    split
    · exact h.goes h.synced hSame (fun _ => hLock) nofun
    · refine h.goes h.synced hSame (fun _ => hLock) ?_
      split
      · nofun
      · nofun
  | bookingCheck world args startsAt expiresAt =>
    have hLock := h.lock i _ hStage rfl
    refine h.goes h.synced hSame (fun _ => hLock) ?_
    split
    · nofun
    · intro _
      simpa using ‹¬ s.store.state.managedKeys = true›
  | book world args startsAt expiresAt =>
    have hFlag := h.issuing i _ hStage rfl
    have hLock := h.lock i _ hStage rfl
    exact h.calls (perform_op codec world.errors s.store
      (.registerScheduledReservationsWithSession _ _ _ _ _ _ _ _ _) rfl)
      (flagKept_of_unmanaged (Op.managedKeys_kept rfl (by nofun) _) hFlag) (fun _ => hLock) rfl
  | bookManaged world args startsAt expiresAt =>
    have hLock := h.lock i _ hStage rfl
    exact h.calls (perform_op codec world.errors s.store
      (.registerManagedReservations _ _ _ _ _ _ _ _ _) rfl) (registerManaged_flagKept ..)
      (fun _ => hLock) rfl
  | waitToSync rootKey groupHex snapshot now errors =>
    simp only [KeyCutover.advance]
    split
    · exact h.locks ‹_› i rfl
    · exact h
  | sync rootKey groupHex snapshot now errors =>
    have hLock := h.lock i _ hStage rfl
    rw [KeyCutover.advance, perform_op codec errors s.store (.syncManagedUserKeys _ _ _ _) rfl]
    refine Guarded.moved (Store.call_synced codec _ _ h.synced)
      (Store.call_keeps codec h.synced h.managed (sync_allManaged _ _ _ _ h.managed))
      (fun _ => hLock) nofun fun j other hj hOther => ⟨h.lock j other hOther, fun hIssues => ?_⟩
    -- A booking would have the lock, and a claim key is not about to be issued.
    have hUnguarded := hSync rfl j other hOther
    cases other with
    | issueKey world args => cases hUnguarded
    | book world args startsAt expiresAt =>
      have hOtherLock := h.lock j _ hOther rfl
      rw [hLock] at hOtherLock
      exact absurd (some.inj hOtherLock).symm hj
    | _ => cases hIssues
  | unlock answer =>
    have hLock := h.lock i _ hStage rfl
    refine Guarded.moved h.synced h.managed nofun nofun fun j other hj hOther => ?_
    refine ⟨fun hLocked => ?_, h.issuing j other hOther⟩
    rw [h.lock j other hOther hLocked] at hLock
    exact absurd (some.inj hLock) hj
  | done answer => exact h

theorem Guarded.step (gpuCount : Int) (h : Guarded codec s) {event : CutoverEvent}
    (hEvent : s.Undisturbed event) : Guarded codec (s.step codec gpuCount event) := by
  cases event with
  | arrive i request =>
    simp only [KeyCutover.step]
    split
    · -- A request starts without the lock and before it is told anything.
      have hStart : (arrival gpuCount request).locked = false ∧
          (arrival gpuCount request).issuing = false := by
        unfold arrival
        repeat' split
        all_goals exact ⟨rfl, rfl⟩
      exact h.goes h.synced ⟨rfl, fun _ => rfl⟩ (fun hLocked => by simp [hStart] at hLocked)
        (fun hIssues => by simp [hStart] at hIssues)
    · exact h
  | step i =>
    simp only [KeyCutover.step]
    split
    · exact h
    · rename_i stage hStage
      exact h.advance gpuCount hStage (hEvent stage hStage)

/-- From any store whose tokens are managed if its keys are, in every interleaving of requests in
which no snapshot overtakes a claim key, and whatever saves fail: once the keys are managed, every
token is. -/
theorem cutover_leaves_managed (codec : Codec) (gpuCount : Int) {store : Store}
    (hSynced : store.Synced codec) (hStart : AllManaged store.state) {events : List CutoverEvent}
    (hEvents : Interleaving.Along (KeyCutover.step codec gpuCount) Undisturbed { store := store }
      events) :
    AllManaged
      (run (KeyCutover.step codec gpuCount) { store := store } events).store.state := by
  have hInit : Guarded codec ({ store := store } : KeyCutover) :=
    ⟨hSynced, hStart, (fun _ _ hNone => nomatch hNone), (fun _ _ hNone => nomatch hNone)⟩
  have hStep : ∀ s event, Undisturbed s event → Guarded codec s →
      Guarded codec (KeyCutover.step codec gpuCount s event) :=
    fun s event hEvent h => h.step gpuCount hEvent
  have hRun := hEvents.invariant (Guarded codec) hStep hInit
  exact hRun.managed

end KeyCutover

section Samples

open scoped Plain

open KeyCutover

def claimArgs : RegisterArgs := { mode := "claimed", name := "bob" }

/-- Bob asks for a claim key, and the gateway sends its snapshot. -/
def bobAsks : CutoverEvent := .arrive 0 (.register (idleWorld 5) claimArgs)

def gatewaySends : CutoverEvent :=
  .arrive 1 (.sync (.ok true) (fun _ => "0")
    { snapshotID := "s1", keys := [keyOf "uk_1" "alice" 'a'] } 10 {})

def bobToken : Token :=
  { id := "tok_2", hash := "gk_1", secret := "gk_1", name := "bob", mode := "claimed"
    createdAt := 5 }

def bobKeyed : State := { tokens := [bobToken] }

def bobOutlives : State := { aliceKeyed with tokens := aliceKeyed.tokens ++ [bobToken] }

def cutoverCodec : Codec := tableCodec [bobKeyed, aliceKeyed, bobOutlives]

/-- With two requests, only the other one can be overtaken. -/
theorem undisturbed_two {s : KeyCutover} {i : Nat} (hTwo : ∀ j, s.requests (j + 2) = none)
    (h : (s.requests i).any (·.syncing) = false ∨
      (s.requests 0).any (·.unguarded) = false ∧ (s.requests 1).any (·.unguarded) = false) :
    Undisturbed s (.step i) := by
  intro stage hStage hSyncing j other hOther
  rcases h with hNot | ⟨hZero, hOne⟩
  · simp [hStage, hSyncing] at hNot
  · match j with
    | 0 => simpa [hOther] using hZero
    | 1 => simpa [hOther] using hOne
    | j + 2 => simp [hTwo] at hOther

/-- Bob's key is issued before the snapshot comes, which then replaces it. -/
theorem cutover_leaves_managed_alice :
    letI : DurationSyntax := ⟨fun _ => .error "time: invalid duration"⟩
    let events := [bobAsks, gatewaySends, .step 0, .step 0, .step 1, .step 1, .step 1]
    let s := run (step cutoverCodec 0) { store := ⟨{}, {}, none⟩ } events
    s.store.state.managedKeys = true ∧ AllManaged s.store.state := by
  refine ⟨by decide +kernel, @cutover_leaves_managed ascii plain
    ⟨fun _ => .error "time: invalid duration"⟩ cutoverCodec 0 ⟨{}, {}, none⟩
    (Store.synced_empty cutoverCodec) nofun _ ?_⟩
  refine ⟨trivial, trivial, undisturbed_two ?_ ?_, undisturbed_two ?_ ?_, undisturbed_two ?_ ?_,
    undisturbed_two ?_ ?_, undisturbed_two ?_ ?_, trivial⟩
  all_goals first
    | decide +kernel
    | exact fun _ => rfl

/-- Bob is told that the keys are not managed, the snapshot is applied, and bob's key is issued. -/
theorem claim_key_outlives_cutover :
    letI : DurationSyntax := ⟨fun _ => .error "time: invalid duration"⟩
    let events := [bobAsks, gatewaySends, .step 0, .step 1, .step 1, .step 0, .step 1]
    let s := run (step cutoverCodec 0) { store := ⟨{}, {}, none⟩ } events
    s.store.state.managedKeys = true ∧ bobToken ∈ s.store.state.tokens ∧
      bobToken.managed = false ∧ s.enforceMu = none := by
  decide +kernel

end Samples

end GPUardian
