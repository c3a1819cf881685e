import GPUardian.Gateway.Access

/-! `managedKeySnapshot` and its cache, with a user store that is read from its file when it is first
used. Calls of it run at the same time as each other and as changes of the users. -/
namespace GPUardian

open GoStrings List

/-- `file` is the users file as the store finds it, or none if there is none or it is blank. `tables`
are the user tables that have been current, the first one last; the code does not keep them. -/
structure KeyDirectory extends SnapshotCalls ManagedUserKeySnapshot where
  users : UserStore := {}
  loaded : Bool := false
  file : Option (List UserRecord)
  tables : List (List UserRecord)

/-- `readError` is the error of reading or decoding the users file. -/
inductive DirectoryEvent where
  | change (readError : Option String) (op : AccountOp)
  | begin (call : Nat)
  | look (call : Nat)
  | build (call : Nat) (readError : Option String)
  | publish (call : Nat)

namespace KeyDirectory

def start (file : Option (List UserRecord)) : KeyDirectory := { file := file, tables := [file.getD []] }

/-- `loadLocked`, with whether it succeeds. -/
def loadLocked (readError : Option String) (s : KeyDirectory) : KeyDirectory × Bool :=
  if s.loaded then (s, true)
  else match readError, s.file with
  | some _, _ => (s, false)
  | none, none => ({ s with loaded := true, users := { s.users with users := [] } }, true)
  | none, some users =>
    if maxUsers < users.length then (s, false)
    else ({ s with
      loaded := true
      users := { users := users, generation := s.users.generation + 1 }
      tables := users :: s.tables }, true)

section Steps

variable [Unicode] [Digest] (marshal : List ManagedUserKey → String) (authority : String)

def step (s : KeyDirectory) : DirectoryEvent → KeyDirectory
  | .change readError op =>
    let (s, ok) := s.loadLocked readError
    let users := s.users.apply op
    if ok then { s with
      users := users
      tables := if users.generation = s.users.generation then s.tables else users.users :: s.tables }
    else s
  | .begin i =>
    { s with toSnapshotCalls := s.move i (.begun (s.tables.length - 1) s.users.generation) }
  | .look i => { s with toSnapshotCalls := s.look i }
  | .build i readError =>
    match s.calls i with
    | .missed _ _ =>
      let (s, ok) := s.loadLocked readError
      let snapshot := KeySync.buildManagedKeySnapshot marshal authority s.users.users
      { s with toSnapshotCalls := s.build i (if ok then some snapshot else none) }
    | _ => s
  | .publish i => { s with toSnapshotCalls := s.publish i }

end Steps

/-- The snapshot shows a table that was current when there were more than `n` tables, or later. -/
def ShowsSince (n : Nat) (snapshot : ManagedUserKeySnapshot) (s : KeyDirectory) : Prop :=
  ∃ later table earlier, s.tables = later ++ table :: earlier ∧ n ≤ earlier.length ∧
    snapshot.keys = UserStore.fixedKeyVerifiers table

/-- The table that `FixedKeyVerifiers` would read. -/
def current (s : KeyDirectory) : List UserRecord := if s.loaded then s.users.users else s.file.getD []

/-- The generation that a call has read is the index of the table it began with. -/
def Began (s : KeyDirectory) (since generation : Nat) : Prop :=
  since = generation ∧ generation < s.tables.length

structure Sound (s : KeyDirectory) : Prop where
  length : s.tables.length = s.users.generation + 1
  head : s.tables.head? = some s.current
  calls : s.toSnapshotCalls.Sound s.Began fun n snapshot => s.ShowsSince n snapshot

variable {s t : KeyDirectory}

theorem ShowsSince.mono {n : Nat} {snapshot : ManagedUserKeySnapshot} (h : s.ShowsSince n snapshot)
    (hTables : s.tables <:+ t.tables) : t.ShowsSince n snapshot := by
  obtain ⟨later, table, earlier, hSplit, hLength, hKeys⟩ := h
  obtain ⟨more, hMore⟩ := hTables
  exact ⟨more ++ later, table, earlier, by rw [← hMore, hSplit, append_assoc], hLength, hKeys⟩

/-- Another table becomes current. -/
theorem Sound.grow (h : s.Sound) (hCalls : t.toSnapshotCalls = s.toSnapshotCalls)
    (hTables : s.tables <:+ t.tables) (hLength : t.tables.length = t.users.generation + 1)
    (hHead : t.tables.head? = some t.current) : t.Sound :=
  ⟨hLength, hHead, hCalls ▸ h.calls.imp
    (fun _ _ hBegan => ⟨hBegan.1, hBegan.2.trans_le hTables.length_le⟩)
    fun _ _ hShows => hShows.mono hTables⟩

/-- A snapshot is as recent for the call as for the generation that the call has read. -/
theorem ShowsSince.of_began (since generation : Nat) (snapshot : ManagedUserKeySnapshot)
    (hBegan : s.Began since generation) (h : s.ShowsSince generation snapshot) :
    s.ShowsSince since snapshot :=
  hBegan.1 ▸ h

theorem Sound.load (h : s.Sound) (readError : Option String) :
    (s.loadLocked readError).1.Sound ∧ s.tables <:+ (s.loadLocked readError).1.tables ∧
      ((s.loadLocked readError).2 = true → (s.loadLocked readError).1.loaded = true) := by
  unfold loadLocked
  split
  next hLoaded => exact ⟨h, suffix_rfl, fun _ => hLoaded⟩
  next hUnloaded =>
    have hHead := h.head
    split
    · exact ⟨h, suffix_rfl, by simp⟩
    next hFile =>
      refine ⟨h.grow rfl suffix_rfl h.length ?_, suffix_rfl, fun _ => rfl⟩
      simpa [current, hUnloaded, hFile] using hHead
    next users hFile =>
      split
      · exact ⟨h, suffix_rfl, by simp⟩
      · exact ⟨h.grow rfl (suffix_cons _ _) (by simp [h.length]) (by simp [current]),
          suffix_cons _ _, fun _ => rfl⟩

/-- What is built now shows the table that is current now. -/
theorem Sound.showsSince [Digest] (h : s.Sound) (hLoaded : s.loaded = true)
    (marshal : List ManagedUserKey → String) (authority : String) {n : Nat} (hn : n < s.tables.length) :
    s.ShowsSince n (KeySync.buildManagedKeySnapshot marshal authority s.users.users) := by
  have hHead := h.head
  rw [current, if_pos hLoaded] at hHead
  cases hTables : s.tables with
  | nil => simp [hTables] at hHead
  | cons table earlier =>
    simp only [hTables, head?_cons, Option.some.injEq, length_cons] at hHead hn
    exact ⟨[], table, earlier, hTables, by omega, by rw [hHead]; rfl⟩

end KeyDirectory

section Run

variable [Unicode] [Digest] {marshal : List ManagedUserKey → String} {authority : String}

omit [Unicode] [Digest] in
theorem UserStore.saveLocked_cases (write : FileWrite) (users : List UserRecord) (store : UserStore) :
    (store.saveLocked write users).1 = store ∨
      (store.saveLocked write users).1 = ⟨users, store.generation + 1⟩ := by
  unfold saveLocked
  split
  · exact .inr rfl
  · exact .inl rfl

/-- An operation leaves the table alone, or replaces it and counts that. -/
theorem UserStore.apply_cases (op : AccountOp) (store : UserStore) :
    store.apply op = store ∨ ∃ users, store.apply op = ⟨users, store.generation + 1⟩ := by
  have hSave (write : FileWrite) (users : List UserRecord) : (store.saveLocked write users).1 = store ∨
      ∃ users', (store.saveLocked write users).1 = ⟨users', store.generation + 1⟩ :=
    (saveLocked_cases write users store).imp_right fun h => ⟨users, h⟩
  cases op <;> simp only [apply, bootstrapAdmin, create, delete, initializeFixedKeys, regenerateFixedKey,
    finishAuthenticate, finishChangePassword, savePassword] <;> (repeat' split) <;>
    first
    | exact .inl rfl
    | exact hSave _ _
    | grind

namespace KeyDirectory

variable {s : KeyDirectory}

/-- Whatever happens, the cache and the calls have snapshots that are recent enough. -/
theorem Sound.step (h : s.Sound) (event : DirectoryEvent) : (s.step marshal authority event).Sound := by
  cases event with
  | change readError op =>
    obtain ⟨hLoad, _, hLoaded⟩ := h.load readError
    simp only [KeyDirectory.step]
    split
    next hOk =>
      rcases UserStore.apply_cases op (s.loadLocked readError).1.users with hSame | ⟨users, hSaved⟩
      · rw [hSame, if_pos rfl]
        exact hLoad.grow rfl suffix_rfl hLoad.length hLoad.head
      · rw [hSaved, if_neg (Nat.succ_ne_self _)]
        exact hLoad.grow rfl (suffix_cons _ _) (by simp [hLoad.length])
          (by simp [current, hLoaded hOk])
    next => exact hLoad
  | begin i => exact ⟨h.length, h.head, h.calls.move i (.begun _ _) ⟨by simp [h.length], by simp [h.length]⟩⟩
  | look i => exact ⟨h.length, h.head, h.calls.look i ShowsSince.of_began⟩
  | build i readError =>
    obtain ⟨hLoad, _, hLoaded⟩ := h.load readError
    simp only [KeyDirectory.step]
    split
    next =>
      refine ⟨hLoad.length, hLoad.head, hLoad.calls.build i fun _ _ hBegan snapshot hBuilt => ?_⟩
      split at hBuilt
      next hOk =>
        obtain rfl := Option.some.inj hBuilt
        exact hLoad.showsSince (hLoaded hOk) marshal authority hBegan.2
      next => cases hBuilt
    next => exact h
  | publish i => exact ⟨h.length, h.head, h.calls.publish i ShowsSince.of_began⟩

theorem Sound.run (h : s.Sound) (marshal : List ManagedUserKey → String) (authority : String)
    (events : List DirectoryEvent) :
    (Interleaving.run (KeyDirectory.step marshal authority) s events).Sound := by
  induction events generalizing s with
  | nil => exact h
  | cons event events ih => exact ih (h.step event)

end KeyDirectory

/-- What a call of `managedKeySnapshot` returns has the keys of a table that was current when the call
began or later. -/
theorem snapshot_of_current_table {file : Option (List UserRecord)} {events : List DirectoryEvent}
    {i since : Nat} {snapshot : ManagedUserKeySnapshot}
    (h : (Interleaving.run (KeyDirectory.step marshal authority) (.start file) events).calls i =
      .returned since snapshot) :
    (Interleaving.run (KeyDirectory.step marshal authority) (.start file) events).ShowsSince
      since snapshot := by
  have hStart : (KeyDirectory.start file).Sound := ⟨rfl, rfl, nofun, fun _ => trivial⟩
  have hCall := (hStart.run marshal authority events).calls.calls i
  rwa [h] at hCall

end Run

def aliceJoins : List DirectoryEvent :=
  [.begin 0, .look 0, .change none (.create false "alice" "correct horse" "user" (.ok "hash")
    (some (.ok ⟨"00", "01", 5⟩)) .done 5), .build 0 none, .publish 0]

def aliceSnapshotKeys : List ManagedUserKey := [{ id := "uk_01", owner := "alice", version := 1, hash := "gk_00" }]

open scoped Plain

/-- A user who is created between the two halves of a call is in what it returns. -/
theorem snapshot_of_current_table_alice :
    (Interleaving.run (KeyDirectory.step (fun _ => "") "gw") (.start none) aliceJoins).ShowsSince 0
      ⟨"sha256:", "gw", aliceSnapshotKeys⟩ :=
  @snapshot_of_current_table ascii plain _ _ _ _ 0 _ _ (by decide +kernel)

end GPUardian
