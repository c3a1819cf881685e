import GPUardian.Gateway.Users
import GPUardian.Library.Interleaving
import GPUardian.Store.Persistence

/-! Fixed-key rotations at a gateway, its concurrent synchronizations of one node, and the
delivery of their requests at that node. Any number of senders take a snapshot through the
shared cache; a request that is on its way outlives the sender that gave up on it. -/
namespace GPUardian

open GoStrings GoSlice List Option Function Interleaving UserStore

/-- A snapshot with the generation of the user table it was built from. Nothing in the
gateway or the node reads `stamp`; it only orders snapshots in statements. -/
structure Taken where
  snapshot : ManagedUserKeySnapshot
  stamp : Nat
deriving DecidableEq, Repr

/-- Where a call of `managedKeySnapshot` stands. `since` is the index of the user table that was
current when the call began, which only statements read. -/
inductive SnapshotCall (τ : Type) where
  | idle
  | begun (since generation : Nat)
  | missed (since generation : Nat)
  | built (since generation : Nat) (snapshot : τ)
  | returned (since : Nat) (snapshot : τ)
  | failed
deriving DecidableEq, Repr

/-- The calls of `managedKeySnapshot` and their cache: the last published snapshot under the
generation that its builder had read. -/
structure SnapshotCalls (τ : Type) where
  cache : Option (Nat × τ) := none
  calls : Nat → SnapshotCall τ := fun _ => .idle

namespace SnapshotCalls

variable {τ : Type}

def move (i : Nat) (call : SnapshotCall τ) (s : SnapshotCalls τ) : SnapshotCalls τ :=
  { s with calls := Function.update s.calls i call }

def look (i : Nat) (s : SnapshotCalls τ) : SnapshotCalls τ :=
  match s.calls i, s.cache with
  | .begun since generation, some (cached, snapshot) =>
    s.move i (if cached = generation then .returned since snapshot else .missed since generation)
  | .begun since generation, none => s.move i (.missed since generation)
  | _, _ => s

/-- A call that found nothing builds its own snapshot, if it can read the users. -/
def build (i : Nat) (built : Option τ) (s : SnapshotCalls τ) : SnapshotCalls τ :=
  match s.calls i with
  | .missed since generation => s.move i (built.elim .failed (.built since generation))
  | _ => s

def publish (i : Nat) (s : SnapshotCalls τ) : SnapshotCalls τ :=
  match s.calls i with
  | .built since generation snapshot =>
    { s.move i (.returned since snapshot) with cache := some (generation, snapshot) }
  | _ => s

/-- What holds of a call: `begun` of what it has read, `shows` of the snapshot that it has. -/
def CallSound (begun : Nat → Nat → Prop) (shows : Nat → τ → Prop) : SnapshotCall τ → Prop
  | .begun since generation | .missed since generation => begun since generation
  | .built since generation snapshot => begun since generation ∧ shows generation snapshot
  | .returned since snapshot => shows since snapshot
  | _ => True

structure Sound (begun : Nat → Nat → Prop) (shows : Nat → τ → Prop) (s : SnapshotCalls τ) :
    Prop where
  cache : ∀ generation snapshot, s.cache = some (generation, snapshot) → shows generation snapshot
  calls : ∀ i, CallSound begun shows (s.calls i)

namespace Sound

variable {begun begun' : Nat → Nat → Prop} {shows shows' : Nat → τ → Prop} {s : SnapshotCalls τ}

theorem imp (h : s.Sound begun shows)
    (hBegun : ∀ since generation, begun since generation → begun' since generation)
    (hShows : ∀ n snapshot, shows n snapshot → shows' n snapshot) : s.Sound begun' shows' := by
  refine ⟨fun generation snapshot hCache => hShows _ _ (h.cache generation snapshot hCache),
    fun i => ?_⟩
  have hCall := h.calls i
  cases hAt : s.calls i with
  | begun since generation | missed since generation =>
    rw [hAt] at hCall
    exact hBegun _ _ hCall
  | built since generation snapshot =>
    rw [hAt] at hCall
    exact ⟨hBegun _ _ hCall.1, hShows _ _ hCall.2⟩
  | returned since snapshot =>
    rw [hAt] at hCall
    exact hShows _ _ hCall
  | idle | failed => trivial

theorem move (h : s.Sound begun shows) (i : Nat) (call : SnapshotCall τ)
    (hCall : CallSound begun shows call) : (s.move i call).Sound begun shows := by
  refine ⟨h.cache, fun j => ?_⟩
  by_cases hSame : j = i
  · simp only [hSame, SnapshotCalls.move, Function.update_self]
    exact hCall
  · simp only [SnapshotCalls.move, Function.update_of_ne hSame]
    exact h.calls j

/-- A hit under the generation that a call has read is as good as a snapshot of its own. -/
theorem look (h : s.Sound begun shows) (i : Nat) (hSince : ∀ since generation snapshot,
    begun since generation → shows generation snapshot → shows since snapshot) :
    (s.look i).Sound begun shows := by
  have hCall := h.calls i
  unfold SnapshotCalls.look
  split
  next since generation cached snapshot hBegun hCache =>
    rw [hBegun] at hCall
    refine h.move i _ ?_
    split
    next hSame => exact hSince _ _ _ hCall (hSame ▸ h.cache cached snapshot hCache)
    next => exact hCall
  next since generation hBegun _ =>
    rw [hBegun] at hCall
    exact h.move i _ hCall
  next => exact h

theorem build (h : s.Sound begun shows) (i : Nat) {built : Option τ}
    (hBuilt : ∀ since generation, begun since generation → ∀ snapshot, built = some snapshot →
      shows generation snapshot) : (s.build i built).Sound begun shows := by
  have hCall := h.calls i
  unfold SnapshotCalls.build
  split
  next since generation hMissed =>
    rw [hMissed] at hCall
    refine h.move i _ ?_
    cases built with
    | none => trivial
    | some snapshot => exact ⟨hCall, hBuilt _ _ hCall snapshot rfl⟩
  next => exact h

theorem publish (h : s.Sound begun shows) (i : Nat) (hSince : ∀ since generation snapshot,
    begun since generation → shows generation snapshot → shows since snapshot) :
    (s.publish i).Sound begun shows := by
  have hCall := h.calls i
  unfold SnapshotCalls.publish
  split
  next since generation snapshot hBuilt =>
    rw [hBuilt] at hCall
    refine ⟨fun _ _ hFound => ?_,
      (h.move i (.returned since snapshot) (hSince _ _ _ hCall.1 hCall.2)).calls⟩
    cases hFound
    exact hCall.2
  next => exact h

end Sound

end SnapshotCalls

/-- Any number of senders make calls of `managedKeySnapshot`, each under its own number.
`history` and `applied` record the user table of each generation and the stamp of the
request that last replaced the node's tokens; the code keeps neither. -/
structure KeySync extends SnapshotCalls Taken where
  users : UserStore
  requests : List Taken := []
  node : Store
  history : Nat → List UserRecord
  applied : Option Nat := none

inductive KeySyncEvent where
  | rotate (username : String) (draw : Except String KeyDraw) (write : FileWrite)
  | begin (sender : Nat)
  | look (sender : Nat)
  | build (sender : Nat)
  | publish (sender : Nat)
  | send (sender : Nat) (authorityCapable : Bool)
  | abandon (sender : Nat)
  | deliver (request : Nat) (rootKey : RootKeyCheck) (groupHex : Nat → String)
      (errors : SaveErrors) (now : Time)
  | lose (request : Nat)

namespace KeySync

/-- A gateway that has loaded `users` and has not sent anything yet. -/
def start (users : UserStore) (node : Store) : KeySync :=
  { users := users, node := node, history := fun _ => users.users }

section Steps

variable [Unicode] [Digest] (codec : Codec) (marshal : List ManagedUserKey → String)
  (authority : String)

def buildManagedKeySnapshot (users : List UserRecord) : ManagedUserKeySnapshot :=
  let keys := fixedKeyVerifiers users
  { snapshotID := "sha256:" ++ Digest.sha256Hex (marshal keys), authorityID := authority,
    keys := keys }

def step (s : KeySync) : KeySyncEvent → KeySync
  | .rotate username draw write =>
    let users := (s.users.regenerateFixedKey username draw write).1
    { s with users := users, history := Function.update s.history users.generation users.users }
  | .begin i =>
    match s.calls i with
    | .idle =>
      { s with toSnapshotCalls := s.move i (.begun s.users.generation s.users.generation) }
    | _ => s
  | .look i => { s with toSnapshotCalls := s.look i }
  | .build i =>
    let taken := ⟨buildManagedKeySnapshot marshal authority s.users.users, s.users.generation⟩
    { s with toSnapshotCalls := s.build i (some taken) }
  | .publish i => { s with toSnapshotCalls := s.publish i }
  | .send i authorityCapable =>
    match s.calls i with
    | .returned _ taken =>
      -- A node without the capability gets the snapshot without an authority.
      let snapshot := { taken.snapshot with
        authorityID := if authorityCapable then taken.snapshot.authorityID else "" }
      { s with
        toSnapshotCalls := s.move i .idle
        requests := s.requests ++ [{ taken with snapshot := snapshot }] }
    | _ => s
  | .abandon i => { s with toSnapshotCalls := s.move i .idle }
  | .deliver k rootKey groupHex errors now =>
    match s.requests[k]? with
    | none => s
    | some request =>
      let node := (s.node.call codec errors
        (.syncManagedUserKeys rootKey groupHex request.snapshot now)).1
      { s with
        requests := s.requests.eraseIdx k
        node := node
        applied := if node.state.tokens = s.node.state.tokens then s.applied
          else some request.stamp }
  | .lose k => { s with requests := s.requests.eraseIdx k }

end Steps

end KeySync

/-- The version of the managed key that the node's tokens hold for an owner. -/
def acceptedVersion [Unicode] (tokens : List Token) (owner : String) : Option Int :=
  (tokens.find? fun token => token.managed && token.name == normalizeHolder owner).map (·.version)

/-- The form in which the node compares key hashes. -/
def nodeHash [Unicode] (hash : String) : String := toLower (trimSpace hash)

section Tables

variable [Unicode]

/-- The node's rows for an admitted table hold a version for an owner exactly when one of
the table's keys has that owner and version. -/
theorem acceptedVersion_admitted {now : Time} {keys : List ManagedUserKey} {tokens : List Token}
    (h : admitManagedKeys now [] keys = .ok tokens) (owner : String) (version : Int) :
    acceptedVersion tokens owner = some version ↔
      ∃ key ∈ keys, normalizeHolder key.owner = normalizeHolder owner ∧ key.version = version := by
  obtain ⟨rfl, hRows⟩ := admitManagedKeys_ok h
  unfold acceptedVersion
  constructor
  · intro hFound
    obtain ⟨token, hFind, hVersion⟩ := map_eq_some_iff.mp hFound
    obtain ⟨key, hKey, rfl⟩ := List.mem_map.mp (mem_of_find?_eq_some hFind)
    have hName := find?_some hFind
    rw [Bool.and_eq_true, beq_iff_eq, managedToken_name] at hName
    exact ⟨key, hKey, hName.2, hVersion⟩
  · rintro ⟨key, hKey, hOwner, hVersion⟩
    have hMem := List.mem_map_of_mem (f := managedToken now) hKey
    -- The owners are distinct, so the search ends at the key of this one.
    have hFind : (keys.map (managedToken now)).find?
        (fun token => token.managed && token.name == normalizeHolder owner) =
          some (managedToken now key) := by
      refine find?_of_nodup hRows.names hMem ?_ fun token _ hToken => ?_
      · rw [managedToken_name, hOwner, beq_self_eq_true]
        rfl
      · rw [Bool.and_eq_true, beq_iff_eq] at hToken
        rw [hToken.2, managedToken_name, hOwner]
    rw [hFind, map_some, ← hVersion]
    rfl

omit [Unicode] in
/-- A row with a key keeps one when its table advances. -/
theorem verifier_advances {fresh : UserRecord → Prop} {before after : UserRecord}
    (h : RowAdvances fresh before after) (hEnabled : before.disabled = false)
    (hKeyed : before.keyID ≠ "") : after.disabled = false ∧ after.keyID ≠ "" := by
  refine ⟨h.disabled.trans hEnabled, ?_⟩
  rcases h.key with rfl | ⟨_, hID, _⟩
  · exact hKeyed
  · exact hID

/-- An admitted later table gives no owner an older key than an admitted earlier one. -/
theorem acceptedVersion_advances {fresh : UserRecord → Prop} {before after : List UserRecord}
    (h : List.Forall₂ (RowAdvances fresh) before after) {now now' : Time} {old new : List Token}
    (hOld : admitManagedKeys now [] (fixedKeyVerifiers before) = .ok old)
    (hNew : admitManagedKeys now' [] (fixedKeyVerifiers after) = .ok new)
    {owner : String} {version : Int} (hVersion : acceptedVersion old owner = some version) :
    ∃ later, version ≤ later ∧ acceptedVersion new owner = some later := by
  obtain ⟨key, hKey, hOwner, rfl⟩ := (acceptedVersion_admitted hOld owner version).mp hVersion
  obtain ⟨user, hUser, hEnabled, hKeyed, rfl⟩ := mem_fixedKeyVerifiers.mp hKey
  obtain ⟨user', hUser', hAdvances⟩ := forall₂_partner h hUser
  have hVerifier := verifier_advances hAdvances hEnabled hKeyed
  refine ⟨user'.keyVersion, hAdvances.keyVersion_le, ?_⟩
  refine (acceptedVersion_admitted hNew owner _).mpr ⟨verifierOf user', ?_, ?_, rfl⟩
  · exact mem_fixedKeyVerifiers.mpr ⟨user', hUser', hVerifier.1, hVerifier.2, rfl⟩
  · rw [← hOwner, verifierOf, verifierOf, hAdvances.username]

end Tables

namespace KeySync

/-- The snapshot has the keys of the table of its generation. -/
def Authentic (s : KeySync) (taken : Taken) : Prop :=
  taken.stamp ≤ s.users.generation ∧
    taken.snapshot.keys = fixedKeyVerifiers (s.history taken.stamp)

section Runs

variable [Unicode] [Digest] (codec : Codec) (marshal : List ManagedUserKey → String)
  (authority : String)

/-- No table up to the generation holds the hash of the row's key. -/
def Unused (history : Nat → List UserRecord) (generation : Nat) (user : UserRecord) : Prop :=
  ∀ i ≤ generation, ∀ old ∈ history i, nodeHash old.keyHash ≠ nodeHash user.keyHash

/-- A rotation draws a secret whose hash no table has held. -/
def FreshDraw (s : KeySync) : KeySyncEvent → Prop
  | .rotate _ (.ok draw) _ =>
    ∀ i ≤ s.users.generation, ∀ old ∈ s.history i,
      nodeHash old.keyHash ≠ nodeHash (hashToken draw.secret)
  | _ => True

/-- A request is not delivered after one with a later table, and no rotation exhausts the
versions. -/
def InOrder (s : KeySync) : KeySyncEvent → Prop
  | .rotate username _ _ =>
    ∀ name ∈ (normalizeUsername username).toOption,
      ∀ user ∈ s.users.users.find? (names name), user.keyVersion < maxInt64
  | .deliver k _ _ _ _ =>
    ∀ request ∈ s.requests[k]?, ∀ applied ∈ s.applied, applied ≤ request.stamp
  | _ => True

instance (s : KeySync) : DecidablePred s.FreshDraw
  | .rotate _ (.ok _) _ => by unfold FreshDraw; infer_instance
  | .rotate _ (.error _) _ | .begin _ | .look _ | .build _ | .publish _ | .send _ _ | .abandon _
  | .deliver _ _ _ _ _ | .lose _ => isTrue trivial

instance (s : KeySync) : DecidablePred s.InOrder
  | .rotate _ _ _ => by unfold InOrder; infer_instance
  | .deliver _ _ _ _ _ => by unfold InOrder; infer_instance
  | .begin _ | .look _ | .build _ | .publish _ | .send _ _ | .abandon _ | .lose _ => isTrue trivial

/-- What rotations and deliveries in order keep. With `fresh`, a rotated key also has a hash
that no earlier table held. -/
structure Sound (fresh : Prop) (s : KeySync) : Prop where
  synced : s.node.Synced codec
  current : s.history s.users.generation = s.users.users
  advances : ∀ i j, i ≤ j → j ≤ s.users.generation →
    List.Forall₂ (RowAdvances fun user => fresh → Unused s.history i user)
      (s.history i) (s.history j)
  calls : s.toSnapshotCalls.Sound (fun _ _ => True) fun _ => s.Authentic
  requests : ∀ taken ∈ s.requests, s.Authentic taken
  unmanaged : s.applied = none → ∀ token ∈ s.node.state.tokens, token.managed = false
  applied : ∀ stamp, s.applied = some stamp → stamp ≤ s.users.generation ∧
    ∃ now, admitManagedKeys now [] (fixedKeyVerifiers (s.history stamp)) =
      .ok s.node.state.tokens

/-- A delivery leaves the node's tokens alone or replaces them by the request's keys. -/
theorem delivered_tokens (errors : SaveErrors) (rootKey : RootKeyCheck) (groupHex : Nat → String)
    (snapshot : ManagedUserKeySnapshot) (now : Time) {node : Store} (h : node.Synced codec) :
    (node.call codec errors (.syncManagedUserKeys rootKey groupHex snapshot now)).1.state.tokens =
        node.state.tokens ∨
      admitManagedKeys now [] snapshot.keys = .ok (node.call codec errors
        (.syncManagedUserKeys rootKey groupHex snapshot now)).1.state.tokens := by
  rcases Store.call_cases codec errors (.syncManagedUserKeys rootKey groupHex snapshot now) h with
    ⟨_, hSame⟩ | ⟨_, _, next, hNext, hCall⟩
  · exact .inl (by rw [hSame])
  rw [hCall]
  dsimp only
  rw [hNext]
  simp only [Op.effect, Effect.map]
  rcases syncManagedUserKeys_cases rootKey groupHex snapshot now node.state with
    hQuiet | ⟨recorded, result, hEffect⟩ | ⟨managed, recorded, result, hAdmitted, hEffect⟩
  · exact .inl (by rw [hQuiet.2, Edits.apply_none])
  · exact .inl (by rw [hEffect]; rfl)
  · exact .inr (by rw [hEffect, hAdmitted]; rfl)

/-- A committed rotation adds a table in which one row has advanced. -/
theorem rotate_advances {fresh : Prop} {s : KeySync} (h : Sound codec fresh s)
    {username name : String} {draw : KeyDraw} {write : FileWrite}
    (hName : normalizeUsername username = .ok name)
    (hOrder : InOrder s (.rotate username (.ok draw) write))
    (hFresh : fresh → FreshDraw s (.rotate username (.ok draw) write)) {i : Nat}
    (hi : i ≤ s.users.generation) :
    List.Forall₂ (RowAdvances fun row => fresh → Unused s.history i row) (s.history i)
      (modifyFirst (names name) (rotateKey draw) s.users.users) := by
  have hRow : ∀ row, s.users.users.find? (names name) = some row →
      RowAdvances (fun row => fresh → Unused s.history s.users.generation row) row
        (rotateKey draw row) := by
    intro row hRow
    have hMem : name ∈ (normalizeUsername username).toOption := by rw [hName]; rfl
    refine ⟨rfl, rfl, .inr ⟨lt_nextKeyVersion (hOrder name hMem row hRow), ?_, hFresh⟩⟩
    simp [rotateKey, assignKey]
  have hEarlier := h.advances i s.users.generation hi le_rfl
  rw [h.current] at hEarlier
  refine forall₂_compose ?_ hEarlier (forall₂_modifyFirst (.refl _) hRow)
  intro a b c hFirst hSecond
  exact hFirst.trans hSecond fun hNew hf j hj => hNew hf j (hj.trans hi)

omit [Digest] in
/-- The new table stands under a generation that nothing refers to yet. -/
theorem Sound.grows {fresh : Prop} {s : KeySync} {rows : List UserRecord} (h : Sound codec fresh s)
    (hTable : ∀ {i}, i ≤ s.users.generation →
      List.Forall₂ (RowAdvances fun row => fresh → Unused s.history i row) (s.history i) rows) :
    Sound codec fresh { s with
      users := ⟨rows, s.users.generation + 1⟩
      history := Function.update s.history (s.users.generation + 1) rows } := by
  have hOld : ∀ i ≤ s.users.generation,
      Function.update s.history (s.users.generation + 1) rows i = s.history i :=
    fun i hi => update_of_ne (by omega) _ _
  have hAuthentic : ∀ taken, s.Authentic taken → taken.stamp ≤ s.users.generation + 1 ∧
      taken.snapshot.keys = fixedKeyVerifiers
        (Function.update s.history (s.users.generation + 1) rows taken.stamp) :=
    fun taken hTaken => ⟨Nat.le_succ_of_le hTaken.1, by rw [hOld _ hTaken.1]; exact hTaken.2⟩
  refine ⟨h.synced, update_self _ _ _, ?_, h.calls.imp (fun _ _ => id) fun _ => hAuthentic,
    fun taken hTaken => hAuthentic taken (h.requests taken hTaken), h.unmanaged, ?_⟩
  · intro i j hij hj
    dsimp only at hj ⊢
    by_cases hi : i ≤ s.users.generation
    · have hImp : ∀ a b, RowAdvances (fun row => fresh → Unused s.history i row) a b →
          RowAdvances (fun row => fresh →
            Unused (Function.update s.history (s.users.generation + 1) rows) i row) a b := by
        refine fun a b hRow => hRow.imp fun hNew hf j hj => ?_
        rw [hOld j (hj.trans hi)]
        exact hNew hf j hj
      rw [hOld i hi]
      by_cases hLast : j ≤ s.users.generation
      · rw [hOld j hLast]
        exact (h.advances i j hij hLast).imp hImp
      · obtain rfl : j = s.users.generation + 1 := by omega
        rw [update_self]
        exact (hTable hi).imp hImp
    · obtain rfl : i = s.users.generation + 1 := by omega
      obtain rfl : j = s.users.generation + 1 := by omega
      exact forall₂_same.mpr fun row _ => .refl _ row
  · intro stamp hStamp
    obtain ⟨hLe, now, hTokens⟩ := h.applied stamp hStamp
    exact ⟨Nat.le_succ_of_le hLe, now, by dsimp only; rw [hOld _ hLe]; exact hTokens⟩

/-- An event moves authentic snapshots around, adds a table or delivers a request. -/
theorem step_cases {fresh : Prop} {s : KeySync} (h : Sound codec fresh s) (event : KeySyncEvent) :
    (∃ calls requests, calls.Sound (fun _ _ => True) (fun _ => s.Authentic) ∧
      (∀ taken ∈ requests, s.Authentic taken) ∧
      step codec marshal authority s event = { s with toSnapshotCalls := calls, requests }) ∨
    (∃ username draw write name rows, event = .rotate username (.ok draw) write ∧
      normalizeUsername username = .ok name ∧
      modifyFirst (names name) (rotateKey draw) s.users.users = rows ∧
      step codec marshal authority s event = { s with
        users := ⟨rows, s.users.generation + 1⟩
        history := Function.update s.history (s.users.generation + 1) rows }) ∨
    ∃ k rootKey groupHex errors now request node, event = .deliver k rootKey groupHex errors now ∧
      s.requests[k]? = some request ∧
      (s.node.call codec errors
        (.syncManagedUserKeys rootKey groupHex request.snapshot now)).1 = node ∧
      step codec marshal authority s event = { s with
        requests := s.requests.eraseIdx k, node
        applied := if node.state.tokens = s.node.state.tokens then s.applied
          else some request.stamp } := by
  cases event with
  | rotate username draw write =>
    simp only [step]
    rcases s.users.regenerateFixedKey_cases username draw write with
      hSame | ⟨name, user, drawn, hName, rfl, _, hSaved⟩
    · exact .inl ⟨_, _, h.calls, h.requests, by rw [hSame, ← h.current, update_eq_self]⟩
    · exact .inr (.inl ⟨username, drawn, write, name, _, rfl, hName, rfl, by rw [hSaved]⟩)
  | begin i =>
    simp only [step]
    split
    · exact .inl ⟨_, _, h.calls.move i (.begun _ _) trivial, h.requests, rfl⟩
    · exact .inl ⟨_, _, h.calls, h.requests, rfl⟩
  | look i => exact .inl ⟨_, _, h.calls.look i fun _ _ _ _ hShows => hShows, h.requests, rfl⟩
  | build i =>
    refine .inl ⟨_, _, h.calls.build i fun _ _ _ taken hTaken => ?_, h.requests, rfl⟩
    obtain rfl := some.inj hTaken
    exact ⟨le_rfl, by rw [h.current]; rfl⟩
  | publish i => exact .inl ⟨_, _, h.calls.publish i fun _ _ _ _ hShows => hShows, h.requests, rfl⟩
  | send i authorityCapable =>
    have hCall := h.calls.calls i
    simp only [step]
    split
    · rename_i since taken hReturned
      rw [hReturned] at hCall
      refine .inl ⟨_, _, h.calls.move i .idle trivial, fun request hRequest => ?_, rfl⟩
      rcases mem_concat.mp hRequest with hOld | rfl
      · exact h.requests request hOld
      · exact ⟨hCall.1, hCall.2⟩
    · exact .inl ⟨_, _, h.calls, h.requests, rfl⟩
  | abandon i => exact .inl ⟨_, _, h.calls.move i .idle trivial, h.requests, rfl⟩
  | deliver k rootKey groupHex errors now =>
    cases hRequest : s.requests[k]? with
    | none => exact .inl ⟨_, _, h.calls, h.requests, by simp only [step, hRequest]⟩
    | some request =>
      exact .inr (.inr ⟨k, rootKey, groupHex, errors, now, request, _, rfl, hRequest, rfl, by
        simp only [step, hRequest]⟩)
  | lose k =>
    exact .inl ⟨_, _, h.calls, fun taken hTaken => h.requests taken (eraseIdx_subset hTaken), rfl⟩

/-- Every step in order keeps the invariant. -/
theorem step_sound {fresh : Prop} (s : KeySync) (event : KeySyncEvent)
    (hOk : InOrder s event ∧ (fresh → FreshDraw s event)) (h : Sound codec fresh s) :
    Sound codec fresh (step codec marshal authority s event) := by
  rcases step_cases codec marshal authority h event with ⟨calls, requests, hCalls, hRequests, hStep⟩ |
    ⟨username, draw, write, name, rows, rfl, hName, rfl, hStep⟩ |
    ⟨k, rootKey, groupHex, errors, now, request, node, rfl, hRequest, rfl, hStep⟩
  · rw [hStep]
    exact { h with calls := hCalls, requests := hRequests }
  · rw [hStep]
    exact h.grows codec fun hi => rotate_advances codec h hName hOk.1 hOk.2 hi
  · have hTaken := h.requests request (mem_of_getElem? hRequest)
    have hSynced := Store.call_synced codec errors
      (.syncManagedUserKeys rootKey groupHex request.snapshot now) h.synced
    have hTokens := delivered_tokens codec errors rootKey groupHex request.snapshot now h.synced
    rw [hStep]
    refine ⟨hSynced, h.current, h.advances, h.calls,
      fun taken hTaken => h.requests taken (eraseIdx_subset hTaken), ?_, ?_⟩
    all_goals dsimp only
    all_goals split
    · rename_i hKept
      rw [hKept]
      exact h.unmanaged
    · exact nofun
    · rename_i hKept
      rw [hKept]
      exact h.applied
    · rename_i hChanged
      intro stamp hStamp
      obtain rfl := some.inj hStamp
      refine ⟨hTaken.1, now, ?_⟩
      rw [← hTaken.2]
      exact hTokens.resolve_left hChanged

omit [Digest] in
theorem start_sound (fresh : Prop) (users : UserStore) {node : Store} (hSynced : node.Synced codec)
    (hUnmanaged : ∀ token ∈ node.state.tokens, token.managed = false) :
    Sound codec fresh (start users node) where
  synced := hSynced
  current := rfl
  advances := fun _ _ _ _ => forall₂_same.mpr fun row _ => .refl _ row
  calls := ⟨nofun, fun _ => trivial⟩
  requests := nofun
  unmanaged := fun _ => hUnmanaged
  applied := nofun

/-- Events in order give no owner an older key. -/
theorem step_acceptedVersion {fresh : Prop} {s : KeySync} (h : Sound codec fresh s)
    (event : KeySyncEvent) (hOrder : InOrder s event) {owner : String} {version : Int}
    (hVersion : acceptedVersion s.node.state.tokens owner = some version) :
    ∃ later, version ≤ later ∧ acceptedVersion
      (step codec marshal authority s event).node.state.tokens owner = some later := by
  rcases step_cases codec marshal authority h event with ⟨_, _, _, _, hStep⟩ |
    ⟨_, _, _, _, _, _, _, _, hStep⟩ |
    ⟨k, rootKey, groupHex, errors, now, request, node, rfl, hRequest, rfl, hStep⟩
  · rw [hStep]
    exact ⟨version, le_rfl, hVersion⟩
  · rw [hStep]
    exact ⟨version, le_rfl, hVersion⟩
  · rw [hStep]
    dsimp only
    rcases delivered_tokens codec errors rootKey groupHex request.snapshot now h.synced with
      hKept | hAdmitted
    · rw [hKept]
      exact ⟨version, le_rfl, hVersion⟩
    have hTaken := h.requests request (mem_of_getElem? hRequest)
    cases hApplied : s.applied with
    | none =>
      -- Nothing has been applied yet, so the node holds no managed key.
      obtain ⟨token, hFind, _⟩ := map_eq_some_iff.mp hVersion
      have hManaged := (Bool.and_eq_true _ _ ▸ find?_some hFind).1
      rw [h.unmanaged hApplied token (mem_of_find?_eq_some hFind)] at hManaged
      cases hManaged
    | some stamp =>
      obtain ⟨_, before, hBefore⟩ := h.applied stamp hApplied
      have hTables := h.advances stamp request.stamp (hOrder request hRequest stamp hApplied)
        hTaken.1
      rw [hTaken.2] at hAdmitted
      exact acceptedVersion_advances hTables hBefore hAdmitted hVersion

/-- The hash was a key's in some table, and the node has applied a table without it since. -/
def RotatedOut (hash : String) (s : KeySync) : Prop :=
  ∃ stamp, s.applied = some stamp ∧
    (∃ n ≤ stamp, ∃ key ∈ fixedKeyVerifiers (s.history n), nodeHash key.hash = hash) ∧
    ∀ key ∈ fixedKeyVerifiers (s.history stamp), nodeHash key.hash ≠ hash

omit [Digest] in
theorem RotatedOut.not_accepted {fresh : Prop} {s : KeySync} (h : Sound codec fresh s)
    {hash : String} (hOut : RotatedOut hash s) :
    ∀ token ∈ s.node.state.tokens, token.hash ≠ hash := by
  obtain ⟨stamp, hApplied, _, hAbsent⟩ := hOut
  obtain ⟨_, now, hAdmitted⟩ := h.applied stamp hApplied
  intro token hToken
  obtain ⟨key, hKey, rfl⟩ := admitManagedKeys_mem hAdmitted hToken
  exact hAbsent key hKey

omit [Digest] in
/-- A hash that an applied table has dropped is in no later table, since rotations draw
hashes that were never used. -/
theorem RotatedOut.absent_later {s : KeySync} (h : Sound codec True s) {hash : String}
    {stamp later : Nat} (hLe : stamp ≤ later) (hLater : later ≤ s.users.generation)
    (hUsed : ∃ n ≤ stamp, ∃ key ∈ fixedKeyVerifiers (s.history n),
      nodeHash key.hash = hash)
    (hAbsent : ∀ key ∈ fixedKeyVerifiers (s.history stamp), nodeHash key.hash ≠ hash) :
    ∀ key ∈ fixedKeyVerifiers (s.history later), nodeHash key.hash ≠ hash := by
  intro key hKey
  obtain ⟨user, hUser, hEnabled, hKeyed, rfl⟩ := mem_fixedKeyVerifiers.mp hKey
  obtain ⟨old, hOld, hAdvances⟩ := forall₂_partner (h.advances stamp later hLe hLater).flip hUser
  rcases hAdvances.key with rfl | ⟨_, _, hUnused⟩
  · exact hAbsent _ (mem_fixedKeyVerifiers.mpr ⟨_, hOld, hEnabled, hKeyed, rfl⟩)
  · obtain ⟨n, hn, used, hIn, rfl⟩ := hUsed
    obtain ⟨holder, hHolder, _, _, rfl⟩ := mem_fixedKeyVerifiers.mp hIn
    exact (hUnused trivial n hn holder hHolder).symm

/-- The tables of past generations stay what they are. -/
theorem step_history {fresh : Prop} {s : KeySync} (h : Sound codec fresh s) (event : KeySyncEvent)
    {i : Nat} (hi : i ≤ s.users.generation) :
    (step codec marshal authority s event).history i = s.history i := by
  rcases step_cases codec marshal authority h event with ⟨_, _, _, _, hStep⟩ |
    ⟨_, _, _, _, _, _, _, _, hStep⟩ | ⟨_, _, _, _, _, _, _, _, _, _, hStep⟩
  · rw [hStep]
  · rw [hStep]
    exact update_of_ne (by omega) _ _
  · rw [hStep]

/-- A hash that was rotated out does not come back. -/
theorem step_rotatedOut {hash : String} (s : KeySync) (event : KeySyncEvent)
    (hOrder : InOrder s event) (h : Sound codec True s)
    (hNext : Sound codec True (step codec marshal authority s event)) (hOut : RotatedOut hash s) :
    RotatedOut hash (step codec marshal authority s event) := by
  obtain ⟨stamp, hApplied, ⟨n, hn, key, hKey, hHash⟩, hAbsent⟩ := hOut
  have hStamp := (h.applied stamp hApplied).1
  have hHistory := fun {i : Nat} => @step_history _ _ codec marshal authority True s h event i
  have hUsed : ∃ m ≤ stamp, ∃ key ∈ fixedKeyVerifiers
      ((step codec marshal authority s event).history m), nodeHash key.hash = hash :=
    ⟨n, hn, key, by rwa [hHistory (hn.trans hStamp)], hHash⟩
  rw [← hHistory hStamp] at hAbsent
  -- The applied table is the same one, or one that is not older.
  obtain ⟨later, hLater, hLe⟩ : ∃ later,
      (step codec marshal authority s event).applied = some later ∧ stamp ≤ later := by
    rcases step_cases codec marshal authority h event with ⟨_, _, _, _, hStep⟩ |
      ⟨_, _, _, _, _, _, _, _, hStep⟩ | ⟨_, _, _, _, _, request, _, rfl, hRequest, _, hStep⟩
    · exact ⟨stamp, hStep ▸ hApplied, le_rfl⟩
    · exact ⟨stamp, hStep ▸ hApplied, le_rfl⟩
    · rw [hStep]
      dsimp only
      split
      · exact ⟨stamp, hApplied, le_rfl⟩
      · exact ⟨request.stamp, rfl, hOrder request hRequest stamp hApplied⟩
  obtain ⟨m, hm, hRest⟩ := hUsed
  refine ⟨later, hLater, ⟨m, hm.trans hLe, hRest⟩, ?_⟩
  exact RotatedOut.absent_later codec hNext hLe (hNext.applied later hLater).1 ⟨m, hm, hRest⟩ hAbsent

/-- In a run that delivers requests in the order of their tables, the version accepted for
an owner never decreases, and a hash that an applied snapshot has rotated out is never among
the node's tokens again. -/
theorem acceptedVersion_never_decreases (users : UserStore) {node : Store}
    (hSynced : node.Synced codec)
    (hUnmanaged : ∀ token ∈ node.state.tokens, token.managed = false)
    (first second : List KeySyncEvent)
    (hOrdered : Along (step codec marshal authority) InOrder (start users node)
      (first ++ second)) :
    let before := run (step codec marshal authority) (start users node) first
    let after := run (step codec marshal authority) (start users node)
      (first ++ second)
    (∀ owner version, acceptedVersion before.node.state.tokens owner = some version →
      ∃ later, version ≤ later ∧ acceptedVersion after.node.state.tokens owner = some later) ∧
    (Along (step codec marshal authority) FreshDraw (start users node)
        (first ++ second) →
      ∀ hash, RotatedOut hash before → ∀ token ∈ after.node.state.tokens, token.hash ≠ hash) := by
  intro before after
  obtain ⟨hFirst, hSecond⟩ := along_append.mp hOrdered
  have hAfter : after = run (step codec marshal authority) before second :=
    Interleaving.run_append _ _ _ _
  constructor
  · intro owner version hVersion
    rw [hAfter]
    have hBefore : Sound codec False before :=
      (hFirst.imp fun s event hOk => ⟨hOk, False.elim⟩).invariant
        (Sound codec _) (step_sound codec marshal authority) (start_sound codec False users hSynced hUnmanaged)
    refine (hSecond.imp fun s event hOk => (⟨hOk, False.elim⟩ : _ ∧ (False → FreshDraw s event))).relates
      (fun s t => ∀ version, acceptedVersion s.node.state.tokens owner = some version →
        ∃ later, version ≤ later ∧ acceptedVersion t.node.state.tokens owner = some later)
      (fun s version hs => ⟨version, le_rfl, hs⟩) ?_ (step_sound codec marshal authority) ?_ hBefore
      version hVersion
    · intro a b c hab hbc version ha
      obtain ⟨middle, hMiddle, hb⟩ := hab version ha
      obtain ⟨later, hLater, hc⟩ := hbc middle hb
      exact ⟨later, hMiddle.trans hLater, hc⟩
    · intro s event hOk hSound version hs
      exact step_acceptedVersion codec marshal authority hSound event hOk.1 hs
  · intro hFresh hash hOut
    obtain ⟨hFreshFirst, hFreshSecond⟩ := along_append.mp hFresh
    rw [hAfter]
    have hBefore : Sound codec True before :=
      ((hFirst.and hFreshFirst).imp fun s event hOk => ⟨hOk.1, fun _ => hOk.2⟩).invariant
        (Sound codec _) (step_sound codec marshal authority) (start_sound codec True users hSynced hUnmanaged)
    have hLast := (hSecond.and hFreshSecond).invariant
      (fun s => Sound codec True s ∧ RotatedOut hash s)
      (fun s event hOk hInv =>
        have hNext := step_sound codec marshal authority s event ⟨hOk.1, fun _ => hOk.2⟩ hInv.1
        ⟨hNext, step_rotatedOut codec marshal authority s event hOk.1 hInv.1 hNext hInv.2⟩)
      ⟨hBefore, hOut⟩
    exact hLast.2.not_accepted codec hLast.1

end Runs

end KeySync

section Samples

open scoped Plain

/-- Sixty-four times the last character, which keeps the sample hashes apart. -/
@[reducible]
def lastCharDigest : Digest :=
  ⟨fun text => String.ofList (List.replicate 64 (text.toList.getLastD '0'))⟩

attribute [local instance] lastCharDigest

def joinIDs (keys : List ManagedUserKey) : String := String.join (keys.map (·.id))

def keyIDOf (c : Char) : String := "uk_" ++ String.ofList (List.replicate 16 c)

def keyHashOf (c : Char) : String := String.ofList (List.replicate 64 c)

def aliceUsers : UserStore :=
  { users := [{ username := "alice", keyID := keyIDOf '1', keyVersion := 1,
                keyHash := keyHashOf 'a' }] }

/-- The node once it has one of Alice's keys. -/
def aliceState (id hash : Char) (version : Int) : State :=
  { managedKeys := true
    managedKeyAuthority := "mka_1"
    keySnapshotID := "sha256:" ++ keyHashOf id
    tokens := [{ id := keyIDOf id, hash := keyHashOf hash, name := "alice",
                 mode := tokenModeManaged, version := version, managed := true, createdAt := 10 }] }

def aliceCodec : Codec := tableCodec [aliceState '1' 'a' 1, aliceState '2' 'b' 2]

def takeAndSend (i : Nat) : List KeySyncEvent :=
  [.begin i, .look i, .build i, .publish i, .send i true]

def rotateAlice : KeySyncEvent :=
  .rotate "alice" (.ok { secretHex := String.ofList (List.replicate 48 'b'),
                         idHex := String.ofList (List.replicate 16 '2') }) .done

def deliverAlice (request : Nat) : KeySyncEvent :=
  .deliver request (.ok true) (fun _ => "f0") {} 10

/-- One sender takes Alice's first key, Alice rotates it, and another takes the second. -/
def bothTaken : List KeySyncEvent := takeAndSend 0 ++ rotateAlice :: takeAndSend 1

def aliceStep [Unicode] [Digest] : KeySync → KeySyncEvent → KeySync :=
  KeySync.step aliceCodec joinIDs "mka_1"

def aliceStart : KeySync := .start aliceUsers ⟨{}, {}, none⟩

/-- Delivered in the order in which they were taken, the two requests move the node from the
first version to the second, and the first hash is gone. -/
theorem acceptedVersion_never_decreases_alice :
    let early := bothTaken ++ [deliverAlice 0]
    let late := early ++ [deliverAlice 0]
    Along aliceStep KeySync.InOrder aliceStart late ∧
      Along aliceStep KeySync.FreshDraw aliceStart late ∧
      acceptedVersion (run aliceStep aliceStart early).node.state.tokens "alice" =
        some 1 ∧
      (∃ later, 1 ≤ later ∧ acceptedVersion
        (run aliceStep aliceStart late).node.state.tokens "alice" = some later) ∧
      ∀ token ∈ (run aliceStep aliceStart (late ++ [])).node.state.tokens,
        token.hash ≠ keyHashOf 'a' := by
  intro early late
  have hOrdered : Along aliceStep KeySync.InOrder aliceStart late := by decide +kernel
  have hFresh : Along aliceStep KeySync.FreshDraw aliceStart late := by decide +kernel
  have hFirst : acceptedVersion (run aliceStep aliceStart early).node.state.tokens
      "alice" = some 1 := by decide +kernel
  have hOut : KeySync.RotatedOut (keyHashOf 'a') (run aliceStep aliceStart late) :=
    ⟨1, by decide +kernel, ⟨0, by decide +kernel, by decide +kernel⟩, by decide +kernel⟩
  have hVersions := (@KeySync.acceptedVersion_never_decreases ascii lastCharDigest aliceCodec
    joinIDs "mka_1" aliceUsers ⟨{}, {}, none⟩ (Store.synced_empty aliceCodec)
    (fun _ hMem => absurd hMem not_mem_nil) early [deliverAlice 0] hOrdered).1 "alice" 1
    hFirst
  have hHashes := (@KeySync.acceptedVersion_never_decreases ascii lastCharDigest aliceCodec
    joinIDs "mka_1" aliceUsers ⟨{}, {}, none⟩ (Store.synced_empty aliceCodec)
    (fun _ hMem => absurd hMem not_mem_nil) late [] (by rwa [append_nil])).2
    (by rwa [append_nil]) (keyHashOf 'a') hOut
  exact ⟨hOrdered, hFresh, hFirst, hVersions, hHashes⟩

/-- Delivered the other way round, the older snapshot brings the first version and the
rotated-out hash back to a node that had accepted the second. -/
theorem acceptedVersion_decreases_overtaken :
    let before := run aliceStep aliceStart (bothTaken ++ [deliverAlice 1])
    let after := run aliceStep aliceStart
      (bothTaken ++ [deliverAlice 1] ++ [deliverAlice 0])
    acceptedVersion before.node.state.tokens "alice" = some 2 ∧
      (∀ token ∈ before.node.state.tokens, token.hash ≠ keyHashOf 'a') ∧
      acceptedVersion after.node.state.tokens "alice" = some 1 ∧
      ∃ token ∈ after.node.state.tokens, token.hash = keyHashOf 'a' ∧ tokenActiveAt token 20 := by
  decide +kernel

end Samples

end GPUardian
