import GPUardian.Enforce.Eviction
import GPUardian.Store.KeyTable

/-! Everything that a key snapshot changes on a node. Reservations move to the new key of their
owner; authorizations stay with the key they were given under, and end with it. -/
namespace GPUardian

open GoStrings GoSlice List Option

section Frame

variable [Unicode]

/-- What becomes of one reservation. `groupHex` is the random part of a new group. -/
structure RowRebound (snapshot : ManagedUserKeySnapshot) (tokens : List Token) (groupHex : String)
    (row new : Reservation) : Prop where
  same : new = { row with groupID := new.groupID, tokenHash := new.tokenHash }
  grouped : row.groupID ≠ "" → new.groupID = row.groupID
  filled : row.groupID = "" → ∀ token, tokenByHash tokens row.tokenHash = some token →
    token.id ≠ "" → new.groupID = token.id
  drawn : row.groupID = "" → (∀ token, tokenByHash tokens row.tokenHash = some token →
    token.id = "") → new.groupID = "grp_" ++ groupHex
  rebound : ∀ key ∈ snapshot.keys, normalizeHolder key.owner = normalizeHolder row.holder →
    new.tokenHash = toLower (trimSpace key.hash)
  kept : (∀ key ∈ snapshot.keys, normalizeHolder key.owner ≠ normalizeHolder row.holder) →
    new.tokenHash = row.tokenHash

/-- All that a snapshot changes. -/
structure SnapshotFrame (snapshot : ManagedUserKeySnapshot) (groupHex : Nat → String)
    (before after : State) : Prop where
  rest : after = { before with
    managedKeys := after.managedKeys
    keySnapshotID := after.keySnapshotID
    managedKeyAuthority := after.managedKeyAuthority
    tokens := after.tokens
    reservations := after.reservations }
  managedKeys : after.managedKeys = true
  keySnapshotID : after.keySnapshotID = trimSpace snapshot.snapshotID
  authority : before.managedKeyAuthority ≠ "" →
    after.managedKeyAuthority = before.managedKeyAuthority
  authoritySet : before.managedKeyAuthority = "" →
    after.managedKeyAuthority = trimSpace snapshot.authorityID
  tokens : Installed snapshot.keys after.tokens
  length : after.reservations.length = before.reservations.length
  rows : ∀ i row, before.reservations[i]? = some row → ∃ new, after.reservations[i]? = some new ∧
    RowRebound snapshot before.tokens (groupHex i) row new

variable {snapshot : ManagedUserKeySnapshot} {state : State} {managed : List Token} {now : Time}

/-- The key of an owner is found among the admitted ones. -/
theorem find?_admitted (hAdmitted : admitManagedKeys now [] snapshot.keys = .ok managed)
    {key : ManagedUserKey} (hKey : key ∈ snapshot.keys) :
    managed.find? (·.name == normalizeHolder key.owner) = some (managedToken now key) := by
  obtain ⟨hTokens, hRows⟩ := admitManagedKeys_ok hAdmitted
  refine find?_of_nodup hRows.names ?_ ?_ fun token _ hToken => ?_
  · rw [hTokens]
    exact List.mem_map_of_mem hKey
  · rw [managedToken_name, beq_self_eq_true]
  · rw [beq_iff_eq.mp hToken, managedToken_name]

theorem find?_not_admitted (hAdmitted : admitManagedKeys now [] snapshot.keys = .ok managed)
    {holder : String} (hOwner : ∀ key ∈ snapshot.keys, normalizeHolder key.owner ≠ holder) :
    managed.find? (·.name == holder) = none := by
  refine find?_eq_none.mpr fun token hToken => ?_
  obtain ⟨key, hKey, rfl⟩ := admitManagedKeys_mem hAdmitted hToken
  rw [managedToken_name, beq_iff_eq]
  exact hOwner key hKey

theorem rebindReservation_rebound (hAdmitted : admitManagedKeys now [] snapshot.keys = .ok managed)
    (groupHex : Nat → String) (i : Nat) (row : Reservation) :
    RowRebound snapshot state.tokens (groupHex i) row
      (rebindReservation state.tokens managed groupHex i row) := by
  refine ⟨rfl, fun hGroup => ?_, fun hGroup token hToken hID => ?_, fun hGroup hNone => ?_,
    fun key hKey hOwner => ?_, fun hOwner => ?_⟩
  · simp only [rebindReservation, if_neg hGroup]
  · simp only [rebindReservation, if_pos hGroup, hToken, map_some, getD_some,
      if_neg hID]
  · have hOld : ((tokenByHash state.tokens row.tokenHash).map (·.id)).getD "" = "" := by
      cases hToken : tokenByHash state.tokens row.tokenHash with
      | none => rfl
      | some token => exact hNone token hToken
    simp only [rebindReservation, if_pos hGroup, hOld, if_true]
  · have hFind := find?_admitted hAdmitted hKey
    rw [hOwner] at hFind
    simp only [rebindReservation, hFind]
    exact managedToken_hash now key
  · simp only [rebindReservation, find?_not_admitted hAdmitted hOwner]

theorem cutOver_frame (groupHex : Nat → String)
    (hAdmitted : admitManagedKeys now [] snapshot.keys = .ok managed) :
    SnapshotFrame snapshot groupHex state (state.cutOver groupHex snapshot managed) where
  rest := rfl
  managedKeys := rfl
  keySnapshotID := rfl
  authority := fun hSome => if_neg hSome
  authoritySet := fun hNone => if_pos hNone
  tokens := ⟨now, hAdmitted⟩
  length := length_mapIdx
  rows := fun i row hRow => by
    refine ⟨_, ?_, rebindReservation_rebound hAdmitted groupHex i row⟩
    simp [State.cutOver, Edit.onList, hRow]

/-- Only an authorization under a key of the table, in the version that is there, is valid. -/
theorem Installed.not_globallyValid {keys : List ManagedUserKey} {tokens : List Token}
    (h : Installed keys tokens) {authorization : Authorization}
    (hAbsent : ∀ key ∈ keys, toLower (trimSpace key.hash) = authorization.tokenHash →
      key.version ≠ authorization.tokenVersion) (now : Time) :
    authorizationGloballyValid authorization tokens now = false := by
  unfold authorizationGloballyValid
  cases hFind : tokenByHash tokens authorization.tokenHash with
  | none => rw [elim_none, Bool.and_false]
  | some token =>
    obtain ⟨hMem, hHash⟩ := tokenByHash_mem hFind
    obtain ⟨time, key, hKey, rfl⟩ := h.source hMem
    rw [managedToken_hash] at hHash
    have hVersion : (authorization.tokenVersion == (managedToken time key).version) = false :=
      beq_eq_false_iff_ne.mpr (hAbsent key hKey hHash).symm
    have hManaged : (managedToken time key).managed = true := rfl
    rw [elim_some, hVersion, hManaged]
    simp

/-- A snapshot that is accepted and new changes the key table and moves the reservations to it,
and nothing else. From then on an authorization is valid at most under a key of the snapshot in
its version. A snapshot of another authority, or of none where there is one, changes nothing. -/
theorem snapshot_changes_only [Digest] (codec : Codec) (errors : SaveErrors)
    (rootKey : RootKeyCheck) (groupHex : Nat → String) (snapshot : ManagedUserKeySnapshot)
    (now : Time) (store : Store) :
    let call := store.call codec errors (.syncManagedUserKeys rootKey groupHex snapshot now)
    (call.2 = .ok () → ¬ store.state.Stores snapshot →
      SnapshotFrame snapshot groupHex store.state call.1.state ∧
      ∀ authorization : Authorization,
        (∀ key ∈ snapshot.keys, toLower (trimSpace key.hash) = authorization.tokenHash →
          key.version ≠ authorization.tokenVersion) →
        ∀ time, authorizationGloballyValid authorization call.1.state.tokens time = false) ∧
    (store.state.managedKeyAuthority ≠ "" →
      trimSpace snapshot.authorityID ≠ store.state.managedKeyAuthority → call.1 = store) := by
  dsimp only
  constructor
  · intro hOk hNew
    obtain ⟨hResult, hState⟩ := Store.perform_ok codec hOk
    obtain ⟨result, hAnswer, _⟩ := Effect.map_ok hResult
    obtain ⟨_, managed, hAdmitted, hApply⟩ := syncManagedUserKeys_ok hAnswer
    unfold State.Stores at hNew
    rw [if_neg hNew] at hApply
    have hAfter : (store.call codec errors
        (.syncManagedUserKeys rootKey groupHex snapshot now)).1.state =
          store.state.cutOver groupHex snapshot managed := hState.trans hApply
    rw [hAfter]
    have hFrame : SnapshotFrame snapshot groupHex store.state
        (store.state.cutOver groupHex snapshot managed) := cutOver_frame groupHex hAdmitted
    exact ⟨hFrame, fun authorization hAbsent time => hFrame.tokens.not_globallyValid hAbsent time⟩
  · intro hSome hOther
    rcases syncManagedUserKeys_eq rootKey groupHex snapshot now store.state with
      ⟨message, hFail⟩ | ⟨managed, answer, _, hAuthority, _⟩
    · simp only [Store.call, Store.perform, Op.effect, hFail]
      rfl
    · exact absurd ⟨hSome, hOther⟩ hAuthority

end Frame

section Samples

open scoped Plain

/-- A snapshot of one authority, with a key for bob and none for alice. -/
def bobSnapshot (authority : String) : ManagedUserKeySnapshot :=
  { snapshotID := "s2", authorityID := authority, keys := [keyOf "uk_2" "bob" 'b'] }

def bobReplaces (authority : String) : Op :=
  .syncManagedUserKeys (.ok true) (fun _ => "0") (bobSnapshot authority) 30

def aliceReplaced : State := { aliceOrphaned with managedKeyAuthority := "gateway" }

def aliceReplacedCodec : Codec := tableCodec [aliceReplaced]

def aliceAuthorization : Authorization :=
  { id := "auth_1", mode := "docker", tokenHash := repeatedHash 'a', tokenVersion := 1
    active := true }

theorem snapshot_changes_only_alice :
    let store : Store := ⟨aliceBooked, {}, none⟩
    let call := store.call aliceReplacedCodec {} (bobReplaces "gateway")
    call.2 = .ok () ∧
      SnapshotFrame (bobSnapshot "gateway") (fun _ => "0") aliceBooked call.1.state ∧
      authorizationGloballyValid aliceAuthorization call.1.state.tokens 40 = false ∧
      ((⟨aliceReplaced, {}, none⟩ : Store).call aliceReplacedCodec {} (bobReplaces "other")).1 =
        ⟨aliceReplaced, {}, none⟩ := by
  have hOk : (Store.call aliceReplacedCodec {} (bobReplaces "gateway")
      ⟨aliceBooked, {}, none⟩).2 = .ok () := by decide +kernel
  obtain ⟨hFrame, hValid⟩ := (@snapshot_changes_only ascii plain aliceReplacedCodec {} (.ok true)
    (fun _ => "0") (bobSnapshot "gateway") 30 ⟨aliceBooked, {}, none⟩).1 hOk
      (fun hStores => absurd hStores.2 (by decide +kernel))
  refine ⟨hOk, hFrame, hValid aliceAuthorization ?_ 40, ?_⟩
  · intro key hKey hHash
    obtain rfl := mem_singleton.mp hKey
    exact absurd hHash (by decide +kernel)
  · exact (@snapshot_changes_only ascii plain aliceReplacedCodec {} (.ok true) (fun _ => "0")
      (bobSnapshot "other") 30 ⟨aliceReplaced, {}, none⟩).2 (by decide) (by decide +kernel)

end Samples

end GPUardian
