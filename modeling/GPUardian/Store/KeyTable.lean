import GPUardian.Store.Revoking
import GPUardian.Store.Views

/-! The key table of a node whose keys come from the gateway. A snapshot that the node knows by
its id is confirmed without a look at the table, so the table has to keep the keys by itself
until the gateway sends the snapshot again. -/
namespace GPUardian

open GoStrings GoSlice List

/-- The node knows the snapshot by its id. -/
def State.Stores (state : State) (snapshot : ManagedUserKeySnapshot) : Prop :=
  state.managedKeys = true ∧ state.keySnapshotID = trimSpace snapshot.snapshotID

section Table

variable [Unicode]

/-- The tokens are those that the keys became at some time, and nothing has happened to them. -/
def Installed (keys : List ManagedUserKey) (tokens : List Token) : Prop :=
  ∃ time, admitManagedKeys time [] keys = .ok tokens

/-- The tokens are the keys, and whoever presents the id or the secret of one gets it. -/
structure HoldsKeys [Digest] (keys : List ManagedUserKey) (now : Time) (state : State) : Prop where
  rows : state.tokens.map (fun token => (token.id, token.name, token.version, token.hash)) =
    keys.map fun key =>
      (trimSpace key.id, normalizeHolder key.owner, key.version, toLower (trimSpace key.hash))
  unrevoked : ∀ token ∈ state.tokens, token.revoked = false
  byID : ∀ token ∈ state.tokens, state.managedTokenByID token.id now = .ok token
  bySecret : ∀ token ∈ state.tokens, ∀ secret, hashToken (trimSpace secret) = token.hash →
    state.validateToken secret now = .ok token

variable {keys : List ManagedUserKey} {tokens : List Token}

theorem Installed.source (h : Installed keys tokens) {token : Token} (hToken : token ∈ tokens) :
    ∃ time, ∃ key ∈ keys, token = managedToken time key := by
  obtain ⟨time, hAdmitted⟩ := h
  obtain ⟨key, hKey, hEq⟩ := admitManagedKeys_mem hAdmitted hToken
  exact ⟨time, key, hKey, hEq.symm⟩

theorem tokenActiveAt_managedToken (time now : Time) (key : ManagedUserKey) :
    tokenActiveAt (managedToken time key) now = true := by
  simp [tokenActiveAt, tokenExpired, timeIsSet, managedToken]

theorem Installed.active (h : Installed keys tokens) {token : Token} (hToken : token ∈ tokens)
    (now : Time) : tokenActiveAt token now = true := by
  obtain ⟨time, key, _, rfl⟩ := h.source hToken
  exact tokenActiveAt_managedToken time now key

/-- The mode of a managed key is in small letters. -/
theorem normalizeTokenMode_managed (hSmall : Unicode.KeepsSmall) :
    normalizeTokenMode tokenModeManaged = tokenModeManaged :=
  normalizeTokenMode_small hSmall (by decide) (by decide) (by decide)

theorem Installed.mode (h : Installed keys tokens) {token : Token} (hToken : token ∈ tokens) :
    token.mode = tokenModeManaged := by
  obtain ⟨time, key, _, rfl⟩ := h.source hToken
  rfl

theorem Installed.hashes (h : Installed keys tokens) : (tokens.map (·.hash)).Nodup := by
  obtain ⟨time, hAdmitted⟩ := h
  exact (admitManagedKeys_ok hAdmitted).2.hashes

theorem Installed.ids (h : Installed keys tokens) : (tokens.map (·.id)).Nodup := by
  obtain ⟨time, hAdmitted⟩ := h
  exact (admitManagedKeys_ok hAdmitted).2.ids

theorem Installed.rows (h : Installed keys tokens) :
    tokens.map (fun token => (token.id, token.name, token.version, token.hash)) =
      keys.map fun key =>
        (trimSpace key.id, normalizeHolder key.owner, key.version, toLower (trimSpace key.hash)) := by
  obtain ⟨time, hAdmitted⟩ := h
  rw [(admitManagedKeys_ok hAdmitted).1, map_map]
  refine map_congr_left fun key _ => ?_
  rw [Function.comp_apply, managedToken_id, managedToken_name, managedToken_hash]
  simp only [managedToken]

variable {state : State}

theorem Installed.managedTokenByID (h : Installed keys state.tokens) {token : Token}
    (hToken : token ∈ state.tokens) (now : Time) :
    state.managedTokenByID token.id now = .ok token := by
  have hActive := h.active hToken now
  obtain ⟨time, key, _, hKey⟩ := h.source hToken
  have hID : trimSpace token.id = token.id := by
    rw [hKey, managedToken_id, trimSpace_trimSpace]
  have hManaged : token.managed = true := by
    rw [hKey]
    rfl
  have hFind : (state.tokens.find? fun row => row.id == trimSpace token.id && row.managed &&
      !row.revoked && !tokenExpired row now) = some token := by
    refine find?_of_nodup h.ids hToken ?_ fun row _ hRow => ?_
    · rw [hID, hManaged, beq_self_eq_true, Bool.and_assoc]
      exact hActive
    · simp only [Bool.and_eq_true, beq_iff_eq] at hRow
      rw [hRow.1.1.1, hID]
  rw [State.managedTokenByID, hFind]

theorem Installed.validateToken [Digest] (h : Installed keys state.tokens)
    (hSmall : Unicode.KeepsSmall) {token : Token}
    (hToken : token ∈ state.tokens) {secret : String}
    (hSecret : hashToken (trimSpace secret) = token.hash) (now : Time) :
    state.validateToken secret now = .ok token := by
  have hActive := h.active hToken now
  rw [tokenActiveAt, Bool.and_eq_true, Bool.not_eq_true', Bool.not_eq_true'] at hActive
  have hFind : state.tokens.find? (·.hash == token.hash) = some token := by
    refine find?_of_nodup h.hashes hToken (beq_self_eq_true _) fun row _ hRow => ?_
    exact beq_iff_eq.mp hRow
  have hMode : normalizeTokenMode token.mode = token.mode := by
    rw [h.mode hToken]
    exact normalizeTokenMode_managed hSmall
  unfold State.validateToken
  rw [hSecret, hFind]
  dsimp only
  rw [if_neg (by simp [hActive.1]), if_neg (by simp [hActive.2]), hMode]

theorem Installed.holdsKeys [Digest] (h : Installed keys state.tokens)
    (hSmall : Unicode.KeepsSmall) (now : Time) :
    HoldsKeys keys now state where
  rows := h.rows
  unrevoked := fun token hToken => by
    have hActive := h.active hToken now
    rw [tokenActiveAt, Bool.and_eq_true, Bool.not_eq_true'] at hActive
    exact hActive.1
  byID := fun token hToken => h.managedTokenByID hToken now
  bySecret := fun token hToken _ hSecret => h.validateToken hSmall hToken hSecret now

end Table

section Kept

variable [Unicode] [Digest]

/-- `Revoke` selects no token: the name is that of a group of a managed key, or neither the
name nor the hash it stands for is a token's. -/
def Spares (id : String) (state : State) : Prop :=
  managedGroupID id state ≠ "" ∨
    ∀ token ∈ state.tokens, revokes id (revokedTokenHash id state) token.id token.hash = false

/-- While the node knows the snapshot, no key is revoked and no key of its own is added. The
id of the snapshot always comes with the same keys. -/
def KeepsSnapshot (snapshot : ManagedUserKeySnapshot) (state : State) : Op → Prop
  | .syncManagedUserKeys _ _ other _ =>
    trimSpace other.snapshotID = trimSpace snapshot.snapshotID → other.keys = snapshot.keys
  | .registerSoftToken .. | .registerToken .. | .registerScheduledReservationsWithSession .. =>
    ¬ state.Stores snapshot
  | .revoke idOrToken _ => state.Stores snapshot → Spares (trimSpace idOrToken) state
  | _ => True

/-- The node knows the same snapshot as before, and if it is this one, the tokens are the same. -/
structure TableKept (snapshot : ManagedUserKeySnapshot) (before after : State) : Prop where
  managedKeys : after.managedKeys = before.managedKeys
  keySnapshotID : after.keySnapshotID = before.keySnapshotID
  tokens : before.Stores snapshot → after.tokens = before.tokens

omit [Unicode] [Digest] in
theorem TableKept.of_eq {snapshot : ManagedUserKeySnapshot} {before after : State}
    (hManaged : after.managedKeys = before.managedKeys)
    (hSnapshot : after.keySnapshotID = before.keySnapshotID)
    (hTokens : after.tokens = before.tokens) : TableKept snapshot before after :=
  ⟨hManaged, hSnapshot, fun _ => hTokens⟩

variable {snapshot : ManagedUserKeySnapshot} {state : State}

omit [Digest] in
/-- A key that is installed has no end, is not revoked and needs no reservation. -/
theorem Installed.not_prunesToken {keys : List ManagedUserKey} {tokens : List Token}
    (h : Installed keys tokens) (hSmall : Unicode.KeepsSmall)
    {token : Token} (hToken : token ∈ tokens) (now : Time) :
    prunesToken state now token = false := by
  refine prunesToken_eq_false.mpr ⟨h.active hToken now, fun hMode => ?_⟩
  rw [h.mode hToken, normalizeTokenMode_managed hSmall] at hMode
  exact absurd hMode (by decide)

/-- Every call but that of a snapshot leaves the table. -/
theorem Op.tableKept (hSmall : Unicode.KeepsSmall) {op : Op}
    (hOp : KeepsSnapshot snapshot state op)
    (hInstalled : state.Stores snapshot → Installed snapshot.keys state.tokens)
    (hSync : ∀ rootKey groupHex other now, op ≠ .syncManagedUserKeys rootKey groupHex other now) :
    TableKept snapshot state ((op.effect state).edits.apply state) := by
  refine Op.edits_ind fun edits hEdited => ?_
  cases hEdited with
  | confirmed | cutOver => exact absurd rfl (hSync _ _ _ _)
  | issued | scheduled => exact ⟨rfl, rfl, fun hStores => absurd hStores hOp⟩
  | old _ _ _ hKeys hTokens =>
    refine ⟨by simp [Edits.apply, hKeys], by simp [Edits.apply, hKeys], fun hStores => ?_⟩
    rcases hTokens with hSame | ⟨_, _, _, _, _, rfl⟩
    · simp [Edits.apply, hSame, Edit.onList]
    · exact absurd hStores hOp
  | revokedRows idOrToken now hNoGroup =>
    refine ⟨rfl, rfl, fun hStores => ?_⟩
    have hNone := revokeTokenLoop_none ((hOp hStores).resolve_left (not_not.mpr hNoGroup))
    refine Edit.onList_update_self fun i token _ => if_neg fun hFlag => ?_
    exact absurd (hNone true (mem_of_getD hFlag)) (by decide)
  | pruned now =>
    refine ⟨rfl, rfl, fun hStores => Edit.onList_filter_self fun token hToken => ?_⟩
    rw [(hInstalled hStores).not_prunesToken hSmall hToken now]
    rfl
  | prunedEntitlements now =>
    refine ⟨rfl, rfl, fun hStores => filter_eq_self.mpr fun token hToken => ?_⟩
    have hTable := hInstalled hStores
    rw [tokenByHash_of_mem hTable.hashes hToken, Option.map_some, hTable.active hToken now]
    rfl
  | _ => exact .of_eq rfl rfl rfl

/-- Once the node knows the snapshot, its keys are installed. -/
theorem Op.installed (hSmall : Unicode.KeepsSmall) {op : Op}
    (hOp : KeepsSnapshot snapshot state op)
    (hInstalled : state.Stores snapshot → Installed snapshot.keys state.tokens)
    (hStores : ((op.effect state).edits.apply state).Stores snapshot) :
    Installed snapshot.keys ((op.effect state).edits.apply state).tokens := by
  by_cases hSync : ∃ rootKey groupHex other now, op = .syncManagedUserKeys rootKey groupHex other now
  · obtain ⟨rootKey, groupHex, other, now, rfl⟩ := hSync
    have hEdited := Op.edited state (.syncManagedUserKeys rootKey groupHex other now)
    generalize (Op.effect state (.syncManagedUserKeys rootKey groupHex other now)).edits = edits
      at hEdited hStores
    cases hEdited with
    | quiet | confirmed => exact hInstalled hStores
    | cutOver _ _ _ _ managed _ hAdmitted => exact ⟨now, hOp hStores.2 ▸ hAdmitted⟩
    | old _ _ hDaemon => cases hDaemon
  · have hKept := Op.tableKept hSmall hOp hInstalled fun rootKey groupHex other now hEq =>
      hSync ⟨rootKey, groupHex, other, now, hEq⟩
    have hBefore : state.Stores snapshot :=
      ⟨hKept.managedKeys ▸ hStores.1, hKept.keySnapshotID ▸ hStores.2⟩
    rw [hKept.tokens hBefore]
    exact hInstalled hBefore

/-- In every run from an empty store whose calls keep the snapshot, and whatever saves fail, a
node that confirms the snapshot holds its keys. -/
theorem confirmed_snapshot_holds_keys (codec : Codec)
    (hSmall : ∀ c : Char, c.isLower → Unicode.lower c = c) {calls : List (SaveErrors × Op)}
    (hKeeps : Store.Meets codec (KeepsSnapshot snapshot) ⟨{}, {}, none⟩ calls) {store : Store}
    (hStore : store = (⟨{}, {}, none⟩ : Store).run codec calls) {errors : SaveErrors}
    {rootKey : RootKeyCheck} {groupHex : Nat → String} {now : Time}
    (hOk : (store.call codec errors (.syncManagedUserKeys rootKey groupHex snapshot now)).2 =
      .ok ()) :
    HoldsKeys snapshot.keys now
      (store.call codec errors (.syncManagedUserKeys rootKey groupHex snapshot now)).1.state := by
  have hBefore : store.state.Stores snapshot → Installed snapshot.keys store.state.tokens := by
    rw [hStore]
    refine hKeeps.invariant codec
      (P := fun state => state.Stores snapshot → Installed snapshot.keys state.tokens)
      (fun state op hOp hInstalled => Op.installed hSmall hOp hInstalled)
      (Store.synced_empty codec) fun hStores => absurd hStores.1 (by decide)
  have hOp : KeepsSnapshot snapshot store.state (.syncManagedUserKeys rootKey groupHex snapshot now) :=
    fun _ => rfl
  obtain ⟨hResult, hState⟩ := Store.perform_ok codec hOk
  rw [Store.call, hState]
  refine (Op.installed hSmall hOp hBefore ?_).holdsKeys hSmall now
  obtain ⟨result, hAnswer, _⟩ := Effect.map_ok hResult
  obtain ⟨_, managed, _, hApply⟩ := syncManagedUserKeys_ok hAnswer
  show State.Stores ((syncManagedUserKeys rootKey groupHex snapshot now store.state).edits.apply
    store.state) snapshot
  rw [hApply]
  split
  · rename_i hRepeat
    exact hRepeat
  · exact ⟨rfl, rfl⟩

end Kept

section Samples

open scoped Plain

/-- The snapshot with the key of alice. -/
def aliceSnapshot : ManagedUserKeySnapshot :=
  { snapshotID := "s1", keys := [keyOf "uk_1" "alice" 'a'] }

def aliceSynced (now : Time) : SaveErrors × Op :=
  ({}, .syncManagedUserKeys (.ok true) (fun _ => "0") aliceSnapshot now)

def aliceRevoked : State :=
  { aliceKeyed with tokens := aliceKeyed.tokens.map fun token => { token with revoked := true } }

def aliceKeyCodec : Codec := tableCodec [aliceKeyed, aliceRevoked]

theorem confirmed_snapshot_holds_keys_alice :
    let store := (⟨{}, {}, none⟩ : Store).run aliceKeyCodec [aliceSynced 10, ({}, .prune 20)]
    (store.call aliceKeyCodec {} (aliceSynced 30).2).2 = .ok () ∧
      HoldsKeys aliceSnapshot.keys 30 (store.call aliceKeyCodec {} (aliceSynced 30).2).1.state := by
  have hOk : (((⟨{}, {}, none⟩ : Store).run aliceKeyCodec [aliceSynced 10, ({}, .prune 20)]).call
      aliceKeyCodec {} (aliceSynced 30).2).2 = .ok () := by decide +kernel
  refine ⟨hOk, confirmed_snapshot_holds_keys aliceKeyCodec ascii_lower_of_isLower ?_ rfl hOk⟩
  exact ⟨fun _ => rfl, trivial, trivial⟩

/-- After alice's key was revoked, the node still confirms the snapshot. -/
theorem confirmed_snapshot_revoked :
    let store := (⟨{}, {}, none⟩ : Store).run aliceKeyCodec [aliceSynced 10, ({}, .revoke "uk_1" 20)]
    store.call aliceKeyCodec {} (aliceSynced 30).2 = (store, .ok ()) ∧
      store.state.tokens.map (fun token => (token.id, token.revoked)) = [("uk_1", true)] ∧
      store.state.managedTokenByID "uk_1" 30 = .error errTokenNotFound ∧
      ¬ HoldsKeys aliceSnapshot.keys 30 store.state := by
  have hReached : (⟨{}, {}, none⟩ : Store).run aliceKeyCodec
      [aliceSynced 10, ({}, .revoke "uk_1" 20)] =
        ⟨aliceRevoked, aliceRevoked, some (aliceKeyCodec.encode aliceRevoked ++ "\n")⟩ := by
    decide +kernel
  rw [hReached]
  refine ⟨by decide +kernel, by decide +kernel, by decide +kernel, fun hHolds => ?_⟩
  exact absurd (hHolds.unrevoked _ mem_cons_self) (by decide)

end Samples

end GPUardian
