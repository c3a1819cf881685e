import GPUardian.Gateway.Accounts
import GPUardian.Gateway.KeySync
import GPUardian.Store.Ownership
import GPUardian.Store.Views

/-! What a user who is not an administrator may revoke. The gateway decides it from the names
in the node's `KeyStatus`; the node then follows hashes and groups through all of its rows. Both
lead to the same user, because every key and every id in the fleet was drawn for one. -/
namespace GPUardian

open GoStrings GoSlice List Interleaving UserStore

section Permission

variable [Unicode]

def sameOwner (left right : String) : Bool :=
  match normalizeUsername left, normalizeUsername right with
  | .ok left, .ok right => left == right
  | _, _ => false

/-- `showKeys` is the node's answer to the gateway. -/
def canRevoke (session : SessionInfo) (showKeys : Except String KeyStatus) (id : String) :
    Except String Bool :=
  if session.role = roleAdmin then .ok true
  else match showKeys with
  | .error text => .error text
  | .ok status =>
    match status.tokens.find? (·.id == id) with
    | some token => .ok (sameOwner token.name session.user)
    | none =>
      match status.reservations.find? (·.id == id) with
      | some reservation => .ok (sameOwner reservation.holder session.user)
      | none =>
        match status.reservations.find? (·.groupID == id) with
        | some reservation => .ok (sameOwner reservation.holder session.user)
        | none =>
          match status.authorizations.find? (·.id == id) with
          | some authorization => .ok (sameOwner authorization.holder session.user)
          | none => .ok false

/-- Names with the same normal form have the same owner. -/
theorem sameOwner_of_ownerOf {name other user : String} (h : ownerOf other = ownerOf name)
    (hOwner : sameOwner name user = true) : sameOwner other user = true := by
  have hName : normalizeUsername other = normalizeUsername name := by
    unfold ownerOf at h
    simp only [normalizeUsername, h]
  unfold sameOwner at hOwner ⊢
  rw [hName]
  exact hOwner

/-- What `canRevoke` has found when it allows a user something. -/
theorem canRevoke_found {session : SessionInfo} (hRole : session.role ≠ roleAdmin) {status : KeyStatus}
    {id : String} (h : canRevoke session (.ok status) id = .ok true) :
    (∃ token ∈ status.tokens, token.id = id ∧ sameOwner token.name session.user = true) ∨
      (∃ row ∈ status.reservations, (row.id = id ∨ row.groupID = id) ∧
        sameOwner row.holder session.user = true) ∨
      ∃ row ∈ status.authorizations, row.id = id ∧ sameOwner row.holder session.user = true := by
  unfold canRevoke at h
  rw [if_neg hRole] at h
  dsimp only at h
  cases hToken : status.tokens.find? (·.id == id) with
  | some token =>
    rw [hToken] at h
    have hID : token.id = id := by simpa using find?_some hToken
    exact .inl ⟨token, mem_of_find?_eq_some hToken, hID, Except.ok.inj h⟩
  | none =>
  rw [hToken] at h
  dsimp only at h
  cases hRow : status.reservations.find? (·.id == id) with
  | some row =>
    rw [hRow] at h
    have hID : row.id = id := by simpa using find?_some hRow
    exact .inr (.inl ⟨row, mem_of_find?_eq_some hRow, .inl hID, Except.ok.inj h⟩)
  | none =>
  rw [hRow] at h
  dsimp only at h
  cases hGroup : status.reservations.find? (·.groupID == id) with
  | some row =>
    rw [hGroup] at h
    have hID : row.groupID = id := by simpa using find?_some hGroup
    exact .inr (.inl ⟨row, mem_of_find?_eq_some hGroup, .inr hID, Except.ok.inj h⟩)
  | none =>
  rw [hGroup] at h
  dsimp only at h
  cases hAuthorization : status.authorizations.find? (·.id == id) with
  | some row =>
    rw [hAuthorization] at h
    have hID : row.id = id := by simpa using find?_some hAuthorization
    exact .inr (.inr ⟨row, mem_of_find?_eq_some hAuthorization, hID, Except.ok.inj h⟩)
  | none =>
    rw [hAuthorization] at h
    cases h

/-- A row is listed under a group that was drawn for its holder, or under none. -/
theorem Owned.nameOf_group {user : String → String} {state : State} (h : Owned user state)
    (now : Time) {row : Reservation} (hRow : row ∈ state.reservations) :
    NameOf user (ownerOf row.holder) (reservationGroupID state now row) := by
  unfold reservationGroupID
  split
  · rename_i hGroup
    obtain ⟨hNamed, hUser⟩ := h.groups row hRow hGroup
    exact hNamed.nameOf hUser
  · unfold tokenIDsByHash
    cases hFind : tokenByHash (state.tokens.filter (!prunesToken state now ·)) row.tokenHash with
    | none => exact nameOf_empty user _
    | some token =>
      obtain ⟨hToken, hHash⟩ := tokenByHash_mem hFind
      have hOwned := h.tokens token (mem_filter.mp hToken).1
      refine hOwned.named.nameOf ?_
      rw [hOwned.id, ← hOwned.hash, hHash]
      exact (h.reservations row hRow).hash

/-- A name that the user is allowed to revoke was drawn for that user, or is empty. -/
theorem Owned.allowed {user : String → String} {state : State} (h : Owned user state)
    {session : SessionInfo} (hRole : session.role ≠ roleAdmin) {rootKey : RootKeyCheck} {seen : Time}
    {id : String} (hAllowed : canRevoke session (keyStatus rootKey seen state) id = .ok true) :
    ∃ holder, sameOwner holder session.user = true ∧ NameOf user (ownerOf holder) id := by
  match rootKey with
  | .error _ | .ok false =>
    unfold canRevoke at hAllowed
    rw [if_neg hRole] at hAllowed
    cases hAllowed
  | .ok true =>
  rcases canRevoke_found hRole hAllowed with
    ⟨view, hView, rfl, hOwner⟩ | ⟨view, hView, hID, hOwner⟩ | ⟨view, hView, rfl, hOwner⟩
  · obtain ⟨token, hToken, rfl⟩ := mem_map.mp hView
    have hOwned := h.tokens token (mem_filter.mp hToken).1
    exact ⟨token.name, hOwner, hOwned.named.nameOf hOwned.id⟩
  · obtain ⟨row, hRow, rfl⟩ := mem_map.mp hView
    have hStored := (mem_filter.mp hRow).1
    refine ⟨row.holder, hOwner, ?_⟩
    rcases hID with rfl | rfl
    · exact (h.reservations row hStored).named.nameOf (h.reservations row hStored).id
    · exact h.nameOf_group seen hStored
  · obtain ⟨row, hRow, rfl⟩ := mem_map.mp hView
    have hOwned := h.authorizations row (mem_filter.mp hRow).1
    exact ⟨row.holder, hOwner, hOwned.named.nameOf hOwned.id⟩

end Permission

/-- A change of the users at a gateway. -/
inductive AccountOp where
  | bootstrapAdmin (username password : String) (hash : Except String String) (write : FileWrite)
      (now : Time)
  | create (busy : Bool) (username password role : String) (hash : Except String String)
      (draw : Option (Except String KeyDraw)) (write : FileWrite) (now : Time)
  | delete (username : String) (write : FileWrite) (now : Time)
  | initializeFixedKeys (cipher : Option String) (reveal : UserRecord → Option String)
      (draw : Nat → Except String KeyDraw) (write : FileWrite)
  | regenerateFixedKey (username : String) (draw : Except String KeyDraw) (write : FileWrite)
  | finishAuthenticate (username : String) (candidate : UserRecord) (upgradedHash : String)
      (write : FileWrite) (now : Time)
  | finishChangePassword (username : String) (candidate : UserRecord) (newHash : String)
      (write : FileWrite) (now : Time)

/-- Any number of gateways, what they have sent, and one node. `inHand` are the tokens that
running requests at the node have been validated against. -/
structure Fleet where
  gateways : Nat → UserStore := fun _ => {}
  sent : List ManagedUserKeySnapshot := []
  node : Store := ⟨{}, {}, none⟩
  inHand : List Token := []

/-- A request on its way may be lost, or be delivered late, twice or out of order. -/
inductive AccessEvent where
  | account (gateway : Nat) (op : AccountOp)
  | send (gateway : Nat) (authorityCapable : Bool)
  | deliver (request : Nat) (rootKey : RootKeyCheck) (groupHex : Nat → String)
      (errors : SaveErrors) (now : Time)
  | validate (secret : String) (now : Time)
  | validateManaged (id : String) (now : Time)
  | authorize (request : Nat) (authHex : String) (authorization : Authorization)
      (errors : SaveErrors) (now : Time)
  | call (errors : SaveErrors) (op : Op)

section Steps

variable [Unicode] [Digest]

def UserStore.apply (store : UserStore) : AccountOp → UserStore
  | .bootstrapAdmin username password hash write now =>
    (store.bootstrapAdmin username password hash write now).1
  | .create busy username password role hash draw write now =>
    (store.create busy username password role hash draw write now).1
  | .delete username write now => (store.delete username write now).1
  | .initializeFixedKeys cipher reveal draw write =>
    (store.initializeFixedKeys cipher reveal draw write).1
  | .regenerateFixedKey username draw write => (store.regenerateFixedKey username draw write).1
  | .finishAuthenticate username candidate upgradedHash write now =>
    (store.finishAuthenticate username candidate upgradedHash write now).1
  | .finishChangePassword username candidate newHash write now =>
    (store.finishChangePassword username candidate newHash write now).1

/-- The authorization of a request, which the daemon binds to the validated token last. -/
def boundAuthorization (authHex : String) (token : Token) (authorization : Authorization) :
    Authorization :=
  { authorization with
    id := "auth_" ++ authHex
    tokenHash := token.hash
    tokenMode := normalizeTokenMode token.mode
    tokenVersion := token.version
    holder := token.name
    expiresAt := token.expiresAt }

namespace Fleet

variable (codec : Codec) (marshal : List ManagedUserKey → String) (authority : Nat → String)

def step (fleet : Fleet) : AccessEvent → Fleet
  | .account g op =>
    { fleet with gateways := Function.update fleet.gateways g ((fleet.gateways g).apply op) }
  | .send g authorityCapable =>
    let snapshot :=
      KeySync.buildManagedKeySnapshot marshal (authority g) (fleet.gateways g).users
    { fleet with sent := fleet.sent ++ [{ snapshot with
        authorityID := if authorityCapable then snapshot.authorityID else "" }] }
  | .deliver k rootKey groupHex errors now =>
    match fleet.sent[k]? with
    | none => fleet
    | some snapshot =>
      { fleet with node := (fleet.node.call codec errors
          (.syncManagedUserKeys rootKey groupHex snapshot now)).1 }
  | .validate secret now =>
    match fleet.node.state.validateToken secret now with
    | .error _ => fleet
    | .ok token => { fleet with inHand := fleet.inHand ++ [token] }
  | .validateManaged id now =>
    match fleet.node.state.managedTokenByID id now with
    | .error _ => fleet
    | .ok token => { fleet with inHand := fleet.inHand ++ [token] }
  | .authorize k authHex authorization errors now =>
    match fleet.inHand[k]? with
    | none => fleet
    | some token =>
      { fleet with node := (fleet.node.call codec errors
          (.addAuthorization (boundAuthorization authHex token authorization) now)).1 }
  | .call errors op => { fleet with node := (fleet.node.call codec errors op).1 }

end Fleet

end Steps

section Ownership

variable [Unicode] [Digest] (user : String → String)

/-- The id and the secret of a key are drawn for the user who gets it. -/
structure KeyDrawnFor (draw : KeyDraw) (name : String) : Prop where
  hex : IsHex draw.idHex
  id : user ("uk_" ++ draw.idHex) = name
  hash : user (nodeHash (hashToken draw.secret)) = name

def AccountOp.Draws (store : UserStore) : AccountOp → Prop
  | .create _ username _ _ _ (some (.ok draw)) _ _ | .regenerateFixedKey username (.ok draw) _ =>
    ∀ name, normalizeUsername username = .ok name → KeyDrawnFor user draw name
  | .initializeFixedKeys _ _ draw _ =>
    ∀ i row drawn, store.users[i]? = some row → draw i = .ok drawn →
      KeyDrawnFor user drawn row.username
  | _ => True

/-- The calls of the daemon that carry neither keys of a gateway nor a validated token. -/
def Op.unbound : Op → Bool
  | .syncManagedUserKeys .. | .addAuthorization .. => false
  | _ => true

/-- Every id and every secret that the event draws is drawn for the user of its row. -/
def Fleet.Draws (fleet : Fleet) : AccessEvent → Prop
  | .account g op => op.Draws user (fleet.gateways g)
  | .deliver _ _ groupHex _ _ =>
    ∀ i row, fleet.node.state.reservations[i]? = some row →
      IsHex (groupHex i) ∧ user ("grp_" ++ groupHex i) = ownerOf row.holder
  | .authorize k authHex _ _ _ =>
    ∀ token, fleet.inHand[k]? = some token →
      IsHex authHex ∧ user ("auth_" ++ authHex) = ownerOf token.name
  | .call _ op => op.unbound = true ∧ DrawnFor user fleet.node.state op
  | .send _ _ | .validate _ _ | .validateManaged _ _ => True

/-- The row of a user has a normal name, and a key that was drawn for that user. -/
structure Issued (row : UserRecord) : Prop where
  username : normalizeUsername row.username = .ok row.username
  key : row.keyID ≠ "" → (∃ hex, IsHex hex ∧ row.keyID = "uk_" ++ hex) ∧
    user row.keyID = row.username ∧ user (nodeHash row.keyHash) = row.username

/-- Everything in the fleet is of the user it was drawn for. -/
structure Fleet.Owned (codec : Codec) (fleet : Fleet) : Prop where
  synced : fleet.node.Synced codec
  node : GPUardian.Owned user fleet.node.state
  gateways : ∀ g, ∀ row ∈ (fleet.gateways g).users, Issued user row
  sent : ∀ snapshot ∈ fleet.sent, ∀ key ∈ snapshot.keys, OwnedKey user key
  inHand : ∀ token ∈ fleet.inHand, OwnedRow user token.id token.hash token.name

variable {user}

variable {row : UserRecord}

theorem issued_assignKey {draw : KeyDraw} (version : Int)
    (h : normalizeUsername row.username = .ok row.username)
    (hDraw : KeyDrawnFor user draw row.username) : Issued user (assignKey draw version row) :=
  ⟨h, fun _ => ⟨⟨draw.idHex, hDraw.hex, rfl⟩, hDraw.id, hDraw.hash⟩⟩

omit [Digest] in
/-- Passwords and deletions leave name and key of a row as they are. -/
theorem Issued.same {other : UserRecord} (h : Issued user row)
    (hName : other.username = row.username) (hID : other.keyID = row.keyID)
    (hHash : other.keyHash = row.keyHash) : Issued user other :=
  ⟨by rw [hName]; exact h.username, by rw [hName, hID, hHash]; exact h.key⟩

variable {username : String} {now : Time}

omit [Digest] in
theorem newUserRecord_issued (hLower : Unicode.LowersOnce)
    {password role : String} {hash : Except String String}
    (h : newUserRecord username password role hash now = .ok row) :
    normalizeUsername username = .ok row.username ∧ Issued user row := by
  unfold newUserRecord at h
  split at h
  · cases h
  · cases h
  · cases h
  · rename_i name hash hName _
    obtain rfl := Except.ok.inj h
    exact ⟨hName, normalizeUsername_idem hLower hName, fun hKey => absurd rfl hKey⟩

variable {rows : List UserRecord}

/-- The keys that are filled in are drawn for their users. -/
theorem fillKeys_issued {reveal : UserRecord → Option String} {draw : Nat → Except String KeyDraw}
    {filled : List UserRecord} {i : Nat} (hRows : ∀ row ∈ rows, Issued user row)
    (hDraws : ∀ j row drawn, rows[j]? = some row → draw (i + j) = .ok drawn →
      KeyDrawnFor user drawn row.username) (h : fillKeys reveal draw i rows = .ok filled) :
    ∀ row ∈ filled, Issued user row := by
  induction rows generalizing i filled with
  | nil =>
    obtain rfl : [] = filled := by simpa [fillKeys] using h
    exact fun row hRow => absurd hRow not_mem_nil
  | cons first rows ih =>
    have hFirst := hRows first mem_cons_self
    have hRest : ∀ tail, fillKeys reveal draw (i + 1) rows = .ok tail →
        ∀ row ∈ tail, Issued user row := by
      intro tail hTail
      refine ih (fun row hRow => hRows row (mem_cons_of_mem _ hRow)) ?_ hTail
      intro j row drawn hRow hDrawn
      refine hDraws (j + 1) row drawn hRow ?_
      rw [← hDrawn]
      congr 1
      omega
    -- Whatever becomes of the first row, the others are filled from the next draw on.
    have hCons : ∀ new, Issued user new →
        (fillKeys reveal draw (i + 1) rows).map (new :: ·) = .ok filled →
        ∀ row ∈ filled, Issued user row := by
      intro new hNew hFilled
      cases hTail : fillKeys reveal draw (i + 1) rows with
      | error text =>
        rw [hTail] at hFilled
        cases hFilled
      | ok tail =>
        rw [hTail] at hFilled
        obtain rfl := Except.ok.inj hFilled
        exact forall_mem_cons.mpr ⟨hNew, hRest tail hTail⟩
    unfold fillKeys at h
    split at h
    · exact hCons first hFirst h
    split at h
    · split at h
      · cases h
      · rename_i drawn hDrawn
        exact hCons _ (issued_assignKey 1 hFirst.username (hDraws 0 first drawn rfl hDrawn)) h
    · split at h
      · cases h
      · exact hCons first hFirst h

variable {store : UserStore}

omit [Digest] in
/-- A table is saved, or the one before stays. -/
theorem saveLocked_issued {write : FileWrite} (hOld : ∀ row ∈ store.users, Issued user row)
    (hNew : ∀ row ∈ rows, Issued user row) :
    ∀ row ∈ (store.saveLocked write rows).1.users, Issued user row := by
  unfold saveLocked
  split
  · exact hNew
  · exact hOld

omit [Digest] in
theorem modifyFirst_issued {p : UserRecord → Bool} {f : UserRecord → UserRecord}
    (h : ∀ row ∈ rows, Issued user row) (hNew : ∀ row ∈ rows, p row = true → Issued user (f row)) :
    ∀ row ∈ modifyFirst p f rows, Issued user row := by
  intro row hRow
  rcases mem_modifyFirst hRow with hOld | ⟨old, hOld, hSelected, rfl⟩
  · exact h row hOld
  · exact hNew old hOld hSelected

/-- The key of a new account is drawn for it. -/
theorem create_issued (hLower : Unicode.LowersOnce)
    {busy : Bool} {password role : String} {hash : Except String String}
    {draw : Option (Except String KeyDraw)} {write : FileWrite}
    (hOld : ∀ row ∈ store.users, Issued user row)
    (hDraws : ∀ drawn name, draw = some (.ok drawn) → normalizeUsername username = .ok name →
      KeyDrawnFor user drawn name) :
    ∀ row ∈ (store.create busy username password role hash draw write now).1.users,
      Issued user row := by
  unfold create
  split
  · exact hOld
  split
  · exact hOld
  rename_i record hRecord
  have hNew : normalizeUsername username = .ok record.username ∧ Issued user record :=
    newUserRecord_issued hLower hRecord
  obtain ⟨hName, hPlain⟩ := hNew
  split
  · exact hOld
  rename_i keyed hKeyed
  have hIssued : Issued user keyed := by
    unfold assignFirstKey at hKeyed
    split at hKeyed
    · exact Except.ok.inj hKeyed ▸ hPlain
    · cases hKeyed
    · rename_i drawn
      exact Except.ok.inj hKeyed ▸ issued_assignKey 1 hPlain.username (hDraws drawn _ rfl hName)
  split
  · exact hOld
  split
  · exact hOld
  have hSaved : ∀ row ∈ (store.saveLocked write (store.users ++ [keyed])).1.users,
      Issued user row := by
    refine saveLocked_issued hOld fun row hRow => ?_
    rcases mem_append.mp hRow with hStored | hNew
    · exact hOld row hStored
    · exact mem_singleton.mp hNew ▸ hIssued
  split
  · rename_i hSave
    rw [hSave] at hSaved
    exact hSaved
  · rename_i hSave
    rw [hSave] at hSaved
    exact hSaved

omit [Digest] in
theorem withPassword_issued {hash : String} (h : ∀ row ∈ store.users, Issued user row) :
    ∀ row ∈ (withPassword username hash now store).users, Issued user row :=
  modifyFirst_issued h fun row hRow _ => (h row hRow).same rfl rfl rfl

/-- Every change of the users keeps their names normal and gives out keys that were drawn for
them. -/
theorem UserStore.apply_issued (hLower : Unicode.LowersOnce)
    (hOld : ∀ row ∈ store.users, Issued user row) (op : AccountOp) (hDraws : op.Draws user store) :
    ∀ row ∈ (store.apply op).users, Issued user row := by
  cases op with
  | bootstrapAdmin username password hash write now =>
    simp only [apply, bootstrapAdmin]
    split
    · exact hOld
    split
    · exact hOld
    · rename_i record hRecord
      have hIssued : normalizeUsername username = .ok record.username ∧ Issued user record :=
        newUserRecord_issued hLower hRecord
      refine saveLocked_issued hOld fun row hRow => ?_
      exact mem_singleton.mp hRow ▸ hIssued.2
  | create busy username password role hash draw write now =>
    refine create_issued hLower hOld fun drawn name hDraw hName => ?_
    subst hDraw
    exact hDraws name hName
  | delete username write now =>
    simp only [apply, delete]
    repeat' split
    all_goals try exact hOld
    refine saveLocked_issued hOld (modifyFirst_issued hOld fun row hRow _ => ?_)
    exact (hOld row hRow).same rfl rfl rfl
  | initializeFixedKeys cipher reveal draw write =>
    simp only [apply, initializeFixedKeys]
    split
    · exact hOld
    · exact hOld
    · rename_i rows hFilled
      split
      · refine saveLocked_issued hOld (fillKeys_issued hOld ?_ hFilled)
        intro j row drawn hRow hDrawn
        exact hDraws j row drawn hRow (by rw [← hDrawn, Nat.zero_add])
      · exact hOld
  | regenerateFixedKey username draw write =>
    rcases regenerateFixedKey_cases username draw write store with
      hSame | ⟨name, row, drawn, hName, rfl, hRow, hSaved⟩
    · rw [apply, hSame]
      exact hOld
    · rw [apply, hSaved]
      refine modifyFirst_issued hOld fun other hOther hSelected => ?_
      have hUsername : other.username = name := names_username hSelected
      refine issued_assignKey _ (hOld other hOther).username ?_
      rw [hUsername]
      exact hDraws name hName
  | finishAuthenticate username candidate upgradedHash write now =>
    rcases (finishAuthenticate_cases candidate store).1 with hSame | hSaved
    · rw [apply, hSame]
      exact hOld
    · rw [apply, hSaved]
      exact withPassword_issued hOld
  | finishChangePassword username candidate newHash write now =>
    rcases finishChangePassword_cases candidate store with hSame | hSaved
    · rw [apply, hSame.1]
      exact hOld
    · rw [apply, hSaved]
      exact withPassword_issued hOld

omit [Digest] in
/-- A normal name is its own normal form in every comparison. -/
theorem ownerOf_username {name : String} (h : normalizeUsername name = .ok name) :
    ownerOf name = name ∧ name ≠ "" := by
  unfold normalizeUsername at h
  dsimp only at h
  split at h
  · cases h
  rename_i hNonempty
  split at h
  · cases h
  split at h
  · cases h
  have hName : ownerOf name = name := Except.ok.inj h
  exact ⟨hName, fun hEmpty => hNonempty (hName.trans hEmpty)⟩

omit [Digest] in
/-- The verifier of an issued key. -/
theorem Issued.ownedKey (h : Issued user row) (hKey : row.keyID ≠ "") :
    OwnedKey user (verifierOf row) := by
  obtain ⟨⟨hex, hHex, hID⟩, hUserID, hUserHash⟩ := h.key hKey
  obtain ⟨hOwner, hNonempty⟩ := ownerOf_username h.username
  have hHolder : normalizeHolder row.username = row.username := by
    rw [normalizeHolder_eq (by rw [hOwner]; exact hNonempty), hOwner]
  have hNamed : ScopeName row.keyID := by
    rw [hID]
    exact scopeName_append (by decide) hHex
  unfold verifierOf
  constructor
  case named =>
    dsimp only
    rw [hNamed.trimmed]
    exact hNamed
  case id =>
    dsimp only
    rw [hNamed.trimmed, hHolder, hUserID]
  case hash =>
    dsimp only
    rw [hHolder]
    exact hUserHash
  case settled =>
    dsimp only
    rw [hHolder, hOwner]

namespace Fleet

variable (codec : Codec) (marshal : List ManagedUserKey → String) (authority : Nat → String)

/-- A call of the node that keeps its state owned keeps the fleet so. -/
theorem Owned.called {fleet : Fleet} (h : fleet.Owned user codec) {errors : SaveErrors} {op : Op}
    (hDraws : DrawnFor user fleet.node.state op) :
    Owned user codec { fleet with node := (fleet.node.call codec errors op).1 } :=
  ⟨Store.call_synced codec errors op h.synced,
    Store.call_keeps codec h.synced h.node (Op.owned op hDraws h.node), h.gateways, h.sent, h.inHand⟩

omit [Digest] in
/-- A token in hand is one of the node's. -/
theorem Owned.validated {fleet : Fleet} (h : fleet.Owned user codec) {token : Token}
    (hToken : OwnedRow user token.id token.hash token.name) :
    Owned user codec { fleet with inHand := fleet.inHand ++ [token] } :=
  { h with inHand := forall_mem_concat.mpr ⟨h.inHand, hToken⟩ }

/-- Every step of the fleet leaves keys and rows with their users. -/
theorem step_owned (hLower : Unicode.LowersOnce)
    (fleet : Fleet) (event : AccessEvent) (hDraws : fleet.Draws user event)
    (h : fleet.Owned user codec) : Owned user codec (step codec marshal authority fleet event) := by
  cases event with
  | account g op =>
    refine { h with gateways := fun other => ?_ }
    by_cases hOther : other = g
    · subst hOther
      simp only [step, Function.update_self]
      exact apply_issued hLower (h.gateways other) op hDraws
    · simp only [step, Function.update_of_ne hOther]
      exact h.gateways other
  | send g authorityCapable =>
    refine { h with sent := forall_mem_concat.mpr ⟨h.sent, fun key hKey => ?_⟩ }
    obtain ⟨row, hRow, _, hKeyed, rfl⟩ := mem_fixedKeyVerifiers.mp hKey
    exact (h.gateways g row hRow).ownedKey hKeyed
  | deliver k rootKey groupHex errors now =>
    simp only [step]
    split
    · exact h
    · rename_i snapshot hSent
      exact h.called codec ⟨h.sent snapshot (mem_of_getElem? hSent), hDraws⟩
  | validate secret now =>
    simp only [step]
    split
    · exact h
    · rename_i token hToken
      obtain ⟨stored, hStored, rfl⟩ := State.validateToken_ok hToken
      exact h.validated codec (h.node.tokens stored hStored)
  | validateManaged id now =>
    simp only [step]
    split
    · exact h
    · rename_i token hToken
      exact h.validated codec (h.node.tokens token (State.managedTokenByID_ok hToken))
  | authorize k authHex authorization errors now =>
    simp only [step]
    split
    · exact h
    · rename_i token hToken
      obtain ⟨hHex, hUser⟩ := hDraws token hToken
      have hOwned := h.inHand token (mem_of_getElem? hToken)
      exact h.called codec ⟨scopeName_append (by decide) hHex, hUser, hOwned.hash, hOwned.held⟩
  | call errors op => exact h.called codec hDraws.2

omit [Digest] in
theorem empty_owned : Owned user codec {} :=
  ⟨Store.synced_empty codec, GPUardian.Owned.empty user, fun _ _ hRow => absurd hRow not_mem_nil,
    fun _ hSnapshot => absurd hSnapshot not_mem_nil,
    fun _ hToken => absurd hToken not_mem_nil⟩

/-- Along every run of a fleet in which ids and secrets are drawn for one user each, everything is
of the user it was drawn for. -/
theorem run_owned (hLower : Unicode.LowersOnce)
    {events : List AccessEvent}
    (hDraws : Along (step codec marshal authority) (Draws user) {} events) :
    Owned user codec (run (step codec marshal authority) {} events) :=
  hDraws.invariant (Owned user codec) (step_owned codec marshal authority hLower)
    (empty_owned codec)

end Fleet

/-- In every run of a fleet whose ids and secrets are drawn for one user each, what the gateway
allows a user to revoke touches no row of another. -/
theorem allowed_revocation_touches_own (codec : Codec) (marshal : List ManagedUserKey → String)
    (authority : Nat → String) (hLower : ∀ c, Unicode.lower (Unicode.lower c) = Unicode.lower c)
    {events : List AccessEvent}
    (hDraws : Along (Fleet.step codec marshal authority) (Fleet.Draws user) {} events)
    {node : Store}
    (hNode : node = (run (Fleet.step codec marshal authority) {} events).node)
    {session : SessionInfo} (hRole : session.role ≠ roleAdmin) {rootKey : RootKeyCheck} {seen : Time}
    {id : String} (hAllowed : canRevoke session (keyStatus rootKey seen node.state) id = .ok true)
    (errors : SaveErrors) (now : Time) :
    RevokedOnly (fun name => sameOwner name session.user = true) node.state
      (node.call codec errors (.revoke id now)).1.state := by
  have hOwned := Fleet.run_owned codec marshal authority hLower hDraws
  rw [hNode] at hAllowed ⊢
  obtain ⟨holder, hOwner, hName⟩ := hOwned.node.allowed hRole hAllowed
  have hOnly := (hOwned.node.revoke_only hName now).imp
    fun name hSame => sameOwner_of_ownerOf hSame hOwner
  exact Store.call_keeps codec hOwned.synced (RevokedOnly.refl _ _) hOnly

end Ownership

section Samples

open scoped Plain

attribute [local instance] lastCharDigest

/-- In the sample, what ends in these two characters was drawn for alice. -/
def drawnForAlice (text : String) : String :=
  if text.toList.getLastD ' ' ∈ ['1', 'a'] then "alice" else "bob"

def createWithKey (username secretHex idHex : String) : AccessEvent :=
  .account 0 (.create false username "long enough password" "user" (.ok "hash")
    (some (.ok { secretHex := secretHex, idHex := idHex })) .done 1)

/-- Alice and bob get accounts with keys, and the node gets the keys. -/
def keysSent : List AccessEvent :=
  [createWithKey "alice" "a" "1", createWithKey "bob" "b" "2", .send 0 true,
    .deliver 0 (.ok true) (fun _ => "1") {} 10]

/-- Alice books a GPU. -/
def aliceBooksGPU : AccessEvent :=
  .call {} (.registerManagedReservations (.ok true)
    { groupHex := "1", reservationHex := fun _ => "1" } "uk_1" "" "" [0] 100 200 20)

def sampleToken (id name : String) (hash : Char) : Token :=
  { id := id, hash := keyHashOf hash, name := name, mode := tokenModeManaged, version := 1
    managed := true, createdAt := 10 }

def keysStored : State :=
  { managedKeys := true, managedKeyAuthority := "mka_1", keySnapshotID := "sha256:" ++ keyHashOf '2'
    tokens := [sampleToken "uk_1" "alice" 'a', sampleToken "uk_2" "bob" 'b'] }

def gpuBooked (revoked : Bool) : State :=
  { keysStored with
    reservations := [{ id := "res_1", groupID := "grp_1", gpu := 0, tokenHash := keyHashOf 'a'
                       holder := "alice", createdAt := 20, startsAt := 100, expiresAt := 200
                       active := true, revoked := revoked }] }

def accessCodec : Codec := tableCodec [keysStored, gpuBooked false, gpuBooked true]

/-- A node that has saved the state. -/
def savedNode (state : State) : Store := ⟨state, state, some (accessCodec.encode state ++ "\n")⟩

def accessStep [Unicode] [Digest] : Fleet → AccessEvent → Fleet :=
  Fleet.step accessCodec joinIDs fun _ => "mka_1"

def aliceSession : SessionInfo := { user := "alice", role := roleUser, authMethod := "browser" }

theorem keysSent_reached :
    (run accessStep {} keysSent).node = savedNode keysStored := by
  decide +kernel

theorem gpuBooked_reached :
    (run accessStep {} (keysSent ++ [aliceBooksGPU])).node =
      savedNode (gpuBooked false) := by
  have hBooks : ∀ fleet : Fleet, (accessStep fleet aliceBooksGPU).node = (fleet.node.call accessCodec {}
      (.registerManagedReservations (.ok true) { groupHex := "1", reservationHex := fun _ => "1" }
        "uk_1" "" "" [0] 100 200 20)).1 := fun _ => rfl
  rw [Interleaving.run_append]
  refine (hBooks _).trans ?_
  rw [keysSent_reached]
  decide +kernel

theorem gpuBooked_draws :
    Along accessStep (Fleet.Draws drawnForAlice) {} (keysSent ++ [aliceBooksGPU]) := by
  have hAlice : normalizeUsername "alice" = .ok "alice" := by decide +kernel
  have hBob : normalizeUsername "bob" = .ok "bob" := by decide +kernel
  refine along_append.mpr ⟨⟨?_, ?_, trivial, ?_, trivial⟩, ⟨rfl, ?_⟩, trivial⟩
  · intro name hName
    obtain rfl := Except.ok.inj (hAlice.symm.trans hName)
    exact ⟨by decide, by decide, by decide +kernel⟩
  · intro name hName
    obtain rfl := Except.ok.inj (hBob.symm.trans hName)
    exact ⟨by decide, by decide, by decide +kernel⟩
  · intro i row hRow
    cases hRow
  · rw [keysSent_reached]
    intro token hToken hID
    rcases mem_cons.mp hToken with rfl | hOther
    · have hRow : drawnForAlice "res_1" = ownerOf "alice" := by decide +kernel
      exact ⟨by decide, by decide +kernel, fun _ => (by decide : IsHex "1"), fun _ => hRow⟩
    · rw [mem_singleton.mp hOther] at hID
      exact absurd hID (by decide)

theorem allowed_revocation_touches_own_alice :
    let node := (run accessStep {} (keysSent ++ [aliceBooksGPU])).node
    node.state = gpuBooked false ∧
      canRevoke aliceSession (keyStatus (.ok true) 30 node.state) "grp_1" = .ok true ∧
      (node.call accessCodec {} (.revoke "grp_1" 30)).1.state = gpuBooked true ∧
      RevokedOnly (fun name => sameOwner name "alice" = true) node.state
        (node.call accessCodec {} (.revoke "grp_1" 30)).1.state := by
  have hAllowed : canRevoke aliceSession (keyStatus (.ok true) 30 (gpuBooked false)) "grp_1" =
      .ok true := by
    decide +kernel
  have hRevoked : ((savedNode (gpuBooked false)).call accessCodec {} (.revoke "grp_1" 30)).1.state =
      gpuBooked true := by
    decide +kernel
  have hOwn := allowed_revocation_touches_own accessCodec joinIDs (fun _ => "mka_1") ascii_lower_lower
    gpuBooked_draws gpuBooked_reached.symm (by decide) hAllowed {} 30
  dsimp only
  rw [gpuBooked_reached]
  exact ⟨rfl, hAllowed, hRevoked, hOwn⟩

end Samples

end GPUardian
