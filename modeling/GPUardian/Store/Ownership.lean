import GPUardian.Store.Revoking

/-! Whose the rows of a node are. Ids and keys are random strings, so each of them was drawn
for one user. While the calls of a run draw them that way, a row, its id, its group and the
key it is bound to are all of the same user, and `Revoke` never leaves that user's rows. -/
namespace GPUardian

open GoStrings GoSlice List Option

/-- The form in which owners are compared. -/
def ownerOf [Unicode] (name : String) : String := toLower (trimSpace name)

/-- The id of a token, a reservation, a group or an authorization. It is not of the form of a
raw key, and not the id of a bypass rule or of a claim. -/
structure ScopeName (name : String) : Prop where
  trimmed : trimSpace name = name
  nonempty : name ≠ ""
  raw : hasPrefix name "gk_" = false
  bypass : hasPrefix name "bp_" = false
  claim : hasPrefix name "claim_" = false

theorem scopeName_append {lead hex : String}
    (hLead : lead ∈ ["tok_", "uk_", "res_", "grp_", "auth_"]) (hHex : IsHex hex) :
    ScopeName (lead ++ hex) := by
  have hTrimmed : trimSpace (lead ++ hex) = lead ++ hex := by
    refine trimSpace_append_hex ?_ hHex
    revert lead
    decide
  have hNonempty : lead ++ hex ≠ "" := by
    intro hEmpty
    have hLength := congrArg String.length hEmpty
    revert lead
    simp
  simp only [mem_cons, not_mem_nil, or_false] at hLead
  rcases hLead with rfl | rfl | rfl | rfl | rfl
  all_goals
    refine ⟨hTrimmed, hNonempty, ?_, ?_, ?_⟩
    all_goals simp [hasPrefix, String.toList_append, List.isPrefixOf]

variable [Unicode]

/-- A row whose id and key were drawn for its holder. -/
structure OwnedRow (user : String → String) (id hash holder : String) : Prop where
  named : ScopeName id
  id : user id = ownerOf holder
  hash : user hash = ownerOf holder
  held : ownerOf holder ≠ ""

/-- Every row of the state, with its id, its group and its key, is of one user. -/
structure Owned (user : String → String) (state : State) : Prop where
  tokens : ∀ token ∈ state.tokens, OwnedRow user token.id token.hash token.name
  reservations : ∀ row ∈ state.reservations, OwnedRow user row.id row.tokenHash row.holder
  groups : ∀ row ∈ state.reservations, row.groupID ≠ "" →
    ScopeName row.groupID ∧ user row.groupID = ownerOf row.holder
  authorizations : ∀ row ∈ state.authorizations, OwnedRow user row.id row.tokenHash row.holder
  bypasses : ∀ rule ∈ state.bypasses, hasPrefix rule.id "bp_" = true
  softClaims : ∀ claim ∈ state.softClaims, hasPrefix claim.id "claim_" = true
  leases : state.leases = []

theorem Owned.empty (user : String → String) : Owned user {} := by
  constructor
  case leases => rfl
  all_goals
    intro row hRow
    cases hRow

/-- Only rows of the user have changed, and those by being revoked. -/
structure RevokedOnly (mine : String → Prop) (before after : State) : Prop where
  tokens : List.Forall₂ (fun old new => new = old ∨ mine old.name ∧ new = { old with revoked := true })
    before.tokens after.tokens
  reservations : List.Forall₂
    (fun old new => new = old ∨ mine old.holder ∧ new = { old with revoked := true })
    before.reservations after.reservations
  authorizations : List.Forall₂
    (fun old new => new = old ∨ mine old.holder ∧ new = { old with revoked := true })
    before.authorizations after.authorizations
  rest : after = { before with
    tokens := after.tokens
    reservations := after.reservations
    authorizations := after.authorizations }

omit [Unicode] in
theorem RevokedOnly.refl (mine : String → Prop) (state : State) : RevokedOnly mine state state :=
  ⟨forall₂_same.mpr fun _ _ => .inl rfl, forall₂_same.mpr fun _ _ => .inl rfl,
    forall₂_same.mpr fun _ _ => .inl rfl, rfl⟩

omit [Unicode] in
theorem RevokedOnly.imp {mine own : String → Prop} (hImp : ∀ name, mine name → own name)
    {before after : State} (h : RevokedOnly mine before after) : RevokedOnly own before after :=
  ⟨h.tokens.imp fun _ _ hRow => hRow.imp_right (And.imp_left (hImp _)),
    h.reservations.imp fun _ _ hRow => hRow.imp_right (And.imp_left (hImp _)),
    h.authorizations.imp fun _ _ hRow => hRow.imp_right (And.imp_left (hImp _)), h.rest⟩

variable {name hash holder : String} {row : Reservation}

section Revoke

variable {user : String → String} {state : State} {id : String} {owner : String}

/-- The name is nothing's, or was drawn for the owner. -/
structure NameOf (user : String → String) (owner id : String) : Prop where
  trimmed : trimSpace id = id
  raw : hasPrefix id "gk_" = false
  bypass : hasPrefix id "bp_" = false
  claim : hasPrefix id "claim_" = false
  drawn : id ≠ "" → user id = owner

omit [Unicode] in
theorem ScopeName.nameOf {user : String → String} {id owner : String} (h : ScopeName id)
    (hUser : user id = owner) : NameOf user owner id :=
  ⟨h.trimmed, h.raw, h.bypass, h.claim, fun _ => hUser⟩

omit [Unicode] in
theorem nameOf_empty (user : String → String) (owner : String) : NameOf user owner "" :=
  ⟨by decide, by decide, by decide, by decide, absurd rfl⟩

/-- A row that has the name of the owner is the owner's. -/
theorem OwnedRow.of_id (h : OwnedRow user name hash holder) (hName : NameOf user owner id)
    (hID : name = id) : ownerOf holder = owner := by
  subst hID
  rw [← h.id]
  exact hName.drawn h.named.nonempty

/-- A selecting hash is empty or of the owner's key. -/
def HashOf (user : String → String) (owner hash : String) : Prop := hash = "" ∨ user hash = owner

theorem OwnedRow.of_revokes {tokenHash : String} (h : OwnedRow user name hash holder)
    (hName : NameOf user owner id) (hHash : HashOf user owner tokenHash)
    (hSelected : revokes id tokenHash name hash = true) : ownerOf holder = owner := by
  simp only [revokes, Bool.or_eq_true, Bool.and_eq_true, beq_iff_eq, bne_iff_ne] at hSelected
  rcases hSelected with hID | ⟨hNonempty, rfl⟩
  · exact h.of_id hName hID
  · rw [← h.hash]
    exact hHash.resolve_left hNonempty

/-- Whoever is revoked with a group that was drawn for the owner is the owner's. -/
theorem Owned.of_group (h : Owned user state) (hRow : row ∈ state.reservations)
    (hGroup : user (revocationGroup row) = owner) : ownerOf row.holder = owner := by
  unfold revocationGroup at hGroup
  split at hGroup
  · rw [← (h.reservations row hRow).id, hGroup]
  · rename_i hOwn
    rw [← (h.groups row hRow hOwn).2, hGroup]

/-- The group of one of the owner's reservations was drawn for the owner. -/
theorem Owned.group_of (h : Owned user state) (hRow : row ∈ state.reservations)
    (hOwner : ownerOf row.holder = owner) : user (revocationGroup row) = owner := by
  unfold revocationGroup
  split
  · rw [(h.reservations row hRow).id, hOwner]
  · rename_i hOwn
    rw [(h.groups row hRow hOwn).2, hOwner]

/-- The group that a name of the owner leads to. -/
theorem Owned.managedGroupID_of (h : Owned user state) (hName : NameOf user owner id)
    (hGroup : managedGroupID id state ≠ "") : user (managedGroupID id state) = owner := by
  unfold managedGroupID at hGroup ⊢
  dsimp only at hGroup ⊢
  cases hFind : state.reservations.find? fun row =>
      (state.tokens.any fun token => token.managed && token.hash == row.tokenHash) &&
        (row.id == id || revocationGroup row == id) with
  | none => simp [hFind] at hGroup
  | some row =>
    have hRow := mem_of_find?_eq_some hFind
    have hSelected := find?_some hFind
    rw [hFind] at hGroup
    simp only [map_some, getD_some] at hGroup ⊢
    simp only [Bool.and_eq_true, Bool.or_eq_true, beq_iff_eq] at hSelected
    rcases hSelected.2 with hID | hOwn
    · exact h.group_of hRow ((h.reservations row hRow).of_id hName hID)
    · rw [hOwn] at hGroup ⊢
      exact hName.drawn hGroup

theorem Owned.revokeGroup_only (h : Owned user state) {group : String} (hGroup : user group = owner) :
    RevokedOnly (fun name => ownerOf name = owner) state
      ((revokeGroup group state).edits.apply state) := by
  refine ⟨forall₂_same.mpr fun _ _ => .inl rfl, ?_, forall₂_same.mpr fun _ _ => .inl rfl,
    rfl⟩
  refine Edit.forall₂_update _ fun _ row hRow => ?_
  dsimp only
  split
  · rename_i hSelected
    simp only [Bool.and_eq_true, beq_iff_eq] at hSelected
    exact .inr ⟨h.of_group hRow (hSelected.1 ▸ hGroup), rfl⟩
  · exact .inl rfl

variable [Digest]

/-- The hash that `Revoke` starts with. -/
theorem Owned.revokedTokenHash_of (h : Owned user state) (hName : NameOf user owner id) :
    HashOf user owner (revokedTokenHash id state) := by
  have hRows : HashOf user owner
      (((state.reservations.find? (·.id == id)).map (·.tokenHash)).getD "") := by
    cases hRow : state.reservations.find? (·.id == id) with
    | none => exact .inl rfl
    | some row =>
      have hOwned := h.reservations row (mem_of_find?_eq_some hRow)
      have hID : row.id = id := by simpa using find?_some hRow
      exact .inr (hOwned.hash.trans (hOwned.of_id hName hID))
  unfold revokedTokenHash
  simp only [hName.raw, Bool.false_eq_true, if_false]
  cases hToken : state.tokens.find? fun token => revokes id "" token.id token.hash with
  | none => simpa using hRows
  | some token =>
    have hOwned := h.tokens token (mem_of_find?_eq_some hToken)
    have hSelected : revokes id "" token.id token.hash = true := by
      simpa using find?_some hToken
    dsimp only
    split
    · exact hRows
    · exact .inr (hOwned.hash.trans (hOwned.of_revokes hName (.inl rfl) hSelected))

omit [Unicode] [Digest] in
/-- A name without a lead is not a name with it. -/
theorem ne_of_hasPrefix {other lead : String} (hName : hasPrefix name lead = false)
    (hOther : hasPrefix other lead = true) : other ≠ name := by
  rintro rfl
  rw [hName] at hOther
  cases hOther

/-- By a name of a user only rows of that user are revoked. -/
theorem Owned.revokeRows_only (h : Owned user state) (hName : NameOf user owner id) (now : Time) :
    RevokedOnly (fun name => ownerOf name = owner) state
      ((revokeRows id now state).edits.apply state) := by
  have hToken : ∀ token ∈ state.tokens, ∀ hash, HashOf user owner hash →
      revokes id hash token.id token.hash = true → ownerOf token.name = owner :=
    fun token hToken _ hHash hSelected => (h.tokens token hToken).of_revokes hName hHash hSelected
  obtain ⟨hHash, hFlags⟩ := revokeTokenLoop_keeps (P := HashOf user owner)
    (fun token hMem hash hHash hSelected => .inr
      ((h.tokens token hMem).hash.trans (hToken token hMem hash hHash hSelected)))
    (h.revokedTokenHash_of hName)
  have hLeases : (revokeRows id now state).edits.leases.onList state.leases = state.leases := by
    rw [h.leases]
    rfl
  have hBypasses :
      (revokeRows id now state).edits.bypasses.onList state.bypasses = state.bypasses := by
    refine Edit.onList_update_self fun _ rule hRule => if_neg ?_
    simpa using ne_of_hasPrefix hName.bypass (h.bypasses rule hRule)
  have hClaims :
      (revokeRows id now state).edits.softClaims.onList state.softClaims = state.softClaims := by
    simp only [revokeRows]
    split
    · refine Edit.onList_filter_self fun claim hClaim => ?_
      simpa using ne_of_hasPrefix hName.claim (h.softClaims claim hClaim)
    · rfl
  constructor
  case tokens =>
    refine Edit.forall₂_update_at fun i token hMem => ?_
    split
    · obtain ⟨hash, hOwn, hSelected⟩ := hFlags i token hMem ‹_›
      exact .inr ⟨hToken token (mem_of_getElem? hMem) hash hOwn hSelected, rfl⟩
    · exact .inl rfl
  case reservations =>
    refine Edit.forall₂_update _ fun _ row hRow => ?_
    split
    · exact .inr ⟨(h.reservations row hRow).of_revokes hName hHash ‹_›, rfl⟩
    · exact .inl rfl
  case authorizations =>
    refine Edit.forall₂_update _ fun _ row hRow => ?_
    split
    · exact .inr ⟨(h.authorizations row hRow).of_revokes hName hHash ‹_›, rfl⟩
    · exact .inl rfl
  case rest =>
    unfold Edits.apply
    rw [hLeases, hBypasses, hClaims]
    rfl

/-- `Revoke` of a name of the owner changes nothing but rows of the owner. -/
theorem Owned.revoke_only (h : Owned user state) (hName : NameOf user owner id) (now : Time) :
    RevokedOnly (fun name => ownerOf name = owner) state ((revoke id now state).edits.apply state) := by
  unfold revoke
  rw [hName.trimmed]
  dsimp only
  split
  · exact h.revokeGroup_only (h.managedGroupID_of hName ‹_›)
  · exact h.revokeRows_only hName now

end Revoke

section Draws

variable (user : String → String)

/-- The name under which a token is registered. -/
def registeredName (name : String) : String :=
  if trimSpace name = "" then "anonymous" else trimSpace name

/-- A registration draws the id and the secret of its token for the owner. -/
structure DrawsToken [Digest] (fresh : Fresh) (name : String) : Prop where
  hex : IsHex fresh.tokenHex
  id : user ("tok_" ++ fresh.tokenHex) = ownerOf (registeredName name)
  hash : user (hashToken ("gk_" ++ fresh.secretHex)) = ownerOf (registeredName name)

/-- A booking draws the ids of its rows for the owner. -/
structure DrawsRowsFor (fresh : Fresh) (owner : String) : Prop where
  hex : ∀ i, IsHex (fresh.reservationHex i)
  id : ∀ i, user ("res_" ++ fresh.reservationHex i) = owner

/-- The id and the hash of a managed key were drawn for its owner. -/
structure OwnedKey (key : ManagedUserKey) : Prop where
  named : ScopeName (trimSpace key.id)
  id : user (trimSpace key.id) = normalizeHolder key.owner
  hash : user (toLower (trimSpace key.hash)) = normalizeHolder key.owner
  settled : ownerOf (normalizeHolder key.owner) = normalizeHolder key.owner

/-- What the daemon's calls bring: ids and secrets that were drawn for the user of the row,
keys that were drawn for their owners, and authorizations of such keys. -/
def DrawnFor [Digest] (state : State) : Op → Prop
  | .registerSoftToken _ fresh name _ => DrawsToken user fresh name
  | .registerScheduledReservationsWithSession _ fresh name _ _ _ _ _ _ =>
    DrawsToken user fresh name ∧ DrawsRowsFor user fresh (ownerOf (registeredName name))
  | .registerManagedReservations _ fresh userKeyID _ _ _ _ _ _ =>
    ∀ token ∈ state.tokens, token.id = trimSpace userKeyID →
      IsHex fresh.groupHex ∧ user ("grp_" ++ fresh.groupHex) = ownerOf token.name ∧
        DrawsRowsFor user fresh (ownerOf token.name)
  | .syncManagedUserKeys _ groupHex snapshot _ =>
    (∀ key ∈ snapshot.keys, OwnedKey user key) ∧
      ∀ i row, state.reservations[i]? = some row →
        IsHex (groupHex i) ∧ user ("grp_" ++ groupHex i) = ownerOf row.holder
  | .addAuthorization row _ => OwnedRow user row.id row.tokenHash row.holder
  | .upsertSoftClaim _ claim _ => claim.id = ""
  | .addBypass rule => hasPrefix rule.id "bp_" = true
  | op => op.daemon = true

end Draws

section Operations

variable {user : String → String} {state after : State}

theorem ownerOf_registeredName (name : String) : ownerOf (registeredName name) ≠ "" := by
  unfold registeredName
  split
  · have hTrimmed : trimSpace "anonymous" = "anonymous" := by decide
    rw [ownerOf, hTrimmed]
    exact toLower_ne_empty (by decide)
  · rename_i hName
    rw [ownerOf, trimSpace_trimSpace]
    exact toLower_ne_empty hName

variable {fresh : Fresh}

theorem DrawsToken.owned [Digest] (h : DrawsToken user fresh name) :
    OwnedRow user ("tok_" ++ fresh.tokenHex) (hashToken ("gk_" ++ fresh.secretHex))
      (registeredName name) :=
  ⟨scopeName_append (by decide) h.hex, h.id, h.hash, ownerOf_registeredName name⟩

omit [Unicode] in
theorem newToken_name [Unicode] [Digest] (secretHex idHex mode name : String) (expiresAt now : Time) :
    (newToken secretHex idHex mode name expiresAt now).name = registeredName name := by
  simp only [newToken, registeredName]

theorem DrawsToken.newToken_owned [Digest] (h : DrawsToken user fresh name) (mode : String)
    (expiresAt now : Time) {token : Token}
    (hToken : token = newToken fresh.secretHex fresh.tokenHex mode name expiresAt now) :
    OwnedRow user token.id token.hash token.name := by
  subst hToken
  rw [newToken_name]
  exact h.owned

/-- The columns that neither bookings nor key changes touch show no new scopes. -/
structure ScopesKept (before after : State) : Prop where
  authorizations : ∀ new ∈ after.authorizations, ∃ old ∈ before.authorizations,
    (new.id, new.tokenHash, new.holder) = (old.id, old.tokenHash, old.holder)
  bypasses : ∀ new ∈ after.bypasses, ∃ old ∈ before.bypasses, new.id = old.id
  softClaims : ∀ new ∈ after.softClaims, ∃ old ∈ before.softClaims, new.id = old.id
  leases : ∀ new ∈ after.leases, ∃ old ∈ before.leases, new.id = old.id

omit [Unicode] in
theorem ScopesKept.of_edits {edits : Edits}
    (hAuthorizations : edits.authorizations.KeepsKeys
      (fun row => (row.id, row.tokenHash, row.holder)) state.authorizations)
    (hBypasses : edits.bypasses.KeepsKeys (·.id) state.bypasses)
    (hClaims : edits.softClaims.KeepsKeys (·.id) state.softClaims)
    (hLeases : edits.leases.KeepsKeys (·.id) state.leases) : ScopesKept state (edits.apply state) :=
  ⟨fun _ => hAuthorizations.partner, fun _ => hBypasses.partner, fun _ => hClaims.partner,
    fun _ => hLeases.partner⟩

omit [Unicode] in
theorem ScopesKept.of_eq (hAuthorizations : after.authorizations = state.authorizations)
    (hBypasses : after.bypasses = state.bypasses) (hClaims : after.softClaims = state.softClaims)
    (hLeases : after.leases = state.leases) : ScopesKept state after := by
  constructor
  case authorizations => exact fun new hNew => ⟨new, hAuthorizations ▸ hNew, rfl⟩
  case bypasses => exact fun new hNew => ⟨new, hBypasses ▸ hNew, rfl⟩
  case softClaims => exact fun new hNew => ⟨new, hClaims ▸ hNew, rfl⟩
  case leases => exact fun new hNew => ⟨new, hLeases ▸ hNew, rfl⟩

/-- Rows and tokens have ended or are gone, and no scope is new. -/
theorem Owned.shrinks (h : Owned user state) (hAfter : Shrinks state after)
    (hScopes : ScopesKept state after) : Owned user after := by
  constructor
  case tokens =>
    intro token hToken
    obtain ⟨old, hOld, hRevoked⟩ := hAfter.tokens.partner hToken
    rw [hRevoked.same]
    exact h.tokens old hOld
  case reservations =>
    intro row hRow
    obtain ⟨old, hOld, hEnded⟩ := hAfter.rows.partner hRow
    rw [hEnded.same]
    exact h.reservations old hOld
  case groups =>
    intro row hRow
    obtain ⟨old, hOld, hEnded⟩ := hAfter.rows.partner hRow
    rw [hEnded.same]
    exact h.groups old hOld
  case authorizations =>
    intro row hRow
    obtain ⟨old, hOld, hSame⟩ := hScopes.authorizations row hRow
    simp only [Prod.mk.injEq] at hSame
    rw [hSame.1, hSame.2.1, hSame.2.2]
    exact h.authorizations old hOld
  case bypasses =>
    intro rule hRule
    obtain ⟨old, hOld, hID⟩ := hScopes.bypasses rule hRule
    exact hID ▸ h.bypasses old hOld
  case softClaims =>
    intro claim hClaim
    obtain ⟨old, hOld, hID⟩ := hScopes.softClaims claim hClaim
    exact hID ▸ h.softClaims old hOld
  case leases =>
    refine eq_nil_iff_forall_not_mem.mpr fun row hRow => ?_
    obtain ⟨old, hOld, _⟩ := hScopes.leases row hRow
    rw [h.leases] at hOld
    cases hOld

/-- Rows are booked for the owner, under a group of the owner's or none. -/
theorem Owned.books (h : Owned user state) {gpus : List Int}
    (hDraws : DrawsRowsFor user fresh (ownerOf row.holder))
    (hHash : user row.tokenHash = ownerOf row.holder) (hHeld : ownerOf row.holder ≠ "")
    (hGroup : row.groupID ≠ "" → ScopeName row.groupID ∧ user row.groupID = ownerOf row.holder) :
    Owned user
      { state with reservations := state.reservations ++ newReservations fresh row gpus } := by
  refine { h with
    reservations := forall_mem_append.mpr ⟨h.reservations, fun new hNew => ?_⟩
    groups := forall_mem_append.mpr ⟨h.groups, fun new hNew => ?_⟩ }
  all_goals obtain ⟨i, gpu, _, rfl⟩ := mem_newReservations hNew
  · exact ⟨scopeName_append (by decide) (hDraws.hex i), hDraws.id i, hHash, hHeld⟩
  · exact hGroup

omit [Unicode] in
theorem normalizeHolder_ne_empty [Unicode] (holder : String) : normalizeHolder holder ≠ "" := by
  unfold normalizeHolder
  dsimp only
  split
  · decide
  · assumption

/-- For a holder with a name, the two normal forms agree. -/
theorem normalizeHolder_eq (h : ownerOf holder ≠ "") : normalizeHolder holder = ownerOf holder := by
  unfold ownerOf at h
  simp only [normalizeHolder, ownerOf, if_neg h]

theorem OwnedKey.owned {key : ManagedUserKey} (h : OwnedKey user key) (now : Time) :
    OwnedRow user (managedToken now key).id (managedToken now key).hash (managedToken now key).name := by
  rw [managedToken_name, managedToken_hash]
  refine ⟨h.named, ?_, ?_, ?_⟩
  · rw [h.settled]
    exact h.id
  · rw [h.settled]
    exact h.hash
  · rw [h.settled]
    exact normalizeHolder_ne_empty key.owner

/-- The cutover binds rows to the keys of their holders and gives them groups of their holders. -/
theorem Owned.rebinds (h : Owned user state) {managed : List Token} (groupHex : Nat → String)
    (hGroups : ∀ i row, state.reservations[i]? = some row →
      IsHex (groupHex i) ∧ user ("grp_" ++ groupHex i) = ownerOf row.holder)
    (hManaged : ∀ token ∈ managed, OwnedRow user token.id token.hash token.name ∧
      ownerOf token.name = token.name) :
    Owned user { state with
      tokens := managed
      reservations := rebindReservations state.tokens managed groupHex state.reservations } := by
  refine { h with
    tokens := fun token hToken => (hManaged token hToken).1, reservations := ?_, groups := ?_ }
  · intro new hNew
    obtain ⟨i, old, _, hRow, rfl⟩ := mem_rebindReservations hNew
    have hOwned := h.reservations old hRow
    refine ⟨hOwned.named, hOwned.id, ?_, hOwned.held⟩
    simp only [rebindReservation]
    split
    · rename_i token hFind
      obtain ⟨hToken, hSettled⟩ := hManaged token (mem_of_find?_eq_some hFind)
      have hName : token.name = normalizeHolder old.holder := by simpa using find?_some hFind
      rw [hToken.hash, hSettled, hName, normalizeHolder_eq hOwned.held]
    · exact hOwned.hash
  · intro new hNew hGroup
    obtain ⟨i, old, hOld, hRow, rfl⟩ := mem_rebindReservations hNew
    simp only [rebindReservation] at hGroup ⊢
    split_ifs with hNone hUnknown
    · exact ⟨scopeName_append (by decide) (hGroups i old hOld).1, (hGroups i old hOld).2⟩
    · cases hFind : tokenByHash state.tokens old.tokenHash with
      | none => simp [hFind] at hUnknown
      | some token =>
        -- The old token has the hash of the row, so it is of the same user.
        obtain ⟨hToken, hHash⟩ := tokenByHash_mem hFind
        have hOwned := h.tokens token hToken
        refine ⟨hOwned.named, ?_⟩
        rw [map_some, getD_some, hOwned.id, ← hOwned.hash, hHash]
        exact (h.reservations old hRow).hash
    · exact h.groups old hRow hNone

variable [Digest]

/-- Operations other than bookings and key changes show no scope but the one they add. -/
theorem Op.scopesKept (op : Op) (h : op.narrowing = true) :
    ScopesKept state ((op.effect state).edits.apply state) ∨
      (∃ row now, op = .addAuthorization row now) ∨ (∃ rule, op = .addBypass rule) ∨
      ∃ hex claim now, op = .upsertSoftClaim hex claim now := by
  refine Op.edits_ind fun edits hEdited => ?_
  cases hEdited with
  | quiet => exact .inl (.of_eq rfl rfl rfl rfl)
  | old _ _ hOp => exact absurd (Op.daemon_of_narrowing h) (by simp [hOp])
  | issued | scheduled | managed | confirmed | cutOver => cases h
  | authorized row now => exact .inr (.inl ⟨row, now, rfl⟩)
  | bypassed rule => exact .inr (.inr (.inl ⟨rule, rfl⟩))
  | claimed hex claim now => exact .inr (.inr (.inr ⟨hex, claim, now, rfl⟩))
  | revokedGroup => exact .inl (.of_eq rfl rfl rfl rfl)
  | revokedRows =>
    refine .inl (.of_edits ?_ ?_ ?_ ?_)
    · exact Edit.keepsKeys_mark _ _ _ fun _ => rfl
    · exact Edit.keepsKeys_mark _ _ _ fun _ => rfl
    · simp only [revokeRows]
      split <;> trivial
    · exact Edit.keepsKeys_mark _ _ _ fun _ => rfl
  | scopes =>
    refine .inl (.of_edits ?_ trivial trivial ?_)
    · exact Edit.keepsKeys_mark _ _ _ fun _ => rfl
    · exact Edit.keepsKeys_mark _ _ _ fun _ => rfl
  | pruned =>
    refine .inl (.of_edits trivial trivial ?_ trivial)
    simp only [GPUardian.prune]
    split <;> trivial
  | activated | released => exact .inl (.of_edits (fun _ => rfl) trivial trivial trivial)
  | unclaimed => exact .inl (.of_edits trivial trivial trivial trivial)
  | prunedScopes =>
    exact .inl (.of_edits (filter_subset_self _) trivial trivial (filter_subset_self _))
  | prunedEntitlements => exact .inl (.of_eq rfl rfl rfl rfl)

omit [Digest] in
/-- A claim is stored under a new id of a claim, or under the id it has. -/
theorem Owned.upserts (h : Owned user state) {claim : SoftClaim} (claimHex : String) (now : Time)
    (hClaim : claim.id = "") :
    Owned user ((GPUardian.upsertSoftClaim claimHex claim now state).edits.apply state) := by
  unfold GPUardian.upsertSoftClaim
  dsimp only
  split
  · refine { h with softClaims := fun new hNew => ?_ }
    rcases mem_modifyFirst hNew with hOld | ⟨old, hOld, _, rfl⟩
    · exact h.softClaims new hOld
    · exact h.softClaims old hOld
  · refine { h with softClaims := forall_mem_concat.mpr ⟨h.softClaims, ?_⟩ }
    simp [hasPrefix, String.toList_append]

/-- A call that draws its ids and keys for the users of its rows keeps the state owned. -/
theorem Op.owned (op : Op) (hDraws : DrawnFor user state op) (h : Owned user state) :
    Owned user ((op.effect state).edits.apply state) := by
  by_cases hNarrowing : op.narrowing = true
  · have hShrinks := Op.shrinks state op hNarrowing
    rcases Op.scopesKept op hNarrowing with
      hKept | ⟨row, now, rfl⟩ | ⟨rule, rfl⟩ | ⟨hex, claim, now, rfl⟩
    · exact h.shrinks hShrinks hKept
    · simp only [effect, GPUardian.addAuthorization]
      repeat' split
      all_goals try exact h
      exact { h with authorizations := forall_mem_concat.mpr ⟨h.authorizations, hDraws⟩ }
    · simp only [effect, GPUardian.addBypass]
      split
      · exact h
      · exact { h with bypasses := forall_mem_concat.mpr ⟨h.bypasses, hDraws⟩ }
    · exact h.upserts hex now hDraws
  refine Op.edits_ind fun edits hEdited => ?_
  cases hEdited with
  | quiet => exact h
  | issued =>
    refine { h with tokens := forall_mem_concat.mpr ⟨h.tokens, ?_⟩ }
    exact DrawsToken.newToken_owned hDraws _ _ _ rfl
  | scheduled _ fresh _ _ _ _ _ _ _ token hNew =>
    have hToken := hDraws.1.newToken_owned _ _ _ hNew
    have hRows : DrawsRowsFor user fresh (ownerOf token.name) := by
      rw [hNew, newToken_name]
      exact hDraws.2
    have hIssued : Owned user { state with tokens := state.tokens ++ [token] } :=
      { h with tokens := forall_mem_concat.mpr ⟨h.tokens, hToken⟩ }
    exact hIssued.books hRows hToken.hash hToken.held (absurd rfl)
  | managed _ _ _ _ _ _ _ _ _ token hToken hID =>
    obtain ⟨hHex, hGroup, hRows⟩ := hDraws token hToken hID
    have hOwned := h.tokens token hToken
    exact h.books hRows hOwned.hash hOwned.held
      fun _ => ⟨scopeName_append (by decide) hHex, hGroup⟩
  | confirmed => exact { h with }
  | cutOver _ groupHex _ now managed _ hAdmitted =>
    refine { h.rebinds groupHex hDraws.2 (fun token hToken => ?_) with }
    obtain ⟨key, hKey, rfl⟩ := admitManagedKeys_mem hAdmitted hToken
    have hOwned := hDraws.1 key hKey
    refine ⟨hOwned.owned now, ?_⟩
    rw [managedToken_name]
    exact hOwned.settled
  | old op _ hOp => cases op <;> first | (cases hOp; done) | cases hDraws
  | _ => exact absurd rfl hNarrowing

end Operations

end GPUardian
