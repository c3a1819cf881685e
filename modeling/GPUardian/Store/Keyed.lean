import GPUardian.Store.Backing
import GPUardian.Store.Groups

/-! Rows and the keys they belong to. A key is revoked only together with its rows; while the node
issues the keys itself, a row has a key that ends with it, and once a gateway manages them, every
row has a group of its own and no key ends by itself. -/
namespace GPUardian

open GoStrings GoSlice List Option

structure Keyed (state : State) : Prop where
  tokenIDs : (state.tokens.map (·.id)).Nodup
  named : ∀ token ∈ state.tokens, token.hash ≠ "" ∧ token.id ≠ ""
  notSecret : ∀ token ∈ state.tokens, hasPrefix token.id "gk_" = false
  revoked : ∀ token ∈ state.tokens, token.revoked = true →
    ∀ row ∈ state.reservations, row.tokenHash = token.hash → row.revoked = true
  node : state.managedKeys = false → ∀ row ∈ state.reservations, row.groupID = "" ∧
    ∃ token ∈ state.tokens, token.hash = row.tokenHash ∧ token.expiresAt = row.expiresAt
  managed : state.managedKeys = true → (∀ row ∈ state.reservations, row.groupID ≠ "") ∧
    ∀ token ∈ state.tokens, token.expiresAt = 0

/-- The call gives a token an id that is not in use, and a snapshot names no key like a secret. -/
def Op.NamesKeys (state : State) : Op → Prop
  | .registerSoftToken _ fresh _ _ | .registerScheduledReservationsWithSession _ fresh _ _ _ _ _ _ _ =>
    "tok_" ++ fresh.tokenHex ∉ state.tokens.map (·.id)
  | .syncManagedUserKeys _ _ snapshot _ =>
    ∀ key ∈ snapshot.keys, hasPrefix (trimSpace key.id) "gk_" = false
  | _ => True

instance (state : State) : (op : Op) → Decidable (op.NamesKeys state)
  | .registerSoftToken .. => inferInstanceAs (Decidable (_ ∉ _))
  | .registerScheduledReservationsWithSession .. => inferInstanceAs (Decidable (_ ∉ _))
  | .syncManagedUserKeys .. => inferInstanceAs (Decidable (∀ key ∈ _, _))
  | .registerToken .. | .registerManagedReservations .. | .addLease .. | .updateLease ..
  | .releaseLease .. | .addReservation .. | .releaseReservation .. | .addAuthorization ..
  | .updateAuthorization .. | .activateAuthorization .. | .releaseAuthorization ..
  | .releaseScopes .. | .upsertSoftClaim .. | .releaseSoftClaim .. | .addBypass ..
  | .revoke .. | .prune .. | .pruneInactiveManagedScopes ..
  | .pruneUnreferencedInvalidEntitlements .. => isTrue trivial

namespace Keyed

variable {state after : State}

theorem empty : Keyed {} where
  tokenIDs := nodup_nil
  named _ h := absurd h not_mem_nil
  notSecret _ h := absurd h not_mem_nil
  revoked _ h := absurd h not_mem_nil
  node _ _ h := absurd h not_mem_nil
  managed h := nomatch h

/-- Rows and tokens end or go. -/
theorem shrinks (h : Keyed state) (hAfter : Shrinks state after)
    (hRevoked : ∀ token ∈ after.tokens, token.revoked = true →
      ∀ row ∈ after.reservations, row.tokenHash = token.hash → row.revoked = true)
    (hNode : state.managedKeys = false → ∀ row ∈ after.reservations,
      ∃ token ∈ after.tokens, token.hash = row.tokenHash ∧ token.expiresAt = row.expiresAt) :
    Keyed after where
  tokenIDs := h.tokenIDs.sublist (hAfter.tokens.map_sublist fun old new hFrom => by rw [hFrom.same])
  named token hToken := by
    obtain ⟨old, hOld, hFrom⟩ := hAfter.tokens.partner hToken
    rw [hFrom.same]
    exact h.named old hOld
  notSecret token hToken := by
    obtain ⟨old, hOld, hFrom⟩ := hAfter.tokens.partner hToken
    rw [hFrom.same]
    exact h.notSecret old hOld
  revoked := hRevoked
  node hUnmanaged row hRow := by
    have hBefore := hAfter.managedKeys ▸ hUnmanaged
    obtain ⟨old, hOld, hEnded⟩ := hAfter.rows.partner hRow
    refine ⟨?_, hNode hBefore row hRow⟩
    rw [hEnded.same]
    exact (h.node hBefore old hOld).1
  managed hManaged := by
    obtain ⟨hGroups, hLasting⟩ := h.managed (hAfter.managedKeys ▸ hManaged)
    refine ⟨fun row hRow => ?_, fun token hToken => ?_⟩
    · obtain ⟨old, hOld, hEnded⟩ := hAfter.rows.partner hRow
      rw [hEnded.same]
      exact hGroups old hOld
    · obtain ⟨old, hOld, hFrom⟩ := hAfter.tokens.partner hToken
      rw [hFrom.same]
      exact hLasting old hOld

/-- Rows end, and the tokens stay. -/
theorem ends (h : Keyed state) (hAfter : Shrinks state after)
    (hTokens : after.tokens = state.tokens) : Keyed after := by
  refine h.shrinks hAfter ?_ ?_
  · intro token hToken hRevoked row hRow hHash
    obtain ⟨old, hOld, hEnded⟩ := hAfter.rows.partner hRow
    rw [hEnded.same] at hHash
    exact hEnded.revoked (h.revoked token (hTokens ▸ hToken) hRevoked old hOld hHash)
  · intro hNode row hRow
    obtain ⟨old, hOld, hEnded⟩ := hAfter.rows.partner hRow
    rw [hTokens, hEnded.same]
    exact (h.node hNode old hOld).2

section Operations

variable [Unicode] [Digest] {clock : Time}

omit [Unicode] in
/-- A token that has the name is the one whose hash the call begins with. -/
theorem revokedTokenHash_of_id (h : Keyed state) {id : String} {token : Token}
    (hToken : token ∈ state.tokens) (hID : token.id = id) :
    token.hash = revokedTokenHash id state := by
  have hPlain : hasPrefix id "gk_" = false := hID ▸ h.notSecret token hToken
  have hFind : (state.tokens.find? fun other => revokes id "" other.id other.hash) = some token :=
    find?_of_nodup h.tokenIDs hToken (by simp [revokes, hID]) fun other _ hOther => by
      simpa [revokes, hID] using hOther
  simp [revokedTokenHash, hPlain, hFind, (h.named token hToken).1]

omit [Unicode] in
/-- A revocation by rows keeps rows and keys together. -/
theorem revokesRows (h : Keyed state) {id : String} {now : Time}
    (hShrinks : Shrinks state ((revokeRows id now state).edits.apply state)) :
    Keyed ((revokeRows id now state).edits.apply state) := by
  have hTokens : List.Forall₂ (fun old new => RevokedFrom old new ∧ (new.revoked = true →
      old.revoked = true ∨ old.hash = (revokeTokenLoop id (revokedTokenHash id state)
        state.tokens).2)) state.tokens ((revokeRows id now state).edits.apply state).tokens := by
    have hStep : ∀ token ∈ state.tokens, ∀ hash, hash = revokedTokenHash id state →
        revokes id hash token.id token.hash = true → token.hash = revokedTokenHash id state := by
      intro token hToken hash hHash hSelected
      by_cases hID : token.id = id
      · exact h.revokedTokenHash_of_id hToken hID
      · exact (hash_of_revokes hID hSelected).trans hHash
    obtain ⟨hEnd, hFlags⟩ := revokeTokenLoop_keeps hStep rfl
    refine Edit.forall₂_update_at fun i token hToken => ⟨revokedFrom_revoked token _, ?_⟩
    split
    · rename_i hFlag
      obtain ⟨hash, hHash, hSelected⟩ := hFlags i token hToken hFlag
      rw [hStep token (mem_of_getElem? hToken) hash hHash hSelected]
      exact fun _ => .inr hEnd.symm
    · exact .inl
  refine h.shrinks hShrinks ?_ ?_
  · intro token hToken hRevoked row hRow hHash
    obtain ⟨old, hOld, hFrom, hWhy⟩ := forall₂_partner hTokens.flip hToken
    have hSameHash : token.hash = old.hash := by rw [hFrom.same]
    have hRows : List.Forall₂ (fun before after => EndedFrom before after ∧
        (revokes id (revokeTokenLoop id (revokedTokenHash id state) state.tokens).2 before.id
          before.tokenHash = true → after.revoked = true)) state.reservations
        ((revokeRows id now state).edits.apply state).reservations := by
      refine Edit.forall₂_update _ fun i row _ => ⟨endedFrom_revoked row _, fun hSelected => ?_⟩
      rw [if_pos hSelected]
    obtain ⟨before, hBefore, hEnded, hMarked⟩ := forall₂_partner hRows.flip hRow
    have hBeforeHash : before.tokenHash = old.hash := by
      rw [← hSameHash, ← hHash, hEnded.same]
    rcases hWhy hRevoked with hAlready | hNow
    · exact hEnded.revoked (h.revoked old hOld hAlready before hBefore hBeforeHash)
    · refine hMarked ?_
      simp [revokes, ← hNow, (h.named old hOld).1, hBeforeHash]
  · intro hNode row hRow
    obtain ⟨before, hBefore, hEnded⟩ := hShrinks.rows.partner hRow
    obtain ⟨_, old, hOld, hHash, hExpires⟩ := h.node hNode before hBefore
    obtain ⟨token, hToken, hFrom, _⟩ := forall₂_partner hTokens hOld
    refine ⟨token, hToken, ?_⟩
    rw [hFrom.same, hEnded.same]
    exact ⟨hHash, hExpires⟩

omit [Unicode] [Digest] in
/-- Rows and tokens are removed, and a row that stays has a token that stays. -/
theorem thins (h : Keyed state) (hShrinks : Shrinks state after)
    (hRows : after.reservations ⊆ state.reservations) (hTokens : after.tokens ⊆ state.tokens)
    (hKept : ∀ row ∈ after.reservations, ∀ token ∈ state.tokens, token.hash = row.tokenHash →
      token.expiresAt = row.expiresAt → token ∈ after.tokens) : Keyed after := by
  refine h.shrinks hShrinks ?_ ?_
  · intro token hToken hRevoked row hRow hHash
    exact h.revoked token (hTokens hToken) hRevoked row (hRows hRow) hHash
  · intro hNode row hRow
    obtain ⟨_, token, hToken, hHash, hExpires⟩ := h.node hNode row (hRows hRow)
    exact ⟨token, hKept row hRow token hToken hHash hExpires, hHash, hExpires⟩

omit [Digest] in
theorem prune_token (h : Keyed state) {now : Time} {row : Reservation}
    (hRow : prunesReservation state now row = false) {token : Token} (hToken : token ∈ state.tokens)
    (hHash : token.hash = row.tokenHash) : prunesToken state now token = false :=
  expiredTokenHash_eq_false.mp (prunesReservation_eq_false.mp hRow).2 token hToken hHash
    (hHash ▸ (h.named token hToken).1)

/-- Calls that neither book nor issue keys keep rows and keys together. -/
theorem narrows (h : Keyed state) (hHashes : (state.tokens.map (·.hash)).Nodup) {op : Op}
    (hNarrowing : op.narrowing = true) : Keyed ((op.effect state).edits.apply state) := by
  have hShrinks := Op.shrinks state op hNarrowing
  have hEdited := op.edited state
  generalize (op.effect state).edits = edits at hEdited hShrinks
  cases hEdited with
  | old _ _ hOld => exact absurd (Op.daemon_of_narrowing hNarrowing) (by simp [hOld])
  | issued | scheduled | managed | confirmed | cutOver => cases hNarrowing
  | revokedRows => exact h.revokesRows hShrinks
  | pruned now =>
    refine h.thins hShrinks (filter_subset_self _) (filter_subset_self _) ?_
    intro row hRow token hToken hHash _
    exact mem_kept.mpr ⟨hToken, h.prune_token (mem_kept.mp hRow).2 hToken hHash⟩
  | prunedEntitlements now =>
    refine h.thins hShrinks (filter_subset_self _) (filter_subset_self _) ?_
    intro row hRow token hToken hHash hExpires
    obtain ⟨hStored, hKept⟩ := mem_filter.mp hRow
    refine mem_filter.mpr ⟨hToken, ?_⟩
    rw [tokenByHash_of_mem hHashes hToken, map_some, getD_some, hHash]
    cases hNeeded : referencedTokenHash state row.tokenHash with
    | true => simp
    | false =>
      simp only [hNeeded, Bool.not_false, Bool.and_true, Bool.not_eq_true',
        Bool.or_eq_false_iff, Bool.not_eq_false', decide_eq_true_eq] at hKept
      have hLive : token.revoked = false := by
        cases hRevoked : token.revoked with
        | false => rfl
        | true => rw [h.revoked token hToken hRevoked row hStored hHash.symm] at hKept; simp at hKept
      simp [tokenActiveAt, tokenExpired, hLive, hExpires, hKept.2]
  | _ => exact h.ends hShrinks rfl

omit [Unicode] [Digest] in
/-- A new token of the node. -/
theorem issues (h : Keyed state) (token : Token) (hID : token.id ∉ state.tokens.map (·.id))
    (hName : hasPrefix token.id "tok_" = true) (hHash : token.hash ≠ "") (hLive : token.revoked = false)
    (hLasting : state.managedKeys = true → token.expiresAt = 0) :
    Keyed { state with tokens := state.tokens ++ [token] } where
  tokenIDs := nodup_map_append_singleton h.tokenIDs hID
  named := by
    refine forall_mem_concat.mpr ⟨h.named, hHash, fun hEmpty => ?_⟩
    rw [hEmpty] at hName
    exact absurd hName (by decide)
  notSecret := by
    refine forall_mem_concat.mpr ⟨h.notSecret, ?_⟩
    obtain ⟨rest, hRest⟩ := isPrefixOf_iff_prefix.mp hName
    simp [hasPrefix, ← hRest, List.isPrefixOf]
  revoked := forall_mem_concat.mpr ⟨h.revoked, fun hRevoked => absurd hRevoked (by simp [hLive])⟩
  node hNode row hRow := by
    obtain ⟨hGroup, old, hOld, hOwn⟩ := h.node hNode row hRow
    exact ⟨hGroup, old, mem_append_left _ hOld, hOwn⟩
  managed hKeys := by
    obtain ⟨hGroups, hOthers⟩ := h.managed hKeys
    exact ⟨hGroups, forall_mem_concat.mpr ⟨hOthers, hLasting hKeys⟩⟩

omit [Unicode] [Digest] in
/-- New rows of a token that is stored and not revoked. -/
theorem books (h : Keyed state) (hHashes : (state.tokens.map (·.hash)).Nodup) (token : Token)
    (hToken : token ∈ state.tokens) (hLive : token.revoked = false) {rows : List Reservation}
    (hOwn : ∀ row ∈ rows, row.tokenHash = token.hash)
    (hNode : state.managedKeys = false →
      ∀ row ∈ rows, row.groupID = "" ∧ row.expiresAt = token.expiresAt)
    (hGroup : state.managedKeys = true → ∀ row ∈ rows, row.groupID ≠ "") :
    Keyed { state with reservations := state.reservations ++ rows } :=
  { h with
    revoked := by
      intro other hOther hRevoked
      refine forall_mem_append.mpr ⟨h.revoked other hOther hRevoked, fun row hNew hHash => ?_⟩
      have hSame : other = token := inj_on_of_nodup_map hHashes hOther hToken
        (hHash.symm.trans (hOwn row hNew))
      rw [hSame, hLive] at hRevoked
      cases hRevoked
    node := by
      intro hUnmanaged
      refine forall_mem_append.mpr ⟨h.node hUnmanaged, fun row hNew => ?_⟩
      obtain ⟨hNone, hExpires⟩ := hNode hUnmanaged row hNew
      exact ⟨hNone, token, hToken, (hOwn row hNew).symm, hExpires.symm⟩
    managed := by
      intro hKeys
      obtain ⟨hGroups, hLasting⟩ := h.managed hKeys
      exact ⟨forall_mem_append.mpr ⟨hGroups, hGroup hKeys⟩, hLasting⟩ }

omit [Digest] in
/-- A row gets the group of its token, or a new one. -/
theorem rebindReservation_group (tokens managed : List Token) (groupHex : Nat → String) (i : Nat)
    (row : Reservation) : (rebindReservation tokens managed groupHex i row).groupID ≠ "" := by
  simp only [rebindReservation]
  split_ifs with hNone hUnknown
  · intro hEmpty
    simpa using congrArg String.toList hEmpty
  · exact hUnknown
  · exact hNone

omit [Digest] in
theorem cutsOver {now : Time} {keys : List ManagedUserKey} {managed : List Token}
    {groupHex : Nat → String} (hAdmitted : admitManagedKeys now [] keys = .ok managed)
    (hNames : ∀ key ∈ keys, hasPrefix (trimSpace key.id) "gk_" = false)
    (hManagedKeys : after.managedKeys = true) (hTokens : after.tokens = managed)
    (hRows : after.reservations =
      rebindReservations state.tokens managed groupHex state.reservations) : Keyed after := by
  have hKeys : ∀ token ∈ managed, hasPrefix token.id "gk_" = false ∧ token.revoked = false ∧
      token.expiresAt = 0 := by
    intro token hToken
    obtain ⟨key, hKey, rfl⟩ := admitManagedKeys_mem hAdmitted hToken
    exact ⟨managedToken_id now key ▸ hNames key hKey, rfl, rfl⟩
  subst hTokens
  constructor
  case tokenIDs => exact (admitManagedKeys_ok hAdmitted).2.ids
  case named =>
    intro token hToken
    obtain ⟨hHash, hID, _⟩ := (admitManagedKeys_ok hAdmitted).2.filled token hToken
    exact ⟨hHash, hID⟩
  case notSecret => exact fun token hToken => (hKeys token hToken).1
  case revoked =>
    intro token hToken hRevoked
    rw [(hKeys token hToken).2.1] at hRevoked
    cases hRevoked
  case node => exact fun hNode => absurd hManagedKeys (by simp [hNode])
  case managed =>
    refine fun _ => ⟨fun row hRow => ?_, fun token hToken => (hKeys token hToken).2.2⟩
    obtain ⟨i, old, _, _, rfl⟩ := mem_rebindReservations (hRows ▸ hRow)
    exact rebindReservation_group _ _ _ _ _

end Operations

end Keyed

/-- Careful calls with new names keep rows and keys together. -/
theorem Op.keyed [Unicode] [Digest] (hDigest : ∀ hex, hashToken ("gk_" ++ hex) ≠ "") {clock : Time}
    {state : State} {op : Op} (hOp : op.Careful clock state) (hNames : op.NamesKeys state)
    (hBacked : Backed clock state) (h : Keyed state) :
    Keyed ((op.effect state).edits.apply state) := by
  by_cases hNarrowing : op.narrowing = true
  · exact h.narrows hBacked.hashes hNarrowing
  refine Op.edits_ind fun edits hEdited => ?_
  cases hEdited with
  | quiet => exact h
  | issued _ fresh name now =>
    exact h.issues (newToken fresh.secretHex fresh.tokenHex tokenModeClaimed name 0 now) hNames
      (hasPrefix_append "tok_" _) (hDigest _) rfl fun _ => rfl
  | scheduled _ fresh name _ _ _ _ expiresAt now token hToken =>
    subst hToken
    obtain ⟨hNode, _, hHash, _⟩ := hOp
    let token := newToken fresh.secretHex fresh.tokenHex tokenModeReserved name expiresAt now
    have hIssued : Keyed { state with tokens := state.tokens ++ [token] } :=
      h.issues token hNames (hasPrefix_append "tok_" _) (hDigest _) rfl
        fun hManaged => absurd hManaged (by simp [hNode])
    refine hIssued.books (nodup_map_append_singleton hBacked.hashes hHash) token
      (mem_append_right _ (mem_singleton_self _)) rfl (fun row hRow => ?_)
      (fun _ row hRow => ?_) (fun hManaged => absurd hManaged (by simp [hNode]))
    all_goals obtain ⟨i, gpu, _, rfl⟩ := mem_newReservations hRow
    · rfl
    · exact ⟨rfl, rfl⟩
  | managed _ _ _ _ _ _ _ _ _ token hToken _ hManaged hLive =>
    have hKeys : state.managedKeys ≠ false := fun hNode => by
      rw [(hBacked.nodeTokens hNode token hToken).1] at hManaged
      cases hManaged
    refine h.books hBacked.hashes token hToken hLive (fun row hRow => ?_)
      (fun hNode => absurd hNode hKeys) fun _ row hRow hEmpty => ?_
    all_goals obtain ⟨i, gpu, _, rfl⟩ := mem_newReservations hRow
    · rfl
    · exact absurd (congrArg String.toList hEmpty) (by simp [reservationRow])
  | confirmed => exact { h with }
  | cutOver _ _ _ _ _ _ hAdmitted => exact .cutsOver hAdmitted hNames rfl rfl rfl
  | old op _ hOld => cases op <;> first | (cases hOld; done) | cases hOp
  | _ => exact absurd rfl hNarrowing

end GPUardian
