import GPUardian.Store.Authorizations
import GPUardian.Store.Revoking

/-! Reserved keys and their rows. A key that is issued with a booking has a row for as long as
the booking lasts: it is not revoked without its rows, and its rows are not revoked, released or
pruned before it. -/
namespace GPUardian

open GoStrings GoSlice List

/-- The row stands behind the key. -/
structure Backs (token : Token) (row : Reservation) : Prop where
  tokenHash : row.tokenHash = token.hash
  active : row.active = true
  revoked : row.revoked = false
  expiresAt : row.expiresAt = token.expiresAt

/-- What the store keeps of its keys and names up to the given time. Before the keys are managed,
every token is one of the node; afterwards none is a reserved key. -/
structure Backed [Unicode] (clock : Time) (state : State) : Prop where
  hashes : (state.tokens.map (·.hash)).Nodup
  rows : (state.reservations.map (·.id)).Nodup
  ids : (state.authorizations.map (·.id)).Nodup
  rowNames : ∀ row ∈ state.reservations, hasPrefix row.id "res_" = true
  nodeTokens : state.managedKeys = false →
    ∀ token ∈ state.tokens, token.managed = false ∧ hasPrefix token.id "tok_" = true
  managedTokens : state.managedKeys = true →
    ∀ token ∈ state.tokens, normalizeTokenMode token.mode ≠ tokenModeReserved
  reserved : ∀ token ∈ state.tokens, normalizeTokenMode token.mode = tokenModeReserved →
    0 < token.expiresAt ∧ (token.hash ≠ "" → token.revoked = false → clock < token.expiresAt →
      ∃ row ∈ state.reservations, Backs token row)

/-- The rows behind keys that are still there and live are still there. -/
def KeepsBacking [Unicode] (clock : Time) (state after : State) : Prop :=
  ∀ token ∈ after.tokens, normalizeTokenMode token.mode = tokenModeReserved →
    token.hash ≠ "" → token.revoked = false → clock < token.expiresAt →
    ∀ row ∈ state.reservations, Backs token row → row ∈ after.reservations

theorem hasPrefix_append (lead rest : String) : hasPrefix (lead ++ rest) lead = true := by
  simp [hasPrefix, String.toList_append]

/-- The names of rows and of tokens are apart. -/
theorem rowName_ne_tokenName {a b : String} (ha : hasPrefix a "res_" = true)
    (hb : hasPrefix b "tok_" = true) : a ≠ b := by
  rintro rfl
  obtain ⟨rest, hRest⟩ := isPrefixOf_iff_prefix.mp ha
  obtain ⟨other, hOther⟩ := isPrefixOf_iff_prefix.mp hb
  rw [← hRest] at hOther
  simp at hOther

section Revoke

/-- The loop ends with the hash it began with or with that of a selected token. -/
theorem revokeTokenLoop_end (id tokenHash : String) (tokens : List Token) :
    (revokeTokenLoop id tokenHash tokens).2 = tokenHash ∨
      ∃ token ∈ tokens, (revokeTokenLoop id tokenHash tokens).2 = token.hash :=
  (revokeTokenLoop_keeps (P := fun hash => hash = tokenHash ∨ ∃ token ∈ tokens, hash = token.hash)
    (fun token hToken _ _ _ => .inr ⟨token, hToken, rfl⟩) (.inl rfl)).1

/-- Where hashes are distinct, the token whose rows are revoked is revoked with them. -/
theorem revokeTokenLoop_revokes {id tokenHash : String} {tokens : List Token}
    (hDistinct : (tokens.map (·.hash)).Nodup) {i : Nat} {token : Token}
    (hToken : tokens[i]? = some token) (hNamed : token.hash ≠ "")
    (hEnd : (revokeTokenLoop id tokenHash tokens).2 = token.hash) :
    (revokeTokenLoop id tokenHash tokens).1.getD i false = true := by
  induction tokens generalizing tokenHash i with
  | nil => simp at hToken
  | cons first tokens ih =>
    have hRest := (nodup_cons.mp hDistinct).2
    unfold revokeTokenLoop at hEnd ⊢
    split at hEnd
    · rename_i hSelected
      rw [if_pos hSelected]
      cases i with
      | zero => rfl
      | succ i => exact ih hRest hToken hEnd
    · rename_i hSkipped
      rw [if_neg hSkipped]
      cases i with
      | succ i => exact ih hRest hToken hEnd
      | zero =>
        obtain rfl := Option.some.inj hToken
        rcases revokeTokenLoop_end id tokenHash tokens with hSame | ⟨other, hOther, hHash⟩
        · rw [hSame] at hEnd
          exact absurd (show revokes id tokenHash first.id first.hash = true by
            simp [revokes, hEnd, hNamed]) hSkipped
        · refine absurd ?_ (nodup_cons.mp hDistinct).1
          exact mem_map.mpr ⟨other, hOther, hHash.symm.trans hEnd⟩

end Revoke

namespace Backed

variable [Unicode] {clock : Time} {state after : State}

theorem empty : Backed clock {} where
  hashes := nodup_nil
  rows := nodup_nil
  ids := nodup_nil
  rowNames _ h := absurd h not_mem_nil
  nodeTokens _ _ h := absurd h not_mem_nil
  managedTokens _ _ h := absurd h not_mem_nil
  reserved _ h := absurd h not_mem_nil

theorem later {time : Time} (h : Backed clock state) (hTime : clock ≤ time) : Backed time state :=
  { h with
    reserved := by
      intro token hToken hMode
      obtain ⟨hSet, hBacked⟩ := h.reserved token hToken hMode
      exact ⟨hSet, fun hNamed hLive hBefore => hBacked hNamed hLive (lt_of_le_of_lt hTime hBefore)⟩ }

/-- Rows and tokens end, and a row that stands behind a key which is still there stays as it
is. -/
theorem shrinks (h : Backed clock state) (hAfter : Shrinks state after)
    (hIDs : (after.authorizations.map (·.id)).Nodup) (hKept : KeepsBacking clock state after) :
    Backed clock after where
  hashes := h.hashes.sublist (hAfter.tokens.map_sublist fun old new hRevoked => by
    rw [hRevoked.same])
  rows := h.rows.sublist (hAfter.rows.map_sublist fun old new hEnded => by rw [hEnded.same])
  ids := hIDs
  rowNames row hRow := by
    obtain ⟨old, hOld, hEnded⟩ := hAfter.rows.partner hRow
    rw [hEnded.same]
    exact h.rowNames old hOld
  nodeTokens hManaged token hToken := by
    obtain ⟨old, hOld, hRevoked⟩ := hAfter.tokens.partner hToken
    rw [hRevoked.same]
    exact h.nodeTokens (hAfter.managedKeys ▸ hManaged) old hOld
  managedTokens hManaged token hToken := by
    obtain ⟨old, hOld, hRevoked⟩ := hAfter.tokens.partner hToken
    rw [hRevoked.same]
    exact h.managedTokens (hAfter.managedKeys ▸ hManaged) old hOld
  reserved token hToken hMode := by
    obtain ⟨old, hOld, hRevoked⟩ := hAfter.tokens.partner hToken
    have hSame := hRevoked.same
    have hOldMode : normalizeTokenMode old.mode = tokenModeReserved := by
      rw [hSame] at hMode
      exact hMode
    obtain ⟨hSet, hBacked⟩ := h.reserved old hOld hOldMode
    have hExpires : token.expiresAt = old.expiresAt := by rw [hSame]
    have hHash : token.hash = old.hash := by rw [hSame]
    refine ⟨hExpires ▸ hSet, fun hNamed hLive hBefore => ?_⟩
    have hOldLive : old.revoked = false := by
      cases hOldRevoked : old.revoked with
      | false => rfl
      | true => rw [hRevoked.revoked hOldRevoked] at hLive; cases hLive
    obtain ⟨row, hRow, hBacks⟩ := hBacked (hHash ▸ hNamed) hOldLive (hExpires ▸ hBefore)
    have hBacksToken : Backs token row :=
      ⟨hHash ▸ hBacks.tokenHash, hBacks.active, hBacks.revoked, hExpires ▸ hBacks.expiresAt⟩
    exact ⟨row, hKept token hToken hMode hNamed hLive hBefore row hRow hBacksToken, hBacksToken⟩

end Backed

/-- The call draws new names, books with a key of the node only where the keys are not managed,
releases no row that lasts, and prunes at no later time. -/
def Op.Careful [Digest] (clock : Time) (state : State) : Op → Prop
  | .registerSoftToken _ fresh _ _ =>
    hashToken ("gk_" ++ fresh.secretHex) ∉ state.tokens.map (·.hash)
  | .registerScheduledReservationsWithSession _ fresh _ _ _ gpus _ _ now =>
    state.managedKeys = false ∧ 0 ≤ now ∧
      hashToken ("gk_" ++ fresh.secretHex) ∉ state.tokens.map (·.hash) ∧
      (state.reservations.map (·.id) ++ (newReservations fresh {} gpus).map (·.id)).Nodup
  | .registerManagedReservations _ fresh _ _ _ gpus _ _ _ =>
    (state.reservations.map (·.id) ++ (newReservations fresh {} gpus).map (·.id)).Nodup
  | .addAuthorization authorization _ => authorization.id ∉ state.authorizations.map (·.id)
  | .releaseScopes reservationIDs _ _ =>
    ∀ row ∈ state.reservations, row.active = true → row.revoked = false →
      clock < row.expiresAt → row.id ∉ reservationIDs
  | .prune now | .pruneUnreferencedInvalidEntitlements now => now ≤ clock
  | op => op.daemon = true

namespace Backed

variable [Unicode] [Digest] {clock : Time} {state : State}

theorem authorization_ids (h : Backed clock state) {op : Op} (hOp : op.Careful clock state)
    (hDaemon : op.daemon = true) :
    (((op.effect state).edits.apply state).authorizations.map (·.id)).Nodup := by
  rcases Op.authorizations state op hDaemon with hLeaves | ⟨row, now, rfl, hRows⟩
  · exact h.ids.sublist (hLeaves.map_sublist fun _ _ hFrom => hFrom.id_eq)
  · rw [hRows]
    exact nodup_map_append_singleton h.ids hOp

omit [Unicode] in
/-- A row that is named selects by its token. -/
theorem rowHash_of_row (hRows : (state.reservations.map (·.id)).Nodup) {row : Reservation}
    (hRow : row ∈ state.reservations) (hName : hasPrefix row.id "res_" = true)
    (hTokens : ∀ token ∈ state.tokens, hasPrefix token.id "tok_" = true) :
    rowHash row.id state = row.tokenHash := by
  have hOther : ∀ token ∈ state.tokens, token.id ≠ row.id := fun token hToken =>
    (rowName_ne_tokenName hName (hTokens token hToken)).symm
  have hKey : hasPrefix row.id "gk_" = false := by
    obtain ⟨rest, hRest⟩ := isPrefixOf_iff_prefix.mp hName
    simp [hasPrefix, ← hRest, List.isPrefixOf]
  have hNone : (state.tokens.find? fun token => revokes row.id "" token.id token.hash) = none :=
    find?_eq_none.mpr fun token hToken => by simp [revokes, hOther token hToken]
  have hFind : state.reservations.find? (·.id == row.id) = some row :=
    find?_of_nodup hRows hRow (by simp) fun other => by simp
  rw [rowHash, revokeTokenLoop_hash hOther]
  simp [revokedTokenHash, hKey, hNone, hFind]

omit [Digest] in
/-- A node with a reserved key has none of a gateway, so no group of one is revoked. -/
theorem no_managedGroup (h : Backed clock state) {token : Token} (hToken : token ∈ state.tokens)
    (hMode : normalizeTokenMode token.mode = tokenModeReserved) (id : String) :
    state.managedKeys = false ∧ managedGroupID id state = "" := by
  have hNode : state.managedKeys = false := by
    cases hManaged : state.managedKeys with
    | false => rfl
    | true => exact absurd hMode (h.managedTokens hManaged token hToken)
  refine ⟨hNode, ?_⟩
  have hNone : (state.reservations.find? fun row =>
      (state.tokens.any fun token => token.managed && token.hash == row.tokenHash) &&
        (row.id == id || revocationGroup row == id)) = none := by
    refine find?_eq_none.mpr fun other _ => ?_
    have hPlain : (state.tokens.any fun token => token.managed && token.hash == other.tokenHash) =
        false := any_eq_false.mpr fun token hStored => by
      simp [(h.nodeTokens hNode token hStored).1]
    simp [hPlain]
  simp [managedGroupID, hNone]

/-- Before the keys are managed, revoking a row revokes the key it belongs to. -/
theorem revokeRows_keeps (h : Backed clock state) (id : String) (now : Time) :
    KeepsBacking clock state ((revokeRows id now state).edits.apply state) := by
  intro token hToken hMode hNamed hLive _ row hRow hBacks
  obtain ⟨i, hIndex⟩ := getElem?_of_mem hToken
  replace hIndex : (state.tokens.mapIdx fun i stored =>
      if (revokeTokenLoop id (revokedTokenHash id state) state.tokens).1.getD i false then
        { stored with revoked := true } else stored)[i]? = some token := hIndex
  rw [getElem?_mapIdx] at hIndex
  obtain ⟨stored, hStored, hSame⟩ := Option.map_eq_some_iff.mp hIndex
  have hSpared : ¬ (revokeTokenLoop id (revokedTokenHash id state) state.tokens).1.getD i false =
      true := by
    intro hFlag
    rw [if_pos hFlag] at hSame
    rw [← hSame] at hLive
    cases hLive
  rw [if_neg hSpared] at hSame
  obtain rfl := hSame
  obtain ⟨hNode, _⟩ := h.no_managedGroup (mem_of_getElem? hStored) hMode id
  have hOther : rowHash id state ≠ stored.hash := fun hHash =>
    hSpared (revokeTokenLoop_revokes h.hashes hStored hNamed hHash)
  have hSelected : ¬ revokes id (rowHash id state) row.id row.tokenHash = true := by
    intro hSelected
    simp only [revokes, Bool.or_eq_true, beq_iff_eq, Bool.and_eq_true] at hSelected
    rcases hSelected with hID | ⟨_, hHash⟩
    · refine hOther ?_
      rw [← hID, rowHash_of_row h.rows hRow (h.rowNames row hRow)
        (fun other hToken => (h.nodeTokens hNode other hToken).2), hBacks.tokenHash]
    · exact hOther (hHash.symm.trans hBacks.tokenHash)
  show row ∈ (Edit.update fun _ row =>
    if revokes id (rowHash id state) row.id row.tokenHash then { row with revoked := true }
    else row).onList state.reservations
  rw [Edit.onList_update_map]
  exact mem_map.mpr ⟨row, hRow, if_neg hSelected⟩

omit [Digest] in
/-- A live key is not pruned at an earlier time, nor is the row behind it. -/
theorem prune_keeps (h : Backed clock state) {now : Time} (hNow : now ≤ clock) :
    KeepsBacking clock state ((GPUardian.prune now state).edits.apply state) := by
  intro token hToken _ _ _ hBefore row hRow hBacks
  obtain ⟨hStored, hKept⟩ := mem_kept.mp hToken
  refine mem_kept.mpr ⟨hRow, prunesReservation_eq_false.mpr
    ⟨⟨hBacks.active, hBacks.revoked, hBacks.expiresAt ▸ lt_of_le_of_lt hNow hBefore⟩, ?_⟩⟩
  refine expiredTokenHash_eq_false.mpr fun other hOther hHash _ => ?_
  rwa [inj_on_of_nodup_map h.hashes hOther hStored (hHash.trans hBacks.tokenHash)]

/-- Calls that neither book nor issue keys leave the rows behind live keys. -/
theorem narrows (h : Backed clock state) {op : Op} (hOp : op.Careful clock state)
    (hNarrowing : op.narrowing = true) :
    KeepsBacking clock state ((op.effect state).edits.apply state) := by
  refine Op.edits_ind fun edits hEdited => ?_
  cases hEdited with
  | old _ _ hOld => exact absurd (Op.daemon_of_narrowing hNarrowing) (by simp [hOld])
  | issued | scheduled | managed | confirmed | cutOver => cases hNarrowing
  | revokedGroup idOrToken now hGroup =>
    intro token hToken hMode
    exact absurd (h.no_managedGroup hToken hMode _).2 hGroup
  | revokedRows idOrToken now => exact h.revokeRows_keeps _ now
  | pruned now => exact h.prune_keeps hOp
  | prunedEntitlements now =>
    intro token _ _ _ _ hBefore row hRow hBacks
    have hLasts : now < row.expiresAt := by
      rw [hBacks.expiresAt]
      exact lt_of_le_of_lt hOp hBefore
    exact mem_filter.mpr ⟨hRow, by simp [hBacks.active, hBacks.revoked, hLasts]⟩
  | scopes reservationIDs =>
    intro token _ _ _ _ hBefore row hRow hBacks
    have hOther : row.id ∉ reservationIDs :=
      hOp row hRow hBacks.active hBacks.revoked (hBacks.expiresAt ▸ hBefore)
    show row ∈ (Edit.update fun _ row => if reservationIDs.contains row.id && row.active then
      { row with active := false } else row).onList state.reservations
    rw [Edit.onList_update_map]
    exact mem_map.mpr ⟨row, hRow, if_neg (by simp [hOther])⟩
  | _ => exact fun _ _ _ _ _ _ _ hRow _ => hRow

omit [Digest] in
/-- New rows leave the keys and the rows behind them. -/
theorem books (h : Backed clock state) {fresh : Fresh} {gpus : List Int} (row : Reservation)
    (hDraws : (state.reservations.map (·.id) ++ (newReservations fresh {} gpus).map (·.id)).Nodup) :
    Backed clock
      { state with reservations := state.reservations ++ newReservations fresh row gpus } :=
  { h with
    rows := by
      rw [map_append, newReservations_ids fresh row {}]
      exact hDraws
    rowNames := by
      refine forall_mem_append.mpr ⟨h.rowNames, fun other hNew => ?_⟩
      obtain ⟨i, gpu, _, rfl⟩ := mem_newReservations hNew
      exact hasPrefix_append "res_" _
    reserved := by
      intro token hToken hMode
      obtain ⟨hSet, hBacked⟩ := h.reserved token hToken hMode
      refine ⟨hSet, fun hNamed hLive hBefore => ?_⟩
      obtain ⟨backing, hBacking, hBacks⟩ := hBacked hNamed hLive hBefore
      exact ⟨backing, mem_append_left _ hBacking, hBacks⟩ }

omit [Digest] in
/-- A new token of the node; a reserved key comes with its row. -/
theorem issues (h : Backed clock state) (token : Token)
    (hNew : token.hash ∉ state.tokens.map (·.hash)) (hPlain : token.managed = false)
    (hName : hasPrefix token.id "tok_" = true)
    (hMode : state.managedKeys = true → normalizeTokenMode token.mode ≠ tokenModeReserved)
    (hReserved : normalizeTokenMode token.mode = tokenModeReserved →
      0 < token.expiresAt ∧ ∃ row ∈ state.reservations, Backs token row) :
    Backed clock { state with tokens := state.tokens ++ [token] } :=
  { h with
    hashes := nodup_map_append_singleton h.hashes hNew
    nodeTokens := fun hNode => forall_mem_concat.mpr ⟨h.nodeTokens hNode, hPlain, hName⟩
    managedTokens := fun hKeys => forall_mem_concat.mpr ⟨h.managedTokens hKeys, hMode hKeys⟩
    reserved := by
      refine forall_mem_concat.mpr ⟨h.reserved, fun hOtherMode => ?_⟩
      obtain ⟨hSet, hBacked⟩ := hReserved hOtherMode
      exact ⟨hSet, fun _ _ _ => hBacked⟩ }

omit [Digest] in
/-- With the snapshot of a gateway every key of the node goes. -/
theorem cutsOver (hSmall : Unicode.KeepsSmall) (h : Backed clock state)
    {after : State} {now : Time} {keys : List ManagedUserKey} {managed : List Token}
    {groupHex : Nat → String} (hAdmitted : admitManagedKeys now [] keys = .ok managed)
    (hManagedKeys : after.managedKeys = true) (hTokens : after.tokens = managed)
    (hRows : after.reservations =
      rebindReservations state.tokens managed groupHex state.reservations)
    (hIDs : after.authorizations = state.authorizations) : Backed clock after := by
  have hHashes := (admitManagedKeys_ok hAdmitted).2.hashes
  have hMode : ∀ token ∈ managed, normalizeTokenMode token.mode ≠ tokenModeReserved := by
    intro token hToken
    obtain ⟨key, _, rfl⟩ := admitManagedKeys_mem hAdmitted hToken
    have hOwn : normalizeTokenMode tokenModeManaged = tokenModeManaged :=
      normalizeTokenMode_small hSmall (by decide) (by decide) (by decide)
    show normalizeTokenMode tokenModeManaged ≠ tokenModeReserved
    rw [hOwn]
    decide
  have hRowIDs : after.reservations.map (·.id) = state.reservations.map (·.id) :=
    hRows ▸ rebindReservation_ids state.tokens managed groupHex state.reservations
  constructor
  case hashes => exact hTokens ▸ hHashes
  case rows => exact hRowIDs ▸ h.rows
  case ids => exact hIDs ▸ h.ids
  case rowNames =>
    intro row hRow
    have hMem : row.id ∈ state.reservations.map (·.id) := hRowIDs ▸ mem_map_of_mem hRow
    obtain ⟨old, hOld, hID⟩ := mem_map.mp hMem
    exact hID ▸ h.rowNames old hOld
  case nodeTokens => exact fun hNode => absurd hManagedKeys (by simp [hNode])
  case managedTokens => exact fun _ => hTokens ▸ hMode
  case reserved =>
    exact fun token hToken hReserved => absurd hReserved (hMode token (hTokens ▸ hToken))

end Backed

/-- Careful calls keep the keys backed. -/
theorem Op.backed [Unicode] [Digest] (hSmall : Unicode.KeepsSmall)
    {clock : Time} {state : State} {op : Op} (hOp : op.Careful clock state)
    (h : Backed clock state) : Backed clock ((op.effect state).edits.apply state) := by
  by_cases hNarrowing : op.narrowing = true
  · exact h.shrinks (Op.shrinks state op hNarrowing)
      (h.authorization_ids hOp (Op.daemon_of_narrowing hNarrowing)) (h.narrows hOp hNarrowing)
  refine Op.edits_ind fun edits hEdited => ?_
  cases hEdited with
  | quiet => exact h
  | issued _ fresh name now =>
    have hMode : normalizeTokenMode (newToken fresh.secretHex fresh.tokenHex tokenModeClaimed name 0
        now).mode ≠ tokenModeReserved := by
      have hClaimed : normalizeTokenMode tokenModeClaimed = tokenModeClaimed :=
        normalizeTokenMode_small hSmall (by decide) (by decide) (by decide)
      simp only [newToken, hClaimed]
      decide
    exact h.issues (newToken fresh.secretHex fresh.tokenHex tokenModeClaimed name 0 now) hOp rfl
      (hasPrefix_append "tok_" _) (fun _ => hMode) (fun hReserved => absurd hReserved hMode)
  | scheduled _ fresh _ purpose session gpus startsAt expiresAt now token hToken hSome _ hFuture =>
    obtain ⟨hNode, hClock, hNew, hDraws⟩ := hOp
    obtain ⟨gpu, rest, rfl⟩ := exists_cons_of_ne_nil hSome
    -- first the rows, then the key
    let row := reservationRow token "" purpose (trimSpace session) (requestedStart startsAt now)
      expiresAt now
    subst hToken
    refine (h.books row hDraws).issues _ hNew rfl (hasPrefix_append "tok_" _)
      (fun hManaged => absurd hManaged (by simp [hNode])) fun _ => ?_
    refine ⟨lt_of_le_of_lt hClock hFuture,
      { row with id := "res_" ++ fresh.reservationHex 0, gpu := gpu }, ?_, rfl, rfl, rfl, rfl⟩
    exact mem_append_right _ (mem_mapIdx.mpr ⟨0, by simp, rfl⟩)
  | managed => exact h.books _ hOp
  | confirmed => exact { h with }
  | cutOver _ _ _ _ _ _ hAdmitted => exact h.cutsOver hSmall hAdmitted rfl rfl rfl rfl
  | old op _ hOld => cases op <;> first | (cases hOld; done) | cases hOp
  | _ => exact absurd rfl hNarrowing

end GPUardian
