import GPUardian.Store.Shrinking

/-! The reservation groups that a node reports. A row without a group of its own is listed
under the id of its token, so what is reported depends on both tables and on the clock. An
operation of the daemon adds to it only by booking rows, or by giving a group to a row that
was listed under none. -/
namespace GPUardian

open GoStrings GoSlice List

def reservationListed (row : Reservation) (now : Time) : Bool :=
  row.active && !row.revoked && decide (now < row.expiresAt)

variable {now : Time} {state : State} {group : String}

section Status

variable [Unicode]

/-- The tokens that `Status` knows the ids of are those that `Prune` would keep. -/
def tokenIDsByHash (state : State) (now : Time) (hash : String) : String :=
  ((tokenByHash (state.tokens.filter (!prunesToken state now ·)) hash).map (·.id)).getD ""

def reservationGroupID (state : State) (now : Time) (row : Reservation) : String :=
  if row.groupID ≠ "" then row.groupID else tokenIDsByHash state now row.tokenHash

/-- The group column of the reservations in `Status`. -/
def statusGroups (now : Time) (state : State) : List String :=
  (state.reservations.filter (reservationListed · now)).map (reservationGroupID state now)

/-- The token names the group of a listed row that has none. The clause on reserved keys is
what the check for a live reservation comes to, which the row itself meets. -/
structure Entitles (now : Time) (row : Reservation) (group : String) (token : Token) : Prop where
  hash : token.hash = row.tokenHash
  id : token.id = group
  active : tokenActiveAt token now = true
  reserved : normalizeTokenMode token.mode = tokenModeReserved → row.tokenHash ≠ ""

/-- The node lists a reservation under the group. -/
def ListsGroup (now : Time) (state : State) (group : String) : Prop :=
  group ≠ "" ∧ ∃ row ∈ state.reservations, reservationListed row now = true ∧
    (row.groupID = group ∨ (row.groupID = "" ∧ ∃ token ∈ state.tokens, Entitles now row group token))

instance (now : Time) (row : Reservation) (group : String) (token : Token) :
    Decidable (Entitles now row group token) :=
  decidable_of_iff (token.hash = row.tokenHash ∧ token.id = group ∧
    tokenActiveAt token now = true ∧
      (normalizeTokenMode token.mode = tokenModeReserved → row.tokenHash ≠ ""))
    ⟨fun ⟨hHash, hID, hActive, hReserved⟩ => ⟨hHash, hID, hActive, hReserved⟩,
      fun h => ⟨h.hash, h.id, h.active, h.reserved⟩⟩

instance (now : Time) (state : State) (group : String) : Decidable (ListsGroup now state group) :=
  inferInstanceAs (Decidable (_ ∧ _))

variable {row : Reservation}

omit [Unicode] in
theorem liveReservationTokenHash_of_listed {reservations : List Reservation}
    (hRow : row ∈ reservations) (hListed : reservationListed row now = true) :
    liveReservationTokenHash reservations now row.tokenHash = true ↔ row.tokenHash ≠ "" := by
  simp only [reservationListed, Bool.and_eq_true, Bool.not_eq_true', decide_eq_true_eq] at hListed
  rw [liveReservationTokenHash_eq_true]
  exact and_iff_left ⟨row, hRow, ⟨hListed.1.1, hListed.1.2, hListed.2⟩, rfl⟩

theorem entitles_iff {token : Token} (hRow : row ∈ state.reservations)
    (hListed : reservationListed row now = true) :
    Entitles now row group token ↔
      prunesToken state now token = false ∧ token.hash = row.tokenHash ∧ token.id = group := by
  have hLive := liveReservationTokenHash_of_listed hRow hListed
  rw [prunesToken_eq_false]
  constructor
  · rintro ⟨hHash, hID, hActive, hReserved⟩
    exact ⟨⟨hActive, fun hMode => hHash ▸ hLive.mpr (hReserved hMode)⟩, hHash, hID⟩
  · rintro ⟨⟨hActive, hBooked⟩, hHash, hID⟩
    exact ⟨hHash, hID, hActive, fun hMode => hLive.mp (hHash ▸ hBooked hMode)⟩

omit [Unicode] in
/-- Among tokens with distinct hashes, the lookup finds the token that has the hash. -/
theorem tokenByHash_of_mem {tokens : List Token} {token : Token}
    (hNodup : (tokens.map (·.hash)).Nodup) (hToken : token ∈ tokens) :
    tokenByHash tokens token.hash = some token := by
  cases hFind : tokenByHash tokens token.hash with
  | none => exact absurd rfl (tokenByHash_eq_none hFind token hToken)
  | some found =>
    obtain ⟨hMem, hHash⟩ := tokenByHash_mem hFind
    rw [inj_on_of_nodup_map hNodup hMem hToken hHash]

theorem tokenIDsByHash_eq_iff (hNodup : (state.tokens.map (·.hash)).Nodup)
    (hRow : row ∈ state.reservations) (hListed : reservationListed row now = true)
    (hGroup : group ≠ "") :
    tokenIDsByHash state now row.tokenHash = group ↔
      ∃ token ∈ state.tokens, Entitles now row group token := by
  have hKept : ((state.tokens.filter (!prunesToken state now ·)).map (·.hash)).Nodup :=
    hNodup.sublist (filter_sublist.map _)
  unfold tokenIDsByHash
  constructor
  · intro hFound
    cases hFind : tokenByHash (state.tokens.filter (!prunesToken state now ·)) row.tokenHash with
    | none =>
      rw [hFind] at hFound
      exact absurd hFound.symm hGroup
    | some token =>
      rw [hFind] at hFound
      obtain ⟨hMem, hHash⟩ := tokenByHash_mem hFind
      obtain ⟨hToken, hNotPruned⟩ := mem_filter.mp hMem
      exact ⟨token, hToken, (entitles_iff hRow hListed).mpr
        ⟨by simpa using hNotPruned, hHash, hFound⟩⟩
  · rintro ⟨token, hToken, hEntitles⟩
    obtain ⟨hNotPruned, hHash, hID⟩ := (entitles_iff hRow hListed).mp hEntitles
    rw [← hHash, tokenByHash_of_mem hKept (mem_filter.mpr ⟨hToken, by simp [hNotPruned]⟩)]
    exact hID

theorem reservationGroupID_eq_iff (hNodup : (state.tokens.map (·.hash)).Nodup)
    (hRow : row ∈ state.reservations) (hListed : reservationListed row now = true)
    (hGroup : group ≠ "") :
    reservationGroupID state now row = group ↔ row.groupID = group ∨
      (row.groupID = "" ∧ ∃ token ∈ state.tokens, Entitles now row group token) := by
  unfold reservationGroupID
  by_cases hOwn : row.groupID = ""
  · rw [if_neg (not_not_intro hOwn), tokenIDsByHash_eq_iff hNodup hRow hListed hGroup]
    simp [hOwn, Ne.symm hGroup]
  · rw [if_pos hOwn]
    simp [hOwn]

/-- `Status` shows a group exactly when a reservation is listed under it. -/
theorem mem_statusGroups (hNodup : (state.tokens.map (·.hash)).Nodup) (hGroup : group ≠ "") :
    group ∈ statusGroups now state ↔ ListsGroup now state group := by
  simp only [statusGroups, mem_map, mem_filter, ListsGroup]
  constructor
  · rintro ⟨row, ⟨hRow, hListed⟩, hReported⟩
    exact ⟨hGroup, row, hRow, hListed,
      (reservationGroupID_eq_iff hNodup hRow hListed hGroup).mp hReported⟩
  · rintro ⟨_, row, hRow, hListed, hNames⟩
    exact ⟨row, ⟨hRow, hListed⟩,
      (reservationGroupID_eq_iff hNodup hRow hListed hGroup).mpr hNames⟩

theorem ListsGroup.earlier {later : Time} (hLe : now ≤ later) (h : ListsGroup later state group) :
    ListsGroup now state group := by
  obtain ⟨hGroup, row, hRow, hListed, hNames⟩ := h
  have hRowNow : reservationListed row now = true := by
    simp only [reservationListed, Bool.and_eq_true, decide_eq_true_eq] at hListed ⊢
    exact ⟨hListed.1, Int.lt_of_le_of_lt hLe hListed.2⟩
  refine ⟨hGroup, row, hRow, hRowNow, hNames.imp_right fun ⟨hOwn, token, hToken, hEntitles⟩ =>
    ⟨hOwn, token, hToken, hEntitles.hash, hEntitles.id, ?_, hEntitles.reserved⟩⟩
  have hActive := hEntitles.active
  simp only [tokenActiveAt, tokenExpired, Bool.and_eq_true, Bool.not_eq_true',
    Bool.and_eq_false_iff, Bool.not_eq_false', decide_eq_true_eq] at hActive ⊢
  exact ⟨hActive.1, hActive.2.imp_right fun hLt => Int.lt_of_le_of_lt hLe hLt⟩

end Status

/-- The later row is the earlier one, except that it may have ended. -/
structure RowFrom (before after : Reservation) : Prop where
  groupID : after.groupID = before.groupID
  tokenHash : after.tokenHash = before.tokenHash
  listed : ∀ now, reservationListed after now = true → reservationListed before now = true

structure TokenFrom (before after : Token) : Prop where
  id : after.id = before.id
  hash : after.hash = before.hash
  mode : after.mode = before.mode
  active : ∀ now, tokenActiveAt after now = true → tokenActiveAt before now = true

/-- Rows and tokens have ended or are gone, and there are no new ones. -/
structure Narrows (before after : State) : Prop where
  rows : ∀ row ∈ after.reservations, ∃ old ∈ before.reservations, RowFrom old row
  tokens : ∀ token ∈ after.tokens, ∃ old ∈ before.tokens, TokenFrom old token
  hashes : List.Sublist (after.tokens.map (·.hash)) (before.tokens.map (·.hash))

theorem EndedFrom.rowFrom {old new : Reservation} (h : EndedFrom old new) : RowFrom old new := by
  refine ⟨by rw [h.same], by rw [h.same], fun now hListed => ?_⟩
  have hExpires : new.expiresAt = old.expiresAt := by rw [h.same]
  simp only [reservationListed, Bool.and_eq_true, Bool.not_eq_true', hExpires] at hListed ⊢
  exact ⟨⟨h.active hListed.1.1, Bool.eq_false_iff.mpr fun hRevoked =>
    Bool.eq_false_iff.mp hListed.1.2 (h.revoked hRevoked)⟩, hListed.2⟩

theorem RevokedFrom.tokenFrom {old new : Token} (h : RevokedFrom old new) : TokenFrom old new := by
  refine ⟨by rw [h.same], by rw [h.same], by rw [h.same], fun now hActive => ?_⟩
  have hExpired : tokenExpired new now = tokenExpired old now := by rw [h.same]; rfl
  simp only [tokenActiveAt, Bool.and_eq_true, Bool.not_eq_true', hExpired] at hActive ⊢
  exact ⟨Bool.eq_false_iff.mpr fun hRevoked =>
    Bool.eq_false_iff.mp hActive.1 (h.revoked hRevoked), hActive.2⟩

variable {before after : State}

theorem Shrinks.narrows (h : Shrinks before after) : Narrows before after where
  rows row hRow := by
    obtain ⟨old, hOld, hEnded⟩ := h.rows.partner hRow
    exact ⟨old, hOld, hEnded.rowFrom⟩
  tokens token hToken := by
    obtain ⟨old, hOld, hRevoked⟩ := h.tokens.partner hToken
    exact ⟨old, hOld, hRevoked.tokenFrom⟩
  hashes := h.tokens.map_sublist fun old new hRevoked => hRevoked.tokenFrom.hash

theorem Narrows.lists [Unicode] (h : Narrows before after) (hLists : ListsGroup now after group) :
    ListsGroup now before group := by
  obtain ⟨hGroup, row, hRow, hListed, hNames⟩ := hLists
  obtain ⟨old, hOld, hFrom⟩ := h.rows row hRow
  refine ⟨hGroup, old, hOld, hFrom.listed now hListed, ?_⟩
  rw [hFrom.groupID] at hNames
  refine hNames.imp_right fun ⟨hOwn, token, hToken, hEntitles⟩ => ⟨hOwn, ?_⟩
  obtain ⟨oldToken, hOldToken, hTokenFrom⟩ := h.tokens token hToken
  refine ⟨oldToken, hOldToken, ?_, ?_, hTokenFrom.active now hEntitles.active, ?_⟩
  · rw [← hTokenFrom.hash, hEntitles.hash, hFrom.tokenHash]
  · rw [← hTokenFrom.id, hEntitles.id]
  · rw [← hTokenFrom.mode, ← hFrom.tokenHash]
    exact hEntitles.reserved

section Operations

variable [Unicode] [Digest]

/-- A registration draws a secret whose hash nothing in the store carries yet. -/
def FreshSecret (state : State) : Op → Prop
  | .registerSoftToken _ fresh _ _
  | .registerScheduledReservationsWithSession _ fresh _ _ _ _ _ _ _ =>
    hashToken ("gk_" ++ fresh.secretHex) ∉ state.tokens.map (·.hash) ∧
      hashToken ("gk_" ++ fresh.secretHex) ∉ state.reservations.map (·.tokenHash)
  | _ => True

/-- The groups that an operation brings in: those of the rows it books, and those that the
key cutover gives to rows that were listed under none. -/
def grantedGroups (now : Time) (before after : State) : Op → List String
  | .registerScheduledReservationsWithSession .. | .registerManagedReservations .. =>
    (after.reservations.drop before.reservations.length).map (reservationGroupID after now)
  | .syncManagedUserKeys .. =>
    (before.reservations.zip after.reservations).filterMap fun (old, new) =>
      if reservationGroupID before now old = "" then some (reservationGroupID after now new)
      else none
  | _ => []

omit [Digest] in
/-- Booked rows add their own groups and no others, if no new token has the hash of a row
that was there before. -/
theorem lists_append {rows : List Reservation}
    (hRows : after.reservations = before.reservations ++ rows)
    (hTokens : ∀ token ∈ after.tokens, token ∈ before.tokens ∨
      token.hash ∉ before.reservations.map (·.tokenHash))
    (hNodup : (after.tokens.map (·.hash)).Nodup) (h : ListsGroup now after group) :
    ListsGroup now before group ∨
      group ∈ (after.reservations.drop before.reservations.length).map
        (reservationGroupID after now) := by
  obtain ⟨hGroup, row, hRow, hListed, hNames⟩ := h
  have hReported := (reservationGroupID_eq_iff hNodup hRow hListed hGroup).mpr hNames
  rw [hRows] at hRow
  rcases mem_append.mp hRow with hOld | hNew
  · refine .inl ⟨hGroup, row, hOld, hListed, hNames.imp_right ?_⟩
    rintro ⟨hOwn, token, hToken, hEntitles⟩
    refine ⟨hOwn, token, (hTokens token hToken).resolve_right (not_not_intro ?_), hEntitles⟩
    rw [hEntitles.hash]
    exact mem_map_of_mem hOld
  · rw [hRows, drop_left]
    exact .inr (mem_map.mpr ⟨row, hNew, hReported⟩)

omit [Digest] in
/-- After a key cutover every row has a group: the one it was listed under, or one that the
cutover gave it. -/
theorem lists_rebound {managed : List Token} {groupHex : Nat → String}
    (hNodup : (before.tokens.map (·.hash)).Nodup)
    (hRows : after.reservations =
      rebindReservations before.tokens managed groupHex before.reservations)
    (hNodupAfter : (after.tokens.map (·.hash)).Nodup) (h : ListsGroup now after group) :
    ListsGroup now before group ∨
      group ∈ (before.reservations.zip after.reservations).filterMap fun (old, new) =>
        if reservationGroupID before now old = "" then some (reservationGroupID after now new)
        else none := by
  obtain ⟨hGroup, row, hRow, hListed, hNames⟩ := h
  have hReported := (reservationGroupID_eq_iff hNodupAfter hRow hListed hGroup).mpr hNames
  have hRebound : List.Forall₂ (fun old new => ∃ i, new =
      rebindReservation before.tokens managed groupHex i old) before.reservations
      after.reservations := hRows ▸ Edit.forall₂_update _ fun i old _ => ⟨i, rfl⟩
  obtain ⟨old, hPair, i, rfl⟩ := forall₂_zip_partner hRebound hRow
  have hOld := (of_mem_zip hPair).1
  by_cases hUnnamed : reservationGroupID before now old = ""
  · exact .inr (mem_filterMap.mpr ⟨_, hPair, by dsimp only; rw [if_pos hUnnamed, hReported]⟩)
  · refine .inl ⟨hGroup, old, hOld, hListed, ?_⟩
    suffices hSame : reservationGroupID before now old = group from
      (reservationGroupID_eq_iff hNodup hOld hListed hGroup).mp hSame
    by_cases hOwn : old.groupID = ""
    · -- The row was listed under a token, and the cutover gives it that token's id.
      obtain ⟨_, token, hToken, hEntitles⟩ :=
        ((reservationGroupID_eq_iff hNodup hOld hListed hUnnamed).mp rfl).resolve_left
          fun hEq => hUnnamed (hEq ▸ hOwn)
      have hLookup : tokenByHash before.tokens old.tokenHash = some token :=
        hEntitles.hash ▸ tokenByHash_of_mem hNodup hToken
      have hID : token.id ≠ "" := hEntitles.id ▸ hUnnamed
      rw [← hReported, ← hEntitles.id]
      simp [reservationGroupID, rebindReservation, hOwn, hLookup, hID]
    · rw [← hReported]
      simp [reservationGroupID, rebindReservation, hOwn]

/-- The tokens still have distinct hashes, and every group listed is an old one or one of
the given. -/
def Grants (now : Time) (before after : State) (granted : List String) : Prop :=
  (after.tokens.map (·.hash)).Nodup ∧ ∀ group, ListsGroup now after group →
    ListsGroup now before group ∨ group ∈ granted

omit [Digest] in
theorem Grants.of_subset {granted more : List String} (h : Grants now before after granted)
    (hSub : ∀ group ∈ granted, group ∈ more) : Grants now before after more :=
  ⟨h.1, fun group hLists => (h.2 group hLists).imp_right (hSub group)⟩

omit [Digest] in
/-- A key is issued, and rows may be booked under it. -/
theorem grants_issued (token : Token) {rows : List Reservation}
    (hNodup : (state.tokens.map (·.hash)).Nodup)
    (hFresh : token.hash ∉ state.tokens.map (·.hash) ∧
      token.hash ∉ state.reservations.map (·.tokenHash))
    (hTokens : after.tokens = state.tokens ++ [token])
    (hRows : after.reservations = state.reservations ++ rows) (now : Time) :
    Grants now state after ((after.reservations.drop state.reservations.length).map
      (reservationGroupID after now)) := by
  have hNodupAfter : (after.tokens.map (·.hash)).Nodup :=
    hTokens ▸ nodup_map_append_singleton hNodup hFresh.1
  refine ⟨hNodupAfter, fun group hLists => lists_append hRows ?_ hNodupAfter hLists⟩
  intro other hOther
  rw [hTokens] at hOther
  rcases mem_append.mp hOther with hOld | hNew
  · exact .inl hOld
  · exact .inr (mem_singleton.mp hNew ▸ hFresh.2)

/-- What an operation of the daemon does to the groups that the node lists. -/
theorem Op.grants (state : State) (op : Op) (hDaemon : op.daemon = true)
    (hNodup : (state.tokens.map (·.hash)).Nodup) (hFresh : FreshSecret state op) (now : Time) :
    Grants now state ((op.effect state).edits.apply state)
      (grantedGroups now state ((op.effect state).edits.apply state) op) := by
  by_cases hNarrowing : op.narrowing = true
  · have hNarrows := (Op.shrinks state op hNarrowing).narrows
    exact ⟨hNodup.sublist hNarrows.hashes, fun _ hLists => .inl (hNarrows.lists hLists)⟩
  refine Op.edits_ind fun edits hEdited => ?_
  cases hEdited with
  | quiet => exact ⟨hNodup, fun _ => .inl⟩
  | old _ _ hOp => exact absurd hDaemon (by simp [hOp])
  | issued _ fresh name tokenNow =>
    refine Grants.of_subset (@grants_issued state _ _ (newToken fresh.secretHex fresh.tokenHex
      tokenModeClaimed name 0 tokenNow) [] hNodup hFresh rfl ?_ now) fun group hGroup => ?_
    · exact (append_nil _).symm
    · simp [Edits.apply, Edit.onList] at hGroup
  | scheduled _ _ _ _ _ _ _ _ _ token hToken =>
    exact grants_issued token hNodup (hToken ▸ hFresh) rfl rfl now
  | managed =>
    exact ⟨hNodup, fun group hLists =>
      lists_append rfl (fun _ hToken => .inl hToken) hNodup hLists⟩
  | confirmed => exact ⟨hNodup, fun _ => .inl⟩
  | cutOver _ _ _ _ managed _ hAdmitted =>
    have hManaged := (admitManagedKeys_ok hAdmitted).2.hashes
    exact ⟨hManaged, fun group hLists => lists_rebound hNodup rfl hManaged hLists⟩
  | _ => exact absurd rfl hNarrowing

end Operations

end GPUardian
