import GPUardian.Store.Groups
import GPUardian.Store.Naming

/-! What `Revoke` does to a state in which every name means one thing. A name of a
reservation that is bound to a managed key takes its whole group and nothing else. -/
namespace GPUardian

open GoStrings GoSlice List

/-- The state in which the reservations of a group are revoked and nothing else has changed. -/
def State.withoutGroup (state : State) (group : String) : State :=
  { state with
    reservations := state.reservations.map fun row =>
      if revocationGroup row = group then { row with revoked := true } else row }

theorem revokeGroup_apply (group : String) (state : State) :
    (revokeGroup group state).edits.apply state = state.withoutGroup group := by
  simp only [revokeGroup, Edits.apply, State.withoutGroup, Option.getD_none]
  congr 1
  rw [Edit.onList_update_map]
  refine map_congr_left fun row _ => ?_
  by_cases hGroup : revocationGroup row = group
  · by_cases hRevoked : row.revoked = true
    · -- The row has been revoked before.
      simp only [hGroup, hRevoked, Bool.not_true, Bool.and_false, Bool.false_eq_true, if_false,
        if_true]
      rw [← hRevoked]
    · simp [hGroup, hRevoked]
  · simp [hGroup]

namespace Named

variable {state : State} (h : Named state)

include h

variable {row other : Reservation}

theorem eq_of_id (hRow : row ∈ state.reservations) (hOther : other ∈ state.reservations)
    (hID : row.id = other.id) : row = other :=
  inj_on_of_nodup_map h.distinct hRow hOther hID

/-- The id of a reservation is the group of no other. -/
theorem eq_of_group (hRow : row ∈ state.reservations) (hOther : other ∈ state.reservations)
    (hGroup : row.id = revocationGroup other) : row = other := by
  unfold revocationGroup at hGroup
  split at hGroup
  · exact h.eq_of_id hRow hOther hGroup
  · have hPrefix := (h.rows row hRow).hasPrefix
    rw [hGroup, (h.groups other hOther).other] at hPrefix
    cases hPrefix

theorem group_ne (hRow : row ∈ state.reservations) : revocationGroup row ≠ "" := by
  unfold revocationGroup
  split
  · intro hEmpty
    have hPrefix := (h.rows row hRow).hasPrefix
    rw [hEmpty] at hPrefix
    exact absurd hPrefix (by decide)
  · assumption

theorem trimmed (hRow : row ∈ state.reservations) {id : String}
    (hID : id = row.id ∨ id = revocationGroup row) : trimSpace id = id := by
  have hOwn := (h.rows row hRow).trimmed
  rcases hID with rfl | rfl
  · exact hOwn
  · unfold revocationGroup
    split
    · exact hOwn
    · exact (h.groups row hRow).trimmed

/-- Whoever is named like a reservation or its group is of its group. -/
theorem same_group (hRow : row ∈ state.reservations) (hOther : other ∈ state.reservations)
    {id : String} (hID : id = row.id ∨ id = revocationGroup row)
    (hNamed : other.id = id ∨ revocationGroup other = id) :
    revocationGroup other = revocationGroup row := by
  rcases hID with rfl | rfl
  · rcases hNamed with hSame | hGroup
    · rw [h.eq_of_id hOther hRow hSame]
    · rw [h.eq_of_group hRow hOther hGroup.symm]
  · rcases hNamed with hSame | hGroup
    · rw [h.eq_of_group hOther hRow hSame]
    · exact hGroup

/-- A reservation bound to a managed key is found by its id and by its group. -/
theorem managedGroupID_eq (hRow : row ∈ state.reservations)
    (hKey : ∃ token ∈ state.tokens, token.managed = true ∧ token.hash = row.tokenHash) {id : String}
    (hID : id = row.id ∨ id = revocationGroup row) :
    managedGroupID id state = revocationGroup row := by
  obtain ⟨token, hToken, hManaged, hHash⟩ := hKey
  have hBound : (state.tokens.any fun token =>
      token.managed && token.hash == row.tokenHash) = true :=
    any_eq_true.mpr ⟨token, hToken, by simp [hManaged, hHash]⟩
  have hFound : (state.reservations.find? fun other =>
      (state.tokens.any fun token => token.managed && token.hash == other.tokenHash) &&
        (other.id == id || revocationGroup other == id)).isSome = true := by
    refine List.find?_isSome.mpr ⟨row, hRow, ?_⟩
    rw [hBound]
    rcases hID with rfl | rfl
    · simp
    · simp
  obtain ⟨other, hFind⟩ := Option.isSome_iff_exists.mp hFound
  have hNamed := find?_some hFind
  simp only [Bool.and_eq_true, Bool.or_eq_true, beq_iff_eq] at hNamed
  rw [managedGroupID, hFind]
  exact h.same_group hRow (mem_of_find?_eq_some hFind) hID hNamed.2

theorem revoke_group [Digest] (hRow : row ∈ state.reservations)
    (hKey : ∃ token ∈ state.tokens, token.managed = true ∧ token.hash = row.tokenHash) {id : String}
    (hID : id = row.id ∨ id = revocationGroup row) (now : Time) :
    (revoke id now state).edits.apply state = state.withoutGroup (revocationGroup row) ∧
      (revoke id now state).result = .ok () := by
  have hGroup := h.managedGroupID_eq hRow hKey hID
  simp only [revoke, h.trimmed hRow hID, hGroup, if_pos (h.group_ne hRow)]
  exact ⟨revokeGroup_apply _ state, rfl⟩

end Named

section Managed

variable [Unicode] [Digest]

/-- In every run from an empty store, whatever saves fail, the name of a live reservation
that is bound to a stored managed key, or of its group, revokes the group and nothing else. -/
theorem revoke_reservation_exactly (codec : Codec) {calls : List (SaveErrors × Op)}
    (hDraws : Store.Meets codec DrawsNames ⟨{}, {}, none⟩ calls) {store : Store}
    (hStore : store = (⟨{}, {}, none⟩ : Store).run codec calls) {row : Reservation}
    (hRow : row ∈ store.state.reservations)
    (hKey : ∃ token ∈ store.state.tokens, token.managed = true ∧ token.hash = row.tokenHash)
    {id : String} (hID : id = row.id ∨ id = revocationGroup row) (now : Time)
    {errors : SaveErrors} (hSaves : Store.Saves codec errors (.revoke id now) store) :
    (store.call codec errors (.revoke id now)).1.state =
        store.state.withoutGroup (revocationGroup row) ∧
      (store.call codec errors (.revoke id now)).2 = .ok () := by
  have hNamed : Named store.state := hStore ▸ Store.run_named hDraws
  obtain ⟨hState, hResult⟩ := Store.call_saved codec hSaves
  obtain ⟨hGroup, hOk⟩ := hNamed.revoke_group hRow hKey hID now
  rw [hState, hResult]
  exact ⟨hGroup, hOk⟩

end Managed

section Withdrawal

/-- The names of everything stored but the soft claims. -/
def scopeNames (state : State) : List String :=
  state.tokens.map (·.id) ++ state.reservations.map (·.id) ++ state.authorizations.map (·.id) ++
    state.leases.map (·.id) ++ state.bypasses.map (·.id)

/-- Nothing that has the name is in force at the instant, and no claim has it. -/
structure NothingLive (state : State) (id : String) (now : Time) : Prop where
  tokens : ∀ token ∈ state.tokens, token.id = id → tokenActiveAt token now = false
  reservations : ∀ row ∈ state.reservations, row.id = id → reservationListed row now = false
  authorizations : ∀ row ∈ state.authorizations, row.id = id → authorizationActiveAt row now = false
  leases : ∀ row ∈ state.leases, row.id = id → (row.active && decide (now < row.expiresAt)) = false
  bypasses : ∀ rule ∈ state.bypasses, rule.id = id →
    (!rule.revoked && decide (now < rule.expiresAt)) = false
  softClaims : ∀ claim ∈ state.softClaims, claim.id ≠ id

/-- Without the reservations of a group. -/
def State.outside (state : State) (group : String) : State :=
  { state with reservations := state.reservations.filter (revocationGroup · != group) }

variable {state : State}

theorem nothingLive_withoutGroup {group id : String} {now : Time} :
    NothingLive (state.withoutGroup group) id now ↔ NothingLive (state.outside group) id now := by
  have hRows : (∀ row ∈ (state.withoutGroup group).reservations, row.id = id →
      reservationListed row now = false) ↔
      ∀ row ∈ (state.outside group).reservations, row.id = id →
        reservationListed row now = false := by
    constructor
    · intro h row hRow hID
      obtain ⟨hStored, hOutside⟩ := mem_filter.mp hRow
      have hOther : ¬ revocationGroup row = group := by simpa using hOutside
      exact h row (mem_map.mpr ⟨row, hStored, if_neg hOther⟩) hID
    · intro h row hRow hID
      obtain ⟨old, hOld, rfl⟩ := mem_map.mp hRow
      split at hID
      · simp [reservationListed, ‹revocationGroup old = group›]
      · rename_i hOther
        rw [if_neg hOther]
        exact h old (mem_filter.mpr ⟨hOld, by simpa using hOther⟩) hID
  exact ⟨fun h => { h with reservations := hRows.mp h.reservations },
    fun h => { h with reservations := hRows.mpr h.reservations }⟩

variable {tokens : List Token}

/-- The token loop selects every token that has the name. -/
theorem revokeTokenLoop_named {id : String} {i : Nat} {token : Token}
    (hToken : tokens[i]? = some token) (hID : token.id = id) (tokenHash : String) :
    (revokeTokenLoop id tokenHash tokens).1.getD i false = true := by
  induction tokens generalizing i tokenHash with
  | nil => cases hToken
  | cons first tokens ih =>
    unfold revokeTokenLoop
    cases i with
    | zero =>
      obtain rfl : first = token := by simpa using hToken
      simp [revokes, hID]
    | succ i =>
      have hRest : tokens[i]? = some token := by simpa using hToken
      split
      · simpa using ih hRest first.hash
      · simpa using ih hRest tokenHash

variable {tokenHash : String}

theorem revokeTokenLoop_none {id : String}
    (h : ∀ token ∈ tokens, revokes id tokenHash token.id token.hash = false) :
    ∀ flag ∈ (revokeTokenLoop id tokenHash tokens).1, flag = false := by
  induction tokens with
  | nil => simp [revokeTokenLoop]
  | cons first tokens ih =>
    unfold revokeTokenLoop
    rw [h first mem_cons_self]
    simpa using ih fun token hToken => h token (mem_cons_of_mem _ hToken)

/-- A token that does not have the name is selected by the hash. -/
theorem hash_of_revokes {id : String} {token : Token} (hID : token.id ≠ id)
    (h : revokes id tokenHash token.id token.hash = true) : token.hash = tokenHash := by
  simp only [revokes, Bool.or_eq_true, Bool.and_eq_true, beq_iff_eq] at h
  exact (h.resolve_left hID).2

/-- What selected tokens hand on holds of the last hash, and of the hash that a token was selected
by. -/
theorem revokeTokenLoop_keeps {id : String} {P : String → Prop}
    (hStep : ∀ token ∈ tokens, ∀ hash, P hash → revokes id hash token.id token.hash = true →
      P token.hash) (h : P tokenHash) :
    P (revokeTokenLoop id tokenHash tokens).2 ∧ ∀ i token, tokens[i]? = some token →
      (revokeTokenLoop id tokenHash tokens).1.getD i false = true →
        ∃ hash, P hash ∧ revokes id hash token.id token.hash = true := by
  induction tokens generalizing tokenHash with
  | nil => exact ⟨h, fun i token hToken => by simp at hToken⟩
  | cons first tokens ih =>
    rw [forall_mem_cons] at hStep
    unfold revokeTokenLoop
    split
    · rename_i hSelected
      obtain ⟨hEnd, hFlags⟩ := ih hStep.2 (hStep.1 _ h hSelected)
      refine ⟨hEnd, fun i token hToken hFlag => ?_⟩
      cases i with
      | zero =>
        obtain rfl := Option.some.inj hToken
        exact ⟨tokenHash, h, hSelected⟩
      | succ i => exact hFlags i token hToken hFlag
    · obtain ⟨hEnd, hFlags⟩ := ih hStep.2 h
      refine ⟨hEnd, fun i token hToken hFlag => ?_⟩
      cases i with
      | zero => cases hFlag
      | succ i => exact hFlags i token hToken hFlag

/-- Where no token has the name, the hash stays. -/
theorem revokeTokenLoop_hash {id : String} (h : ∀ token ∈ tokens, token.id ≠ id) :
    (revokeTokenLoop id tokenHash tokens).2 = tokenHash :=
  (revokeTokenLoop_keeps (P := (· = tokenHash)) (fun token hToken _ hHash hSelected =>
    (hash_of_revokes (h token hToken) hSelected).trans hHash) rfl).1

theorem mem_of_getD {flags : List Bool} {i : Nat} (h : flags.getD i false = true) :
    true ∈ flags := by
  rw [getD_eq_getElem?_getD] at h
  cases hFlag : flags[i]? with
  | none => simp [hFlag] at h
  | some flag =>
    obtain rfl : flag = true := by simpa [hFlag] using h
    exact mem_of_getElem? hFlag

variable [Digest]

/-- The hash that selects rows once the tokens have been visited. -/
def rowHash (id : String) (state : State) : String :=
  (revokeTokenLoop id (revokedTokenHash id state) state.tokens).2

/-- Some row other than a claim is selected. -/
def selectsScope (id : String) (state : State) : Bool :=
  let selected := revokes id (rowHash id state)
  (revokeTokenLoop id (revokedTokenHash id state) state.tokens).1.any (fun flag => flag) ||
    state.reservations.any (fun row => selected row.id row.tokenHash) ||
    state.authorizations.any (fun row => selected row.id row.tokenHash) ||
    state.leases.any (fun row => selected row.id row.tokenHash) ||
    state.bypasses.any (·.id == id)

theorem revokeRows_result (id : String) (now : Time) (state : State) :
    (revokeRows id now state).result =
      if (selectsScope id state || ((rowHash id state != "" || selectsScope id state) &&
        state.softClaims.any (·.id == id))) = true then .ok () else .error s!"{id} not found" :=
  rfl

omit [Digest] in
theorem revokes_named (id tokenHash hash : String) : revokes id tokenHash id hash = true := by
  simp [revokes]

theorem selectsScope_of_name {id : String} (h : id ∈ scopeNames state) :
    selectsScope id state = true := by
  simp only [scopeNames, mem_append, mem_map] at h
  simp only [selectsScope, Bool.or_eq_true, any_eq_true]
  rcases h with (((⟨token, hToken, hID⟩ | ⟨row, hRow, rfl⟩) | ⟨row, hRow, rfl⟩) | ⟨row, hRow, rfl⟩) |
    ⟨rule, hRule, rfl⟩
  · obtain ⟨i, hToken⟩ := getElem?_of_mem hToken
    exact .inl (.inl (.inl (.inl ⟨true, mem_of_getD (revokeTokenLoop_named hToken hID _), rfl⟩)))
  · exact .inl (.inl (.inl (.inr ⟨row, hRow, revokes_named _ _ _⟩)))
  · exact .inl (.inl (.inr ⟨row, hRow, revokes_named _ _ _⟩))
  · exact .inl (.inr ⟨row, hRow, revokes_named _ _ _⟩)
  · exact .inr ⟨rule, hRule, beq_self_eq_true _⟩

/-- Without a row of its name and without a hash the call selects nothing. -/
theorem selects_nothing {id : String} (hName : id ∉ scopeNames state)
    (hKey : ¬ (hasPrefix id "gk_" = true ∧ hashToken id ≠ "")) :
    selectsScope id state = false ∧ rowHash id state = "" := by
  simp only [scopeNames, mem_append, mem_map, not_or, not_exists, not_and] at hName
  obtain ⟨⟨⟨⟨hTokens, hRows⟩, hAuthorizations⟩, hLeases⟩, hBypasses⟩ := hName
  have hOther {other hash : String} (hOther : ¬ other = id) : revokes id "" other hash = false := by
    simp [revokes, hOther]
  have hStart : (if hasPrefix id "gk_" then hashToken id else "") = "" := by
    by_cases hPrefix : hasPrefix id "gk_" = true
    · rw [if_pos hPrefix]
      exact Classical.not_not.mp fun h => hKey ⟨hPrefix, h⟩
    · rw [if_neg hPrefix]
  have hHash : revokedTokenHash id state = "" := by
    have hToken : (state.tokens.find? fun token => revokes id "" token.id token.hash) = none :=
      find?_eq_none.mpr fun token h => by simp [hOther (hTokens token h)]
    have hRow : (state.reservations.find? (·.id == id)) = none :=
      find?_eq_none.mpr fun row h => by simpa using hRows row h
    simp only [revokedTokenHash, hStart, hToken, hRow]
    rfl
  have hNone : ∀ token ∈ state.tokens, revokes id "" token.id token.hash = false :=
    fun token h => hOther (hTokens token h)
  have hFlags := revokeTokenLoop_none hNone
  have hEnd : rowHash id state = "" := by rw [rowHash, hHash, revokeTokenLoop_hash hTokens]
  refine ⟨?_, hEnd⟩
  simp only [selectsScope, hEnd, hHash, Bool.or_eq_false_iff, any_eq_false]
  refine ⟨⟨⟨⟨?_, ?_⟩, ?_⟩, ?_⟩, ?_⟩
  · intro flag hFlag
    simp [hFlags flag hFlag]
  · intro row hRow
    simp [hOther (hRows row hRow)]
  · intro row hRow
    simp [hOther (hAuthorizations row hRow)]
  · intro row hRow
    simp [hOther (hLeases row hRow)]
  · intro rule hRule
    simpa using hBypasses rule hRule

/-- A raw key that is no name selects by its hash. -/
theorem rowHash_of_key {id : String} (hName : id ∉ scopeNames state)
    (hPrefix : hasPrefix id "gk_" = true) (hHash : hashToken id ≠ "") : rowHash id state ≠ "" := by
  have hTokens : ∀ token ∈ state.tokens, token.id ≠ id := by
    intro token hToken hID
    exact hName (by simp only [scopeNames, mem_append, mem_map]; grind)
  have hStart : revokedTokenHash id state = hashToken id := by
    simp only [revokedTokenHash, hPrefix, if_true]
    cases hFind : state.tokens.find? fun token =>
        revokes id (hashToken id) token.id token.hash with
    | none => simp [hHash]
    | some token =>
      have hSelected := find?_some hFind
      have hOwn := hash_of_revokes (hTokens token (mem_of_find?_eq_some hFind)) hSelected
      simp [hOwn, hHash]
  rw [rowHash, revokeTokenLoop_hash hTokens, hStart]
  exact hHash

/-- Once the claims are visited, nothing of the name stays in force. -/
theorem revokeRows_nothingLive {id : String} (now : Time)
    (h : (rowHash id state != "" || selectsScope id state) = true) :
    NothingLive ((revokeRows id now state).edits.apply state) id now := by
  have hNamed : ∀ other tokenHash hash, other = id → revokes id tokenHash other hash = true := by
    rintro other tokenHash hash rfl
    exact revokes_named _ _ _
  constructor
  case tokens =>
    exact Edit.onList_update_marked Token.id _ (fun token => { token with revoked := true })
      (fun _ => rfl) (fun _ _ hToken hID => revokeTokenLoop_named hToken hID _) (fun _ => rfl)
  case reservations =>
    exact Edit.onList_update_marked Reservation.id _ (fun row => { row with revoked := true })
      (fun _ => rfl) (fun _ _ _ => hNamed _ _ _) (fun _ => by simp [reservationListed])
  case authorizations =>
    exact Edit.onList_update_marked Authorization.id _ (fun row => { row with revoked := true })
      (fun _ => rfl) (fun _ _ _ => hNamed _ _ _) (fun _ => by simp [authorizationActiveAt])
  case leases =>
    exact Edit.onList_update_marked Lease.id _ (fun row => { row with expiresAt := now })
      (fun _ => rfl) (fun _ _ _ => hNamed _ _ _) (fun _ => by simp)
  case bypasses =>
    exact Edit.onList_update_marked BypassRule.id _ (fun rule => { rule with revoked := true })
      (fun _ => rfl) (fun _ _ _ => beq_iff_eq.mpr) (fun _ => by simp)
  case softClaims =>
    intro claim hClaim
    have hVisited : claim ∈ state.softClaims.filter (·.id != id) := by
      have hEdit : (revokeRows id now state).edits.softClaims = .filter (·.id != id) := if_pos h
      have hRows : claim ∈ (revokeRows id now state).edits.softClaims.onList state.softClaims := hClaim
      rwa [hEdit] at hRows
    simpa using (mem_filter.mp hVisited).2

/-- What a name must be for `Revoke` to put what it names out of force. Where it leads to a
reservation group, nothing else in force may have it. Otherwise it may not be the name of
claims alone, unless it has the form of a raw key. -/
def Withdrawable (state : State) (id : String) (now : Time) : Prop :=
  if managedGroupID id state = "" then
    id ∈ scopeNames state ∨ hasPrefix id "gk_" = true ∧ hashToken id ≠ ""
  else NothingLive (state.outside (managedGroupID id state)) id now

/-- A revocation leaves nothing live of a name exactly if that can be withdrawn. -/
theorem revoke_nothingLive_iff {idOrToken : String} (now : Time)
    (hNamed : trimSpace idOrToken ∈ scopeNames state ++ state.softClaims.map (·.id)) :
    (revoke idOrToken now state).result = .ok () ∧
        NothingLive ((revoke idOrToken now state).edits.apply state) (trimSpace idOrToken) now ↔
      Withdrawable state (trimSpace idOrToken) now := by
  generalize hName : trimSpace idOrToken = id at hNamed ⊢
  unfold Withdrawable
  by_cases hGroup : managedGroupID id state = ""
  · have hRevoke : revoke idOrToken now state = revokeRows id now state := by
      simp [revoke, hName, hGroup]
    rw [hRevoke, if_pos hGroup]
    constructor
    · rintro ⟨hOk, -⟩
      apply Classical.byContradiction
      intro hNot
      obtain ⟨hScopes, hKey⟩ := not_or.mp hNot
      obtain ⟨hSelects, hHash⟩ := selects_nothing hScopes hKey
      simp [revokeRows_result, hSelects, hHash] at hOk
    · intro h
      by_cases hScope : id ∈ scopeNames state
      · have hSelects := selectsScope_of_name hScope
        exact ⟨by simp [revokeRows_result, hSelects],
          revokeRows_nothingLive now (by simp [hSelects])⟩
      · -- Only claims have the name, and its hash makes the call visit them.
        obtain ⟨hPrefix, hKey⟩ := h.resolve_left hScope
        have hVisits : (rowHash id state != "" || selectsScope id state) = true := by
          simp [rowHash_of_key hScope hPrefix hKey]
        have hClaim : state.softClaims.any (·.id == id) = true := by
          obtain ⟨claim, hClaim, hID⟩ :=
            mem_map.mp ((mem_append.mp hNamed).resolve_left hScope)
          exact any_eq_true.mpr ⟨claim, hClaim, by simpa using hID⟩
        exact ⟨by simp [revokeRows_result, hVisits, hClaim], revokeRows_nothingLive now hVisits⟩
  · have hRevoke : revoke idOrToken now state = revokeGroup (managedGroupID id state) state := by
      simp [revoke, hName, hGroup]
    rw [hRevoke, if_neg hGroup, revokeGroup_apply, nothingLive_withoutGroup]
    exact and_iff_right rfl

/-- For every store and every name of something stored, the call succeeds and puts out of force
what has the name exactly if the name is withdrawable. -/
theorem revoke_withdraws_iff [Unicode] (codec : Codec) {store : Store} {idOrToken : String}
    (now : Time) {errors : SaveErrors}
    (hSaves : Store.Saves codec errors (.revoke idOrToken now) store)
    (hNamed : trimSpace idOrToken ∈ scopeNames store.state ++ store.state.softClaims.map (·.id)) :
    (store.call codec errors (.revoke idOrToken now)).2 = .ok () ∧
        NothingLive (store.call codec errors (.revoke idOrToken now)).1.state
          (trimSpace idOrToken) now ↔
      Withdrawable store.state (trimSpace idOrToken) now := by
  obtain ⟨hState, hResult⟩ := Store.call_saved codec hSaves
  rw [hState, hResult]
  exact revoke_nothingLive_iff now hNamed

end Withdrawal

section Samples

open scoped Plain

/-- A hash in hexadecimal. -/
def repeatedHash (c : Char) : String := String.ofList (List.replicate 64 c)

def keyOf (id owner : String) (c : Char) : ManagedUserKey :=
  { id := id, owner := owner, version := 1, hash := repeatedHash c }

/-- Alice gets a managed key and books two GPUs with it. -/
def aliceBooks : List (SaveErrors × Op) :=
  [({}, .syncManagedUserKeys (.ok true) (fun _ => "0")
      { snapshotID := "s1", keys := [keyOf "uk_1" "alice" 'a'] } 10),
    ({}, .registerManagedReservations (.ok true)
      { groupHex := "1", reservationHex := fun i => if i = 0 then "1" else "2" } "uk_1" "" "" [0, 1]
      100 200 20)]

/-- After that, a snapshot has a key for bob and none for alice. -/
def aliceLosesKey : List (SaveErrors × Op) :=
  aliceBooks ++ [(({} : SaveErrors), .syncManagedUserKeys (.ok true) (fun _ => "0")
    { snapshotID := "s2", keys := [keyOf "uk_2" "bob" 'b'] } 30)]

def aliceKeyed : State :=
  { managedKeys := true, keySnapshotID := "s1"
    tokens := [{ id := "uk_1", hash := repeatedHash 'a', name := "alice", mode := "managed"
                 version := 1, managed := true, createdAt := 10 }] }

def aliceRow (id : String) (gpu : Int) : Reservation :=
  { id := id, groupID := "grp_1", gpu := gpu, tokenHash := repeatedHash 'a', holder := "alice"
    createdAt := 20, startsAt := 100, expiresAt := 200, active := true }

def aliceBooked : State :=
  { aliceKeyed with reservations := [aliceRow "res_1" 0, aliceRow "res_2" 1] }

def aliceOrphaned : State :=
  { aliceBooked with
    keySnapshotID := "s2"
    tokens := [{ id := "uk_2", hash := repeatedHash 'b', name := "bob", mode := "managed"
                 version := 1, managed := true, createdAt := 30 }] }

def aliceBookedCodec : Codec :=
  tableCodec [aliceKeyed, aliceBooked, aliceOrphaned, aliceBooked.withoutGroup "grp_1"]

theorem aliceBooks_reached :
    ((⟨{}, {}, none⟩ : Store).run aliceBookedCodec aliceBooks).state = aliceBooked := by
  decide +kernel

theorem aliceBooks_draws :
    Store.Meets aliceBookedCodec DrawsNames ⟨{}, {}, none⟩ aliceBooks := by
  refine ⟨⟨fun _ => (by decide : IsHex "0"), by decide⟩, ⟨by decide, fun i => ?_, by decide +kernel⟩, trivial⟩
  dsimp only
  split
  · decide
  · decide

theorem revoke_reservation_exactly_alice :
    let store := (⟨{}, {}, none⟩ : Store).run aliceBookedCodec aliceBooks
    store.state = aliceBooked ∧
      (store.call aliceBookedCodec {} (.revoke "grp_1" 30)).1.state = aliceBooked.withoutGroup "grp_1" ∧
      (store.call aliceBookedCodec {} (.revoke "grp_1" 30)).2 = .ok () := by
  have hSaves : Store.Saves aliceBookedCodec {} (.revoke "grp_1" 30)
      (Store.run aliceBookedCodec aliceBooks ⟨{}, {}, none⟩) := fun _ => by decide +kernel
  refine ⟨aliceBooks_reached, ?_⟩
  rw [← aliceBooks_reached]
  refine @revoke_reservation_exactly ascii plain aliceBookedCodec aliceBooks aliceBooks_draws _ rfl
    (aliceRow "res_1" 0) ?_ ?_ "grp_1" (.inr rfl) 30 {} hSaves
  · rw [aliceBooks_reached]
    exact mem_cons_self
  · rw [aliceBooks_reached]
    exact ⟨_, mem_cons_self, rfl, rfl⟩

/-- The reservations of alice are live, and their group is not found. -/
theorem revoke_reservation_not_found :
    let store := (⟨{}, {}, none⟩ : Store).run aliceBookedCodec aliceLosesKey
    store.state = aliceOrphaned ∧
      (∀ row ∈ store.state.reservations, revocationGroup row = "grp_1" ∧ row.active = true ∧
        row.revoked = false ∧ (30 : Time) < row.expiresAt) ∧
      store.call aliceBookedCodec {} (.revoke "grp_1" 30) = (store, .error "grp_1 not found") := by
  decide +kernel

/-- GPU 2 is claimed by alice. -/
def aliceClaims : State :=
  { softClaims := [{ id := "claim_1", gpu := 2, tokenHash := repeatedHash 'a', holder := "alice"
                     authorizationID := "auth_1", runtimePID := 100, createdAt := 10 }] }

theorem revoke_withdraws_iff_alice :
    let store : Store := ⟨aliceBooked, {}, none⟩
    (store.call aliceBookedCodec {} (.revoke "res_1" 30)).2 = .ok () ∧
      NothingLive (store.call aliceBookedCodec {} (.revoke "res_1" 30)).1.state "res_1" 30 := by
  have hSaves : Store.Saves aliceBookedCodec {} (.revoke "res_1" 30)
      ⟨aliceBooked, {}, none⟩ := fun _ => by decide +kernel
  refine (@revoke_withdraws_iff plain ascii aliceBookedCodec ⟨aliceBooked, {}, none⟩ "res_1" 30 {} hSaves
    (by decide +kernel)).mpr ?_
  have hName : trimSpace "res_1" = "res_1" := by decide +kernel
  have hGroup : managedGroupID "res_1" aliceBooked = "grp_1" := by decide +kernel
  have hOutside : NothingLive (aliceBooked.outside "grp_1") "res_1" 30 := by
    constructor <;> decide +kernel
  simpa [Withdrawable, hName, hGroup] using hOutside

/-- A claim is not found by its id. -/
theorem revoke_claim_not_found :
    let store : Store := ⟨aliceClaims, {}, none⟩
    "claim_1" ∈ store.state.softClaims.map (·.id) ∧
      Store.Saves aliceBookedCodec {} (.revoke "claim_1" 30) store ∧
      store.call aliceBookedCodec {} (.revoke "claim_1" 30) = (store, .error "claim_1 not found") := by
  refine ⟨by decide, ?_, by decide +kernel⟩
  intro hSave
  exact absurd hSave (by decide +kernel)

end Samples

end GPUardian
