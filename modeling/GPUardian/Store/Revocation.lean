import GPUardian.Store.Scopes

/-! Store calls that withdraw entitlements and remove rows that no longer matter. -/
namespace GPUardian

open GoStrings GoSlice

section Revoke

variable [Digest]

/-- The group a row is revoked with: its own id where it has no group. -/
def revocationGroup (reservation : Reservation) : String :=
  if reservation.groupID = "" then reservation.id else reservation.groupID

/-- Rows selected by `Revoke`: the named one and those of the named token. -/
def revokes (idOrToken tokenHash id hash : String) : Bool :=
  id == idOrToken || (tokenHash != "" && hash == tokenHash)

/-- The token loop of `Revoke`. A selected token becomes the one whose hash selects
the rows after it, so the loop carries the hash. Returns which rows were selected and
the last hash. -/
def revokeTokenLoop (idOrToken : String) : String → List Token → List Bool × String
  | tokenHash, [] => ([], tokenHash)
  | tokenHash, token :: rest =>
    if revokes idOrToken tokenHash token.id token.hash then
      let loop := revokeTokenLoop idOrToken token.hash rest
      (true :: loop.1, loop.2)
    else
      let loop := revokeTokenLoop idOrToken tokenHash rest
      (false :: loop.1, loop.2)

/-- The token hash `Revoke` starts its loops with. -/
def revokedTokenHash (idOrToken : String) (state : State) : String :=
  let tokenHash := if hasPrefix idOrToken "gk_" then hashToken idOrToken else ""
  let tokenHash :=
    match state.tokens.find? fun token => revokes idOrToken tokenHash token.id token.hash with
    | some token => token.hash
    | none => tokenHash
  if tokenHash = "" then
    ((state.reservations.find? (·.id == idOrToken)).map (·.tokenHash)).getD ""
  else tokenHash

/-- The reservation group of a managed key that is named, or empty. -/
def managedGroupID (idOrToken : String) (state : State) : String :=
  let managed (hash : String) : Bool := state.tokens.any fun token => token.managed && token.hash == hash
  ((state.reservations.find? fun row => managed row.tokenHash &&
    (row.id == idOrToken || revocationGroup row == idOrToken)).map revocationGroup).getD ""

def revokeGroup (group : String) (state : State) : Effect Unit :=
  let selected (row : Reservation) : Bool := revocationGroup row == group && !row.revoked
  { edits := { reservations := .update fun _ row =>
      if selected row then { row with revoked := true } else row }
    save := state.reservations.any selected
    result := .ok () }

/-- The loops over every kind of row. `now` is the clock read for the leases that end. -/
def revokeRows (idOrToken : String) (now : Time) (state : State) : Effect Unit :=
  let loop := revokeTokenLoop idOrToken (revokedTokenHash idOrToken state) state.tokens
  let tokenHash := loop.2
  let selected := revokes idOrToken tokenHash
  let changed := loop.1.any id ||
    state.reservations.any (fun row => selected row.id row.tokenHash) ||
    state.authorizations.any (fun row => selected row.id row.tokenHash) ||
    state.leases.any (fun row => selected row.id row.tokenHash) ||
    state.bypasses.any (·.id == idOrToken)
  let visitClaims := tokenHash != "" || changed
  let changed := changed || (visitClaims && state.softClaims.any (·.id == idOrToken))
  { edits :=
      { tokens := .update fun i token =>
          if loop.1.getD i false then { token with revoked := true } else token
        reservations := .update fun _ row =>
          if selected row.id row.tokenHash then { row with revoked := true } else row
        authorizations := .update fun _ row =>
          if selected row.id row.tokenHash then { row with revoked := true } else row
        leases := .update fun _ row =>
          if selected row.id row.tokenHash then { row with expiresAt := now } else row
        bypasses := .update fun _ row =>
          if row.id == idOrToken then { row with revoked := true } else row
        softClaims := if visitClaims then .filter (·.id != idOrToken) else .keep }
    save := changed
    result := if changed then .ok () else .error s!"{idOrToken} not found" }

def revoke (idOrToken : String) (now : Time) (state : State) : Effect Unit :=
  let idOrToken := trimSpace idOrToken
  if managedGroupID idOrToken state ≠ "" then revokeGroup (managedGroupID idOrToken state) state
  else revokeRows idOrToken now state

end Revoke

theorem mem_kept {α : Type} {drops : α → Bool} {rows : List α} {row : α} :
    row ∈ (Edit.filter (!drops ·)).onList rows ↔ row ∈ rows ∧ drops row = false := by
  simp [Edit.onList]

section Prune

variable [Unicode]

def liveReservationTokenHash (reservations : List Reservation) (now : Time) (hash : String) : Bool :=
  reservations.any fun row => row.active && !row.revoked && decide (now < row.expiresAt) &&
    row.tokenHash != "" && row.tokenHash == hash

/-- A token row that `Prune` drops: revoked, expired, or a reserved key without a
live reservation. -/
def prunesToken (state : State) (now : Time) (token : Token) : Bool :=
  token.revoked || tokenExpired token now ||
    (normalizeTokenMode token.mode == tokenModeReserved &&
      !liveReservationTokenHash state.reservations now token.hash)

def expiredTokenHash (state : State) (now : Time) (hash : String) : Bool :=
  state.tokens.any fun token => prunesToken state now token && token.hash != "" && token.hash == hash

def prunesReservation (state : State) (now : Time) (row : Reservation) : Bool :=
  row.revoked || !row.active || !decide (now < row.expiresAt) || expiredTokenHash state now row.tokenHash

def prunesAuthorization (state : State) (now : Time) (row : Authorization) : Bool :=
  row.revoked || !row.active || authorizationExpired row now || expiredTokenHash state now row.tokenHash

def prunesLease (state : State) (now : Time) (row : Lease) : Bool :=
  !row.active || !decide (now < row.expiresAt) || expiredTokenHash state now row.tokenHash

def prunesBypass (now : Time) (row : BypassRule) : Bool :=
  row.revoked || !decide (now < row.expiresAt)

/-- Claims survive with their token and a surviving authorization. -/
def prunesSoftClaim (state : State) (now : Time) (row : SoftClaim) : Bool :=
  expiredTokenHash state now row.tokenHash ||
    !(state.authorizations.filter (!prunesAuthorization state now ·)).any (·.id == row.authorizationID)

def prune (now : Time) (state : State) : Effect Unit :=
  let changed := state.tokens.any (prunesToken state now) ||
    state.reservations.any (prunesReservation state now) ||
    state.authorizations.any (prunesAuthorization state now) ||
    state.leases.any (prunesLease state now) ||
    state.bypasses.any (prunesBypass now)
  { edits :=
      { tokens := .filter (!prunesToken state now ·)
        reservations := .filter (!prunesReservation state now ·)
        authorizations := .filter (!prunesAuthorization state now ·)
        leases := .filter (!prunesLease state now ·)
        bypasses := .filter (!prunesBypass now ·)
        -- A dropped token hash implies a dropped token, so `changed` alone decides.
        softClaims := if changed then .filter (!prunesSoftClaim state now ·) else .keep }
    save := changed
    result := .ok () }

variable {state : State} {now : Time}

omit [Unicode] in
theorem liveReservationTokenHash_eq_true {rows : List Reservation} {hash : String} :
    liveReservationTokenHash rows now hash = true ↔ hash ≠ "" ∧ ∃ row ∈ rows,
      (row.active = true ∧ row.revoked = false ∧ now < row.expiresAt) ∧ row.tokenHash = hash := by
  simp only [liveReservationTokenHash, List.any_eq_true, Bool.and_eq_true, bne_iff_ne, beq_iff_eq,
    Bool.not_eq_true', decide_eq_true_eq]
  constructor
  · rintro ⟨row, hRow, ⟨⟨⟨hActive, hRevoked⟩, hLasts⟩, hNamed⟩, rfl⟩
    exact ⟨hNamed, row, hRow, ⟨hActive, hRevoked, hLasts⟩, rfl⟩
  · rintro ⟨hNamed, row, hRow, ⟨hActive, hRevoked, hLasts⟩, rfl⟩
    exact ⟨row, hRow, ⟨⟨⟨hActive, hRevoked⟩, hLasts⟩, hNamed⟩, rfl⟩

theorem prunesToken_eq_false {token : Token} :
    prunesToken state now token = false ↔ tokenActiveAt token now = true ∧
      (normalizeTokenMode token.mode = tokenModeReserved →
        liveReservationTokenHash state.reservations now token.hash = true) := by
  simp [prunesToken, tokenActiveAt, and_assoc]

theorem expiredTokenHash_eq_false {hash : String} :
    expiredTokenHash state now hash = false ↔ ∀ token ∈ state.tokens, token.hash = hash →
      hash ≠ "" → prunesToken state now token = false := by
  simp only [expiredTokenHash, List.any_eq_false, Bool.and_eq_true, bne_iff_ne, beq_iff_eq]
  refine forall₂_congr fun token _ => ?_
  rw [← Bool.not_eq_true]
  grind

theorem prunesReservation_eq_false {row : Reservation} :
    prunesReservation state now row = false ↔
      (row.active = true ∧ row.revoked = false ∧ now < row.expiresAt) ∧
        expiredTokenHash state now row.tokenHash = false := by
  simp only [prunesReservation, Bool.or_eq_false_iff, Bool.not_eq_false', decide_eq_true_eq]
  tauto

theorem prunesAuthorization_eq_false {row : Authorization} :
    prunesAuthorization state now row = false ↔ authorizationActiveAt row now = true ∧
      expiredTokenHash state now row.tokenHash = false := by
  simp only [prunesAuthorization, authorizationActiveAt, Bool.or_eq_false_iff, Bool.not_eq_false',
    Bool.and_eq_true, Bool.not_eq_true']
  tauto

end Prune

def pruneInactiveManagedScopes (authorizationIDs leaseIDs : List String) (state : State) :
    Effect Unit :=
  let dropsAuthorization (row : Authorization) : Bool :=
    authorizationIDs.contains row.id && !row.active && row.cgroupPath != ""
  let dropsLease (row : Lease) : Bool := leaseIDs.contains row.id && !row.active && row.cgroupPath != ""
  if state.authorizations.any dropsAuthorization || state.leases.any dropsLease then
    .store
      { authorizations := .replace (state.authorizations.filter (!dropsAuthorization ·))
        leases := .replace (state.leases.filter (!dropsLease ·)) } ()
  else .done ()

/-- Token hashes that a scope without a cgroup still needs for eviction. -/
def referencedTokenHash (state : State) (hash : String) : Bool :=
  state.authorizations.any (fun row => row.cgroupPath == "" && row.tokenHash != "" && row.tokenHash == hash) ||
    state.leases.any (fun row => row.cgroupPath == "" && row.tokenHash != "" && row.tokenHash == hash)

def pruneUnreferencedInvalidEntitlements (now : Time) (state : State) : Effect Unit :=
  let dropsReservation (row : Reservation) : Bool :=
    (!row.active || row.revoked || !decide (now < row.expiresAt)) && !referencedTokenHash state row.tokenHash
  let tokenValid (hash : String) : Bool := ((tokenByHash state.tokens hash).map (tokenActiveAt · now)).getD false
  let dropsToken (row : Token) : Bool := !tokenValid row.hash && !referencedTokenHash state row.hash
  if state.reservations.any dropsReservation || state.tokens.any dropsToken then
    .store
      { reservations := .replace (state.reservations.filter (!dropsReservation ·))
        tokens := .replace (state.tokens.filter (!dropsToken ·)) } ()
  else .done ()

end GPUardian
