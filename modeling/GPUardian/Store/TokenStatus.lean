import GPUardian.Store.Views

/-! What a request with a token may read: `StatusForToken` and `EnforcementSnapshotForToken`. -/
namespace GPUardian

open GoStrings List Function

structure SoftClaimView where
  id : String := ""
  gpu : Int := 0
  authorizationID : String := ""
  holder : String := ""
  createdAt : Time := 0
  updatedAt : Time := 0
  runtimeContainerID : String := ""
  runtimeCgroup : String := ""
  runtimePID : Int := 0
  runtimeStartTime : Nat := 0
deriving DecidableEq, Repr

structure Status where
  now : Time := 0
  tokens : List TokenView := []
  reservations : List ReservationView := []
  authorizations : List AuthorizationView := []
  softClaims : List SoftClaimView := []
  leases : List Lease := []
  bypasses : List BypassRule := []
deriving DecidableEq, Repr

def errTokenHashRequired : String := "token hash is required"

def softClaimView (claim : SoftClaim) : SoftClaimView :=
  { id := claim.id
    gpu := claim.gpu
    authorizationID := claim.authorizationID
    holder := claim.holder
    createdAt := claim.createdAt
    updatedAt := claim.updatedAt
    runtimeContainerID := claim.runtimeContainerID
    runtimeCgroup := claim.runtimeCgroup
    runtimePID := claim.runtimePID
    runtimeStartTime := claim.runtimeStartTime }

section Status

variable [Unicode]

/-- `status` on the loaded state. The maps of the source are built from the rows that are shown. -/
def status (now : Time) (allowedTokenHash : String) (all : Bool) (state : State) : Status :=
  let shows (hash : String) : Bool := all || hash == allowedTokenHash
  let tokens := state.tokens.filter fun token => shows token.hash && !prunesToken state now token
  let tokenID (hash : String) : String := ((tokenByHash tokens hash).map (·.id)).getD ""
  let authorizations := state.authorizations.filter fun row =>
    shows row.tokenHash && authorizationActiveAt row now
  { now := now
    tokens := tokens.map fun token => { tokenView token with key := "", keyStatus := "" }
    reservations := (state.reservations.filter fun row =>
        shows row.tokenHash && reservationListed row now).map fun row =>
      reservationView (if row.groupID ≠ "" then row.groupID else tokenID row.tokenHash) row
    authorizations := authorizations.map fun row => authorizationView row (tokenID row.tokenHash)
    softClaims := (state.softClaims.filter fun claim =>
      shows claim.tokenHash && (tokens.any (·.hash == claim.tokenHash) &&
        authorizations.any (·.id == claim.authorizationID))).map softClaimView
    leases := if all then state.leases.filter fun row => row.active && decide (now < row.expiresAt) else []
    bypasses := if all then state.bypasses.filter (!prunesBypass now ·) else [] }

def statusForToken (tokenHash : String) (now : Time) (state : State) : Except String Status :=
  if tokenHash = "" then .error errTokenHashRequired else .ok (status now tokenHash false state)

end Status

def Token.withoutSecret (token : Token) : Token := { token with secret := "" }

def enforcementSnapshotForToken (tokenHash : String) (state : State) : Except String State :=
  if tokenHash = "" then .error errTokenHashRequired
  else
    let authorizations := state.authorizations.filter (·.tokenHash == tokenHash)
    .ok
      { tokens := (state.tokens.filter (·.hash == tokenHash)).map (·.withoutSecret)
        reservations := state.reservations.filter (·.tokenHash == tokenHash)
        authorizations := authorizations.map fun row => { row with command := [] }
        softClaims := state.softClaims.filter fun claim =>
          claim.tokenHash == tokenHash && authorizations.any (·.id == claim.authorizationID) }

/-- The rows of a token, in order and without its secret. -/
def State.part (hash : String) (state : State) : State :=
  { tokens := (state.tokens.filter (·.hash == hash)).map (·.withoutSecret)
    reservations := state.reservations.filter (·.tokenHash == hash)
    authorizations := state.authorizations.filter (·.tokenHash == hash)
    softClaims := state.softClaims.filter (·.tokenHash == hash) }

/-- The states agree on the rows of a token; the secrets may differ. -/
structure AgreeOn (hash : String) (first second : State) : Prop where
  tokens : (first.tokens.filter (·.hash == hash)).map (·.withoutSecret) =
    (second.tokens.filter (·.hash == hash)).map (·.withoutSecret)
  reservations : first.reservations.filter (·.tokenHash == hash) =
    second.reservations.filter (·.tokenHash == hash)
  authorizations : first.authorizations.filter (·.tokenHash == hash) =
    second.authorizations.filter (·.tokenHash == hash)
  softClaims : first.softClaims.filter (·.tokenHash == hash) =
    second.softClaims.filter (·.tokenHash == hash)

theorem AgreeOn.part {hash : String} {first second : State} (h : AgreeOn hash first second) :
    first.part hash = second.part hash := by
  simp only [State.part, h.tokens, h.reservations, h.authorizations, h.softClaims]

/-- A filter that only takes rows of the hash does not see the others. -/
theorem filter_own {α : Type} {own p q : α → Bool} (h : ∀ row, own row = true → p row = q row)
    (rows : List α) : (rows.filter own).filter (fun row => own row && p row) =
      rows.filter fun row => own row && q row := by
  rw [filter_filter]
  refine filter_congr fun row _ => ?_
  cases hOwn : own row
  · rfl
  · simp [h row hOwn]

section Own

variable (hash : String) (now : Time) (state : State)

theorem enforcementSnapshotForToken_part :
    enforcementSnapshotForToken hash (state.part hash) = enforcementSnapshotForToken hash state := by
  simp only [enforcementSnapshotForToken, State.part, filter_map, map_map, filter_filter,
    Bool.and_self, filter_own fun _ _ => rfl]
  simp [Token.withoutSecret, comp_def]

theorem liveReservationTokenHash_part :
    liveReservationTokenHash (state.part hash).reservations now hash =
      liveReservationTokenHash state.reservations now hash := by
  simp only [liveReservationTokenHash, State.part, any_filter]
  congr 1
  funext row
  cases row.tokenHash == hash <;> simp

variable [Unicode]

theorem prunesToken_part {token : Token} (h : token.hash = hash) :
    prunesToken (state.part hash) now token.withoutSecret = prunesToken state now token := by
  subst h
  rw [prunesToken, prunesToken, ← liveReservationTokenHash_part token.hash now state]
  rfl

/-- The tokens that are shown, without their secrets. -/
theorem shown_part :
    (state.part hash).tokens.filter (fun token =>
        token.hash == hash && !prunesToken (state.part hash) now token) =
      (state.tokens.filter fun token => token.hash == hash && !prunesToken state now token).map
        (·.withoutSecret) := by
  have hTokens : (state.part hash).tokens =
      (state.tokens.filter (·.hash == hash)).map (·.withoutSecret) := rfl
  rw [hTokens, filter_map, filter_filter]
  refine congrArg _ (filter_congr fun token _ => ?_)
  cases hHash : token.hash == hash
  · simp
  · have hPrunes := prunesToken_part hash now state (beq_iff_eq.mp hHash)
    rw [comp_apply, hPrunes]
    simp [hHash, Token.withoutSecret]

theorem status_part : status now hash false (state.part hash) = status now hash false state := by
  have hID (tokens : List Token) (other : String) :
      ((tokenByHash (tokens.map (·.withoutSecret)) other).map (·.id)).getD "" =
        ((tokenByHash tokens other).map (·.id)).getD "" := by
    simp [tokenByHash, ← map_reverse, find?_map, comp_def, Token.withoutSecret]
  simp only [status, Bool.false_or, shown_part, Bool.false_eq_true, if_false, hID, map_map,
    any_map]
  simp only [State.part, filter_own fun _ _ => rfl]
  rfl

end Own

/-- What a token may read is about its own rows: neither the rows of other tokens nor the leases, the
bypass rules and the secrets have a part in it, and no secret is shown. -/
theorem token_reads_own_rows [Unicode] {hash : String} {first second : State}
    (h : AgreeOn hash first second) (now : Time) :
    statusForToken hash now first = statusForToken hash now second ∧
      enforcementSnapshotForToken hash first = enforcementSnapshotForToken hash second ∧
      (∀ shown, statusForToken hash now first = .ok shown →
        (∀ token ∈ shown.tokens, token.key = "") ∧ shown.leases = [] ∧ shown.bypasses = []) ∧
      ∀ snapshot, enforcementSnapshotForToken hash first = .ok snapshot →
        ∀ token ∈ snapshot.tokens, token.secret = "" := by
  refine ⟨?_, ?_, fun shown hShown => ?_, fun snapshot hSnapshot => ?_⟩
  · unfold statusForToken
    rw [← status_part, h.part, status_part]
  · rw [← enforcementSnapshotForToken_part, h.part, enforcementSnapshotForToken_part]
  · unfold statusForToken at hShown
    split at hShown
    · cases hShown
    · cases hShown
      refine ⟨fun token hToken => ?_, rfl, rfl⟩
      obtain ⟨_, _, rfl⟩ := mem_map.mp hToken
      rfl
  · unfold enforcementSnapshotForToken at hSnapshot
    split at hSnapshot
    · cases hSnapshot
    · cases hSnapshot
      intro token hToken
      obtain ⟨_, _, rfl⟩ := mem_map.mp hToken
      rfl

def aliceAndBob : State :=
  { tokens := [{ id := "tok_1", hash := "a", secret := "key" }, { id := "tok_2", hash := "b" }]
    authorizations := [{ id := "auth_1", tokenHash := "a", active := true }]
    softClaims := [{ id := "claim_1", tokenHash := "a", authorizationID := "auth_1" }]
    bypasses := [{ id := "byp_1", expiresAt := 9 }] }

def aliceAlone : State :=
  { tokens := [{ id := "tok_1", hash := "a" }]
    authorizations := aliceAndBob.authorizations
    softClaims := aliceAndBob.softClaims }

open scoped Plain

theorem token_reads_own_rows_alice :
    AgreeOn "a" aliceAndBob aliceAlone ∧
      statusForToken "a" 5 aliceAndBob = statusForToken "a" 5 aliceAlone := by
  have hAgree : AgreeOn "a" aliceAndBob aliceAlone := ⟨by decide, by decide, by decide, by decide⟩
  exact ⟨hAgree, (@token_reads_own_rows ascii _ _ _ hAgree 5).1⟩

end GPUardian
