import GPUardian.Store.Groups

/-! What `Prune` leaves. Each table feeds the next one, and the claims are swept only if some row was
dropped before them. -/
namespace GPUardian

open GoStrings GoSlice List

/-- Every row is unrevoked, active and unexpired. -/
structure Live (now : Time) (state : State) : Prop where
  tokens : ∀ token ∈ state.tokens, tokenActiveAt token now = true
  reservations : ∀ row ∈ state.reservations,
    row.active = true ∧ row.revoked = false ∧ now < row.expiresAt
  authorizations : ∀ row ∈ state.authorizations, authorizationActiveAt row now = true
  leases : ∀ row ∈ state.leases, row.active = true ∧ now < row.expiresAt
  bypasses : ∀ row ∈ state.bypasses, row.revoked = false ∧ now < row.expiresAt

/-- Every soft claim refers to a stored authorization. -/
def ClaimsBound (state : State) : Prop :=
  ∀ claim ∈ state.softClaims, ∃ row ∈ state.authorizations, row.id = claim.authorizationID

theorem prunesBypass_eq_false {now : Time} {row : BypassRule} :
    prunesBypass now row = false ↔ row.revoked = false ∧ now < row.expiresAt := by
  simp [prunesBypass]

section Pruning

variable [Unicode] {now : Time} {state : State}

/-- Every reserved key has a live reservation. -/
def KeysBooked (now : Time) (state : State) : Prop :=
  ∀ token ∈ state.tokens, normalizeTokenMode token.mode = tokenModeReserved →
    liveReservationTokenHash state.reservations now token.hash = true

/-- A row is gone only because a token with its hash is. -/
def TokenRemoved (before after : State) (hash : String) : Prop :=
  ∃ token ∈ before.tokens, token.hash = hash ∧ token ∉ after.tokens

/-- What a call of `Prune` is to achieve. -/
structure Pruned (now : Time) (before after : State) : Prop where
  live : Live now after
  claims : ClaimsBound after
  keys : ∀ token ∈ before.tokens, tokenActiveAt token now = true →
    normalizeTokenMode token.mode = tokenModeClaimed ∨
      normalizeTokenMode token.mode = tokenModeManaged → token ∈ after.tokens
  reservations : ∀ row ∈ before.reservations, row.active = true → row.revoked = false →
    now < row.expiresAt → row ∈ after.reservations ∨ TokenRemoved before after row.tokenHash
  authorizations : ∀ row ∈ before.authorizations, authorizationActiveAt row now = true →
    row ∈ after.authorizations ∨ TokenRemoved before after row.tokenHash
  again : (prune now after).save = false ∧ (prune now after).edits.apply after = after

theorem prunesLease_eq_false {row : Lease} :
    prunesLease state now row = false ↔ (row.active = true ∧ now < row.expiresAt) ∧
      expiredTokenHash state now row.tokenHash = false := by
  simp [prunesLease]

/-- A call drops nothing exactly if every row is live and every reserved key booked. -/
theorem prune_save_eq_false :
    (prune now state).save = false ↔ Live now state ∧ KeysBooked now state := by
  simp only [prune, Bool.or_eq_false_iff, any_eq_false, Bool.not_eq_true]
  constructor
  · rintro ⟨⟨⟨⟨hTokens, hRows⟩, hAuthorizations⟩, hLeases⟩, hBypasses⟩
    refine ⟨⟨?_, ?_, ?_, ?_, ?_⟩, ?_⟩
    · exact fun token hToken => (prunesToken_eq_false.mp (hTokens token hToken)).1
    · exact fun row hRow => (prunesReservation_eq_false.mp (hRows row hRow)).1
    · exact fun row hRow => (prunesAuthorization_eq_false.mp (hAuthorizations row hRow)).1
    · exact fun row hRow => (prunesLease_eq_false.mp (hLeases row hRow)).1
    · exact fun row hRow => prunesBypass_eq_false.mp (hBypasses row hRow)
    · exact fun token hToken => (prunesToken_eq_false.mp (hTokens token hToken)).2
  · rintro ⟨h, hBooked⟩
    have hTokens : ∀ token ∈ state.tokens, prunesToken state now token = false := fun token hToken =>
      prunesToken_eq_false.mpr ⟨h.tokens token hToken, hBooked token hToken⟩
    have hHashes : ∀ hash, expiredTokenHash state now hash = false := fun _ =>
      expiredTokenHash_eq_false.mpr fun token hToken _ _ => hTokens token hToken
    refine ⟨⟨⟨⟨hTokens, ?_⟩, ?_⟩, ?_⟩, ?_⟩
    · exact fun row hRow => prunesReservation_eq_false.mpr ⟨h.reservations row hRow, hHashes _⟩
    · exact fun row hRow => prunesAuthorization_eq_false.mpr ⟨h.authorizations row hRow, hHashes _⟩
    · exact fun row hRow => prunesLease_eq_false.mpr ⟨h.leases row hRow, hHashes _⟩
    · exact fun row hRow => prunesBypass_eq_false.mpr (h.bypasses row hRow)

theorem live_prune : Live now ((prune now state).edits.apply state) where
  tokens _ hToken := (prunesToken_eq_false.mp (mem_kept.mp hToken).2).1
  reservations _ hRow := (prunesReservation_eq_false.mp (mem_kept.mp hRow).2).1
  authorizations _ hRow := (prunesAuthorization_eq_false.mp (mem_kept.mp hRow).2).1
  leases _ hRow := (prunesLease_eq_false.mp (mem_kept.mp hRow).2).1
  bypasses _ hRow := prunesBypass_eq_false.mp (mem_kept.mp hRow).2

/-- The reservation that keeps a reserved key is kept: no other token has the hash of the key. -/
theorem keysBooked_prune (hNodup : (state.tokens.map (·.hash)).Nodup) :
    KeysBooked now ((prune now state).edits.apply state) := by
  intro token hToken hMode
  obtain ⟨hStored, hKept⟩ := mem_kept.mp hToken
  obtain ⟨hNamed, row, hRow, hLive, hHash⟩ :=
    liveReservationTokenHash_eq_true.mp ((prunesToken_eq_false.mp hKept).2 hMode)
  refine liveReservationTokenHash_eq_true.mpr ⟨hNamed, row, mem_kept.mpr ⟨hRow, ?_⟩, hLive, hHash⟩
  refine prunesReservation_eq_false.mpr ⟨hLive, expiredTokenHash_eq_false.mpr ?_⟩
  intro other hOther hSame _
  rwa [inj_on_of_nodup_map hNodup hOther hStored (hSame.trans hHash)]

theorem tokenRemoved_of_expired {hash : String} (h : expiredTokenHash state now hash = true) :
    TokenRemoved state ((prune now state).edits.apply state) hash := by
  obtain ⟨token, hToken, hExpired⟩ := any_eq_true.mp h
  simp only [Bool.and_eq_true, beq_iff_eq] at hExpired
  refine ⟨token, hToken, hExpired.2, fun hKept => ?_⟩
  rw [(mem_kept.mp hKept).2] at hExpired
  cases hExpired.1.1

theorem claimsBound_prune (hChanged : (prune now state).save = true) :
    ClaimsBound ((prune now state).edits.apply state) := by
  intro claim hClaim
  have hSwept : (prune now state).edits.softClaims = .filter (!prunesSoftClaim state now ·) :=
    if_pos hChanged
  simp only [Edits.apply, hSwept] at hClaim
  have hKept := (mem_kept.mp hClaim).2
  simp only [prunesSoftClaim, Bool.or_eq_false_iff, Bool.not_eq_false', any_eq_true,
    beq_iff_eq] at hKept
  exact hKept.2

variable [Digest]

/-- The call does all it is to do exactly if it drops a row or finds no claim without its
authorization. -/
theorem pruned_iff (hNodup : (state.tokens.map (·.hash)).Nodup) :
    Pruned now state ((prune now state).edits.apply state) ↔
      (Live now state ∧ KeysBooked now state → ClaimsBound state) := by
  have hClean : ∀ state, (prune now state).save = false → (prune now state).edits.apply state = state :=
    fun state => Op.effect_clean state (.prune now)
  constructor
  · intro h hLive
    have hClaims := h.claims
    rwa [hClean state (prune_save_eq_false.mpr hLive)] at hClaims
  · intro hBound
    have hLive : Live now ((prune now state).edits.apply state) := live_prune
    have hAgain := prune_save_eq_false.mpr ⟨hLive, keysBooked_prune hNodup⟩
    refine ⟨hLive, ?_, ?_, ?_, ?_, hAgain, hClean _ hAgain⟩
    · cases hSave : (prune now state).save with
      | true => exact claimsBound_prune hSave
      | false =>
        rw [hClean state hSave]
        exact hBound (prune_save_eq_false.mp hSave)
    · intro token hToken hActive hMode
      refine mem_kept.mpr ⟨hToken, prunesToken_eq_false.mpr ⟨hActive, fun hReserved => ?_⟩⟩
      rw [hReserved] at hMode
      exact absurd hMode (by decide)
    · intro row hRow hActive hRevoked hExpires
      cases hHash : expiredTokenHash state now row.tokenHash with
      | true => exact .inr (tokenRemoved_of_expired hHash)
      | false =>
        exact .inl (mem_kept.mpr ⟨hRow, prunesReservation_eq_false.mpr
          ⟨⟨hActive, hRevoked, hExpires⟩, hHash⟩⟩)
    · intro row hRow hActive
      cases hHash : expiredTokenHash state now row.tokenHash with
      | true => exact .inr (tokenRemoved_of_expired hHash)
      | false =>
        exact .inl (mem_kept.mpr ⟨hRow, prunesAuthorization_eq_false.mpr ⟨hActive, hHash⟩⟩)

/-- A call of the daemon that draws a new secret, if it draws one. -/
def IssuesFresh (state : State) (op : Op) : Prop := op.daemon = true ∧ FreshSecret state op

/-- In every state that the daemon's calls reach, whatever saves fail, `Prune` does all it is to do
exactly if some row is to be dropped or every soft claim still has its authorization. -/
theorem prune_complete_iff (codec : Codec) {calls : List (SaveErrors × Op)}
    (hCalls : Store.Meets codec IssuesFresh ⟨{}, {}, none⟩ calls) (now : Time) :
    let state := ((⟨{}, {}, none⟩ : Store).run codec calls).state
    Pruned now state ((prune now state).edits.apply state) ↔
      (Live now state ∧ KeysBooked now state → ClaimsBound state) :=
  pruned_iff (hCalls.invariant codec
    (P := fun state => (state.tokens.map (·.hash)).Nodup)
    (fun state op hOp hNodup => (Op.grants state op hOp.1 hNodup hOp.2 now).1)
    (Store.synced_empty codec) .nil)

end Pruning

section Samples

open scoped Plain

def claimant : Authorization :=
  { id := "auth_1", tokenHash := "t", cgroupPath := "/c", active := true }

def claimRow : SoftClaim :=
  { id := "claim_1", authorizationID := "auth_1", tokenHash := "t", createdAt := 2, updatedAt := 2 }

/-- A command claims a GPU and ends, and its cgroup is found empty. -/
def claimantEnds : List (SaveErrors × Op) :=
  [({}, .addAuthorization claimant 1),
    ({}, .upsertSoftClaim "1" { authorizationID := "auth_1", tokenHash := "t" } 2),
    ({}, .releaseAuthorization "auth_1"), ({}, .pruneInactiveManagedScopes ["auth_1"] [])]

def claimantCodec : Codec :=
  tableCodec [{ authorizations := [claimant] },
    { authorizations := [claimant], softClaims := [claimRow] },
    { authorizations := [{ claimant with active := false }], softClaims := [claimRow] },
    { softClaims := [claimRow] }]

/-- Before the cgroup is found empty, both rows are dropped. -/
theorem prune_complete_iff_claimant :
    let state := ((⟨{}, {}, none⟩ : Store).run claimantCodec (claimantEnds.take 3)).state
    Pruned 9 state ((prune 9 state).edits.apply state) := by
  have hEnded : { claimant with active := false } ∈ ((⟨{}, {}, none⟩ : Store).run claimantCodec
      (claimantEnds.take 3)).state.authorizations := by decide +kernel
  have hCalls : Store.Meets claimantCodec IssuesFresh ⟨{}, {}, none⟩ (claimantEnds.take 3) :=
    ⟨⟨rfl, trivial⟩, ⟨rfl, trivial⟩, ⟨rfl, trivial⟩, trivial⟩
  refine (prune_complete_iff claimantCodec hCalls 9).mpr fun h => ?_
  exact absurd (h.1.authorizations _ hEnded) (by decide)

/-- Afterwards the claim is without its authorization, and nothing else is to be dropped. -/
theorem prune_keeps_claim_without_authorization :
    ¬ ∀ (codec : Codec) (calls : List (SaveErrors × Op)) (now : Time),
      Store.Meets codec IssuesFresh ⟨{}, {}, none⟩ calls →
        let state := ((⟨{}, {}, none⟩ : Store).run codec calls).state
        Pruned now state ((prune now state).edits.apply state) := by
  intro h
  have hState : ((⟨{}, {}, none⟩ : Store).run claimantCodec claimantEnds).state =
      { softClaims := [claimRow] } := by decide +kernel
  have hPruned := h claimantCodec claimantEnds 9
    ⟨⟨rfl, trivial⟩, ⟨rfl, trivial⟩, ⟨rfl, trivial⟩, ⟨rfl, trivial⟩, trivial⟩
  rw [hState] at hPruned
  obtain ⟨row, hRow, _⟩ := hPruned.claims claimRow (mem_singleton_self _)
  cases hRow

end Samples

end GPUardian
