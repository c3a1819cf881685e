import GPUardian.Enforce.Eviction
import GPUardian.Store.Revocation

/-! `PruneUnreferencedInvalidEntitlements` is invisible to the eviction scan: a scope without a
cgroup joins tokens and reservations by its token hash, and no row with such a hash is dropped. -/
namespace GPUardian

open GoStrings GoSlice List

variable {now : Time} {state before after : State} {hash : String}

/-- The token that a hash stands for is unrevoked and unexpired. -/
def validTokenHash (state : State) (now : Time) (hash : String) : Bool :=
  ((tokenByHash state.tokens hash).map (tokenActiveAt · now)).getD false

/-- What the call leaves, also where it finds nothing to drop. -/
theorem pruneUnreferencedInvalidEntitlements_state :
    (pruneUnreferencedInvalidEntitlements now state).edits.apply state =
      { state with
        reservations := state.reservations.filter fun row =>
          !((!row.active || row.revoked || !decide (now < row.expiresAt)) &&
            !referencedTokenHash state row.tokenHash)
        tokens := state.tokens.filter fun token =>
          !(!validTokenHash state now token.hash && !referencedTokenHash state token.hash) } := by
  unfold pruneUnreferencedInvalidEntitlements
  dsimp only
  split
  · rfl
  · rename_i hNone
    rw [Bool.not_eq_true, Bool.or_eq_false_iff] at hNone
    have hRows := any_eq_false.mp hNone.1
    have hTokens := any_eq_false.mp hNone.2
    rw [filter_eq_self.mpr, filter_eq_self.mpr]
    · rfl
    · exact fun row hRow => (Bool.not_eq_true' _).mpr (Bool.eq_false_iff.mpr (hRows row hRow))
    · exact fun token hToken => (Bool.not_eq_true' _).mpr (Bool.eq_false_iff.mpr (hTokens token hToken))

/-- Two states have the same rows with a token hash. -/
structure SameRows (hash : String) (before after : State) : Prop where
  token : tokenByHash after.tokens hash = tokenByHash before.tokens hash
  rows : ∀ row : Reservation, row.tokenHash = hash →
    (row ∈ after.reservations ↔ row ∈ before.reservations)

/-- No row is dropped whose hash is referenced. -/
theorem sameRows_of_referenced (h : referencedTokenHash state hash = true) :
    SameRows hash state ((pruneUnreferencedInvalidEntitlements now state).edits.apply state) := by
  rw [pruneUnreferencedInvalidEntitlements_state]
  constructor
  case token =>
    simp only [tokenByHash, ← filter_reverse, find?_filter]
    refine congrArg (List.find? · _) (funext fun token => ?_)
    by_cases hHash : token.hash = hash
    · simp [hHash, h]
    · simp [hHash]
  case rows =>
    rintro row rfl
    simp [h]

namespace SameRows

theorem leaseEvictionState {lease : Lease} (gpu : Int)
    (h : lease.tokenHash = "" ∨ SameRows lease.tokenHash before after) :
    leaseEvictionState lease gpu after.tokens now = leaseEvictionState lease gpu before.tokens now := by
  have hEntitled : leaseEntitledOnGPU lease gpu after.tokens now =
      leaseEntitledOnGPU lease gpu before.tokens now := by
    unfold leaseEntitledOnGPU
    rcases h with hNone | hSame
    · simp [hNone]
    · rw [hSame.token]
  simp only [GPUardian.leaseEvictionState, hEntitled]

variable (h : SameRows hash before after)
include h

/-- A property of rows that reads their token only is met by the same rows with the hash. -/
theorem any_key {p : List Token → Reservation → Bool} (gpu : Int)
    (hTokens : ∀ row : Reservation, row.tokenHash = hash → p after.tokens row = p before.tokens row) :
    (after.reservations.any fun row => reservationKey gpu hash row && p after.tokens row) =
      before.reservations.any fun row => reservationKey gpu hash row && p before.tokens row := by
  have hKey : ∀ row : Reservation, reservationKey gpu hash row = true → row.tokenHash = hash := by
    intro row hRow
    simp only [reservationKey, Bool.and_eq_true, beq_iff_eq] at hRow
    exact hRow.2
  rw [Bool.eq_iff_iff]
  simp only [any_eq_true, Bool.and_eq_true]
  refine exists_congr fun row => ⟨fun ⟨hMem, hRow, hHolds⟩ => ?_, fun ⟨hMem, hRow, hHolds⟩ => ?_⟩
  · exact ⟨(h.rows row (hKey row hRow)).mp hMem, hRow, hTokens row (hKey row hRow) ▸ hHolds⟩
  · exact ⟨(h.rows row (hKey row hRow)).mpr hMem, hRow, (hTokens row (hKey row hRow)).symm ▸ hHolds⟩

variable [Unicode]

theorem reservationTokenValid {row : Reservation} (hRow : row.tokenHash = hash) :
    reservationTokenValid after.tokens now row = reservationTokenValid before.tokens now row := by
  unfold GPUardian.reservationTokenValid
  rw [hRow, h.token]

theorem authorizationEvictionState {authorization : Authorization} (gpu : Int)
    (hHash : authorization.tokenHash = hash) :
    authorizationEvictionState authorization gpu after now =
      authorizationEvictionState authorization gpu before now := by
  have hValid : validReservations after now gpu hash = validReservations before now gpu hash := by
    refine h.any_key (p := fun tokens => reservationValid tokens now) gpu fun row hRow => ?_
    simp only [reservationValid, h.reservationTokenValid hRow]
  have hStale : staleReservations after now gpu hash = staleReservations before now gpu hash := by
    refine h.any_key (p := fun tokens => reservationStale tokens now) gpu fun row hRow => ?_
    simp only [reservationStale, reservationValid, h.reservationTokenValid hRow]
  simp only [GPUardian.authorizationEvictionState, authorizationGloballyValid,
    authorizationEvictionMode, hHash, h.token, hValid, hStale]

end SameRows

section Scan

variable [Unicode]

/-- The call changes nothing for the scopes without a cgroup, other than authorizations without a
token hash, and drops neither a reservation that counts nor a token whose hash is valid. -/
theorem pruned_entitlements_invisible (now : Time) (state : State) :
    let after := (pruneUnreferencedInvalidEntitlements now state).edits.apply state
    (∀ authorization ∈ state.authorizations, authorization.cgroupPath = "" →
      authorization.tokenHash ≠ "" → ∀ gpu, authorizationEvictionState authorization gpu after now =
        authorizationEvictionState authorization gpu state now) ∧
    (∀ lease ∈ state.leases, lease.cgroupPath = "" → ∀ gpu,
      leaseEvictionState lease gpu after.tokens now = leaseEvictionState lease gpu state.tokens now) ∧
    (∀ row ∈ state.reservations, row.active = true → row.revoked = false → now < row.expiresAt →
      row ∈ after.reservations) ∧
    ∀ token ∈ state.tokens, validTokenHash state now token.hash = true → token ∈ after.tokens := by
  refine ⟨?_, ?_, ?_, ?_⟩
  · intro authorization hMem hPath hHash gpu
    refine (sameRows_of_referenced ?_).authorizationEvictionState gpu rfl
    refine Bool.or_eq_true_iff.mpr (.inl (any_eq_true.mpr ⟨authorization, hMem, ?_⟩))
    simp [hPath, hHash]
  · intro lease hMem hPath gpu
    refine SameRows.leaseEvictionState gpu (or_iff_not_imp_left.mpr fun hHash => ?_)
    refine sameRows_of_referenced
      (Bool.or_eq_true_iff.mpr (.inr (any_eq_true.mpr ⟨lease, hMem, ?_⟩)))
    simp [hPath, hHash]
  · intro row hRow hActive hRevoked hExpires
    rw [pruneUnreferencedInvalidEntitlements_state]
    exact mem_filter.mpr ⟨hRow, by simp [hActive, hRevoked, hExpires]⟩
  · intro token hToken hValid
    rw [pruneUnreferencedInvalidEntitlements_state]
    exact mem_filter.mpr ⟨hToken, by simp [hValid]⟩

end Scan

open scoped Plain

/-- An authorization without a token hash takes its mode from a revoked token without one, which is
dropped; so is a valid token whose hash a later, revoked row has. -/
theorem pruned_entitlements_visible :
    (¬ ∀ (now : Time) (state : State), ∀ authorization ∈ state.authorizations,
      authorization.cgroupPath = "" → ∀ gpu, authorizationEvictionState authorization gpu
          ((pruneUnreferencedInvalidEntitlements now state).edits.apply state) now =
        authorizationEvictionState authorization gpu state now) ∧
    ¬ ∀ (now : Time) (state : State), ∀ token ∈ state.tokens, tokenActiveAt token now = true →
      token ∈ ((pruneUnreferencedInvalidEntitlements now state).edits.apply state).tokens := by
  refine ⟨fun h => ?_, fun h => ?_⟩
  · have hSame := h 0
      { tokens := [{ revoked := true, mode := tokenModeReserved }],
        authorizations := [{ tokenMode := tokenModeClaimed }] } _ (mem_singleton_self _) rfl 0
    revert hSame
    decide
  · have hKept := h 0 { tokens := [{ hash := "h" }, { hash := "h", revoked := true }] }
      _ mem_cons_self rfl
    revert hKept
    decide

end GPUardian
