import GPUardian.Store.Revocation

/-! All mutating store calls as one type of operations, and the two facts about them
that later results rest on: what a call that does not save leaves behind, and what a
call edits. -/
namespace GPUardian

open GoStrings GoSlice Option

inductive Op where
  | registerSoftToken (rootKey : RootKeyCheck) (fresh : Fresh) (name : String) (now : Time)
  | registerToken (rootKey : RootKeyCheck) (fresh : Fresh) (name : String)
      (ttl : Except String Duration) (now : Time)
  | registerScheduledReservationsWithSession (rootKey : RootKeyCheck) (fresh : Fresh)
      (name purpose externalSessionID : String) (gpus : List Int) (startsAt expiresAt now : Time)
  | registerManagedReservations (rootKey : RootKeyCheck) (fresh : Fresh)
      (userKeyID purpose externalSessionID : String) (gpus : List Int)
      (startsAt expiresAt now : Time)
  | syncManagedUserKeys (rootKey : RootKeyCheck) (groupHex : Nat → String)
      (snapshot : ManagedUserKeySnapshot) (now : Time)
  | addLease (lease : Lease)
  | updateLease (update : Lease)
  | releaseLease (id : String)
  | addReservation (reservation : Reservation)
  | releaseReservation (id : String)
  | addAuthorization (authorization : Authorization) (now : Time)
  | updateAuthorization (update : Authorization) (now : Time)
  | activateAuthorization (id : String) (rootPID : Int)
  | releaseAuthorization (id : String)
  | releaseScopes (reservationIDs authorizationIDs leaseIDs : List String)
  | upsertSoftClaim (claimHex : String) (claim : SoftClaim) (now : Time)
  | releaseSoftClaim (id : String)
  | addBypass (rule : BypassRule)
  | revoke (idOrToken : String) (now : Time)
  | prune (now : Time)
  | pruneInactiveManagedScopes (authorizationIDs leaseIDs : List String)
  | pruneUnreferencedInvalidEntitlements (now : Time)

/-- The operations the daemon calls. The other seven exist for tests and older
clients; nothing in the daemon reaches them. -/
def Op.daemon : Op → Bool
  | .registerToken .. | .addLease .. | .updateLease .. | .releaseLease ..
  | .addReservation .. | .releaseReservation .. | .updateAuthorization .. => false
  | _ => true

theorem releaseScopes_clean (reservationIDs authorizationIDs leaseIDs : List String)
    (state : State) :
    (releaseScopes reservationIDs authorizationIDs leaseIDs state).Clean state := by
  unfold releaseScopes
  split
  · exact Effect.clean_done () state
  · intro hSave
    simp only [Bool.or_eq_false_iff, List.any_eq_false] at hSave
    obtain ⟨⟨hReservations, hAuthorizations⟩, hLeases⟩ := hSave
    simp only [Edits.apply, getD_none]
    rw [Edit.onList_update_self fun _ row hRow => if_neg (hReservations row hRow),
      Edit.onList_update_self fun _ row hRow => if_neg (hAuthorizations row hRow),
      Edit.onList_update_self fun _ row hRow => if_neg (hLeases row hRow)]
    rfl

theorem releaseSoftClaim_clean (id : String) (state : State) :
    (releaseSoftClaim id state).Clean state := by
  intro hSave
  simp only [releaseSoftClaim, List.any_eq_false] at hSave
  simp only [releaseSoftClaim, Edits.apply, getD_none]
  rw [Edit.onList_filter_self fun claim hClaim => by simpa using hSave claim hClaim]
  rfl

theorem revokeGroup_clean (group : String) (state : State) :
    (revokeGroup group state).Clean state := by
  intro hSave
  simp only [revokeGroup, List.any_eq_false] at hSave
  simp only [revokeGroup, Edits.apply, getD_none]
  rw [Edit.onList_update_self fun _ row hRow => if_neg (hSave row hRow)]
  rfl

variable [Unicode] [Digest]

def Op.effect (state : State) : Op → Effect Unit
  | .registerSoftToken rootKey fresh name now =>
    (GPUardian.registerSoftToken rootKey fresh name now state).map fun _ => ()
  | .registerToken rootKey fresh name ttl now =>
    (GPUardian.registerToken rootKey fresh name ttl now state).map fun _ => ()
  | .registerScheduledReservationsWithSession rootKey fresh name purpose session gpus startsAt
      expiresAt now =>
      (GPUardian.registerScheduledReservationsWithSession rootKey fresh name purpose session gpus
        startsAt expiresAt now state).map fun _ => ()
  | .registerManagedReservations rootKey fresh userKeyID purpose session gpus startsAt expiresAt
      now =>
      (GPUardian.registerManagedReservations rootKey fresh userKeyID purpose session gpus
        startsAt expiresAt now state).map fun _ => ()
  | .syncManagedUserKeys rootKey groupHex snapshot now =>
    (GPUardian.syncManagedUserKeys rootKey groupHex snapshot now state).map fun _ => ()
  | .addLease lease => GPUardian.addLease lease state
  | .updateLease update => GPUardian.updateLease update state
  | .releaseLease id => GPUardian.releaseLease id state
  | .addReservation reservation => GPUardian.addReservation reservation state
  | .releaseReservation id => GPUardian.releaseReservation id state
  | .addAuthorization authorization now => GPUardian.addAuthorization authorization now state
  | .updateAuthorization update now => GPUardian.updateAuthorization update now state
  | .activateAuthorization id rootPID =>
    (GPUardian.activateAuthorization id rootPID state).map fun _ => ()
  | .releaseAuthorization id => GPUardian.releaseAuthorization id state
  | .releaseScopes reservationIDs authorizationIDs leaseIDs =>
    GPUardian.releaseScopes reservationIDs authorizationIDs leaseIDs state
  | .upsertSoftClaim claimHex claim now => GPUardian.upsertSoftClaim claimHex claim now state
  | .releaseSoftClaim id => GPUardian.releaseSoftClaim id state
  | .addBypass rule => GPUardian.addBypass rule state
  | .revoke idOrToken now => GPUardian.revoke idOrToken now state
  | .prune now => GPUardian.prune now state
  | .pruneInactiveManagedScopes authorizationIDs leaseIDs =>
    GPUardian.pruneInactiveManagedScopes authorizationIDs leaseIDs state
  | .pruneUnreferencedInvalidEntitlements now =>
    GPUardian.pruneUnreferencedInvalidEntitlements now state

omit [Unicode] in
theorem revokeRows_clean (idOrToken : String) (now : Time) (state : State) :
    (revokeRows idOrToken now state).Clean state := by
  intro hSave
  dsimp only [revokeRows] at hSave ⊢
  rw [Bool.or_eq_false_iff] at hSave
  obtain ⟨hRows, hClaims⟩ := hSave
  rw [hRows] at hClaims ⊢
  simp only [Bool.or_eq_false_iff, List.any_eq_false] at hRows
  obtain ⟨⟨⟨⟨hTokens, hReservations⟩, hAuthorizations⟩, hLeases⟩, hBypasses⟩ := hRows
  have hFlags : ∀ i, (revokeTokenLoop idOrToken (revokedTokenHash idOrToken state)
      state.tokens).1.getD i false = false := by
    intro i
    rw [List.getD_eq_getElem?_getD]
    cases hi : (revokeTokenLoop idOrToken (revokedTokenHash idOrToken state) state.tokens).1[i]? with
    | none => rfl
    | some flag => simpa using hTokens flag (List.mem_of_getElem? hi)
  simp only [Edits.apply, getD_none]
  rw [Edit.onList_update_self fun i token _ => by rw [hFlags i]; rfl,
    Edit.onList_update_self fun _ row hRow => if_neg (hReservations row hRow),
    Edit.onList_update_self fun _ row hRow => if_neg (hAuthorizations row hRow),
    Edit.onList_update_self fun _ row hRow => if_neg (hLeases row hRow),
    Edit.onList_update_self fun _ row hRow => if_neg (hBypasses row hRow)]
  split
  · rename_i hVisit
    rw [Bool.and_eq_false_iff] at hClaims
    have hNone := hClaims.resolve_left (by simp [hVisit])
    rw [List.any_eq_false] at hNone
    rw [Edit.onList_filter_self fun claim hClaim => by simpa using hNone claim hClaim]
  · rfl

omit [Unicode] in
theorem revoke_clean (idOrToken : String) (now : Time) (state : State) :
    (revoke idOrToken now state).Clean state := by
  simp only [revoke]
  split
  · exact revokeGroup_clean _ state
  · exact revokeRows_clean _ now state

omit [Digest] in
theorem prune_clean (now : Time) (state : State) : (prune now state).Clean state := by
  intro hSave
  dsimp only [prune] at hSave ⊢
  rw [hSave]
  simp only [Bool.or_eq_false_iff, List.any_eq_false] at hSave
  obtain ⟨⟨⟨⟨hTokens, hReservations⟩, hAuthorizations⟩, hLeases⟩, hBypasses⟩ := hSave
  simp only [Edits.apply, getD_none]
  rw [Edit.onList_filter_self fun row hRow => by simpa using hTokens row hRow,
    Edit.onList_filter_self fun row hRow => by simpa using hReservations row hRow,
    Edit.onList_filter_self fun row hRow => by simpa using hAuthorizations row hRow,
    Edit.onList_filter_self fun row hRow => by simpa using hLeases row hRow,
    Edit.onList_filter_self fun row hRow => by simpa using hBypasses row hRow]
  rfl

/-- What a call edits: nothing, or what it comes to once its checks have passed. Of the
operations that the daemon does not call only what they leave is said. -/
inductive Op.Edited (state : State) : Op → Edits → Prop
  | quiet op : Edited state op {}
  | old (op : Op) (edits : Edits) (hOp : op.daemon = false)
      (hKeys : edits.managedKeys = none ∧ edits.keySnapshotID = none)
      (hTokens : edits.tokens = .keep ∨
        ∃ rootKey fresh name ttl now, op = .registerToken rootKey fresh name ttl now) :
      Edited state op edits
  | issued rootKey fresh name now :
      Edited state (.registerSoftToken rootKey fresh name now)
        { tokens := .append [newToken fresh.secretHex fresh.tokenHex tokenModeClaimed name 0 now] }
  | scheduled rootKey (fresh : Fresh) name purpose session (gpus : List Int)
      (startsAt expiresAt now : Time) token
      (hToken : token = newToken fresh.secretHex fresh.tokenHex tokenModeReserved name expiresAt now)
      (hSome : gpus ≠ []) (hGPUs : gpus.Nodup) (hNow : now < expiresAt)
      (hNone : sessionReservations state (trimSpace session) = [])
      (hFree : bookingConflict state.reservations gpus (requestedStart startsAt now) expiresAt = none) :
      Edited state (.registerScheduledReservationsWithSession rootKey fresh name purpose session gpus
          startsAt expiresAt now)
        { tokens := .append [token]
          reservations := .append (newReservations fresh (reservationRow token "" purpose
            (trimSpace session) (requestedStart startsAt now) expiresAt now) gpus) }
  | managed rootKey fresh userKeyID purpose session (gpus : List Int) (startsAt expiresAt now : Time)
      token (hToken : token ∈ state.tokens) (hID : token.id = trimSpace userKeyID)
      (hManaged : token.managed) (hLive : token.revoked = false)
      (hGPUs : gpus.Nodup) (hNow : now < expiresAt)
      (hNone : sessionReservations state (trimSpace session) = [])
      (hFree : bookingConflict state.reservations gpus (requestedStart startsAt now) expiresAt = none) :
      Edited state (.registerManagedReservations rootKey fresh userKeyID purpose session gpus startsAt
          expiresAt now)
        { reservations := .append (newReservations fresh (reservationRow token
            ("grp_" ++ fresh.groupHex) purpose (trimSpace session) (requestedStart startsAt now)
            expiresAt now) gpus) }
  | confirmed rootKey groupHex snapshot now authority :
      Edited state (.syncManagedUserKeys rootKey groupHex snapshot now)
        { managedKeyAuthority := some authority }
  | cutOver rootKey groupHex (snapshot : ManagedUserKeySnapshot) now managed authority
      (hAdmitted : admitManagedKeys now [] snapshot.keys = .ok managed) :
      Edited state (.syncManagedUserKeys rootKey groupHex snapshot now)
        (cutoverEdits groupHex snapshot managed authority state)
  | authorized row now :
      Edited state (.addAuthorization row now) { authorizations := .append [row] }
  | activated id rootPID row
      (hRow : state.authorizations.find? (·.id == id) = some row) (hUnset : row.rootPID = 0) :
      Edited state (.activateAuthorization id rootPID)
        { authorizations := .updateFirst (·.id == id) ({ · with rootPID := rootPID }) }
  | released id :
      Edited state (.releaseAuthorization id)
        { authorizations := .updateFirst (·.id == id) ({ · with active := false }) }
  | scopes reservationIDs authorizationIDs leaseIDs :
      Edited state (.releaseScopes reservationIDs authorizationIDs leaseIDs)
        (releasedScopes reservationIDs authorizationIDs leaseIDs)
  | claimed claimHex claim now edit
      (hEdit : (GPUardian.upsertSoftClaim claimHex claim now state).edits = { softClaims := edit }) :
      Edited state (.upsertSoftClaim claimHex claim now) { softClaims := edit }
  | unclaimed id : Edited state (.releaseSoftClaim id) { softClaims := .filter (·.id != id) }
  | bypassed rule : Edited state (.addBypass rule) { bypasses := .append [rule] }
  | revokedGroup idOrToken now (hGroup : managedGroupID (trimSpace idOrToken) state ≠ "") :
      Edited state (.revoke idOrToken now)
        (revokeGroup (managedGroupID (trimSpace idOrToken) state) state).edits
  | revokedRows idOrToken now (hGroup : managedGroupID (trimSpace idOrToken) state = "") :
      Edited state (.revoke idOrToken now) (revokeRows (trimSpace idOrToken) now state).edits
  | pruned now : Edited state (.prune now) (GPUardian.prune now state).edits
  | prunedScopes authorizationIDs leaseIDs :
      Edited state (.pruneInactiveManagedScopes authorizationIDs leaseIDs)
        { authorizations := .replace (state.authorizations.filter fun row =>
            !(authorizationIDs.contains row.id && !row.active && row.cgroupPath != ""))
          leases := .replace (state.leases.filter fun row =>
            !(leaseIDs.contains row.id && !row.active && row.cgroupPath != "")) }
  | prunedEntitlements now :
      Edited state (.pruneUnreferencedInvalidEntitlements now)
        { reservations := .replace (state.reservations.filter fun row =>
            !((!row.active || row.revoked || !decide (now < row.expiresAt)) &&
              !referencedTokenHash state row.tokenHash))
          tokens := .replace (state.tokens.filter fun row =>
            !(!((tokenByHash state.tokens row.hash).map (tokenActiveAt · now)).getD false &&
              !referencedTokenHash state row.hash)) }

/-- The two facts about each operation. -/
theorem Op.effect_sound (state : State) (op : Op) :
    (op.effect state).Clean state ∧ op.Edited state (op.effect state).edits := by
  cases op with
  | registerScheduledReservationsWithSession rootKey fresh name purpose session gpus startsAt
      expiresAt now =>
      rcases registerScheduled_cases rootKey fresh name purpose session gpus startsAt expiresAt now
        state with ⟨hQuiet, _⟩ | ⟨hBookable, hNone, hFree, hEffect⟩
      · exact ⟨Effect.clean_map (hQuiet.clean state), hQuiet.2 ▸ .quiet _⟩
      · simp only [effect, Effect.map, hEffect]
        exact ⟨Effect.clean_store _ _ state, .scheduled _ _ _ _ _ _ _ _ _ _ rfl hBookable.nonempty
          hBookable.nodup hBookable.future hNone hFree⟩
  | registerManagedReservations rootKey fresh userKeyID purpose session gpus startsAt expiresAt now =>
    rcases registerManaged_cases rootKey fresh userKeyID purpose session gpus startsAt expiresAt
      now state with ⟨hQuiet, _⟩ | ⟨token, hKey, hBookable, hNone, hFree, hEffect⟩
    · exact ⟨Effect.clean_map (hQuiet.clean state), hQuiet.2 ▸ .quiet _⟩
    · simp only [effect, Effect.map, hEffect]
      exact ⟨Effect.clean_store _ _ state, .managed _ _ _ _ _ _ _ _ _ token hKey.stored hKey.id
        hKey.managed hKey.unrevoked hBookable.nodup hBookable.future hNone hFree⟩
  | syncManagedUserKeys rootKey groupHex snapshot now =>
    rcases syncManagedUserKeys_cases rootKey groupHex snapshot now state with
      hQuiet | ⟨authority, _, hEffect⟩ | ⟨managed, authority, _, hAdmitted, hEffect⟩
    · exact ⟨Effect.clean_map (hQuiet.clean state), hQuiet.2 ▸ .quiet _⟩
    · simp only [effect, Effect.map, hEffect]
      exact ⟨Effect.clean_store _ _ state, .confirmed _ _ _ _ _⟩
    · simp only [effect, Effect.map, hEffect]
      exact ⟨Effect.clean_store _ _ state, .cutOver _ _ _ _ managed authority hAdmitted⟩
  | revoke idOrToken now =>
    refine ⟨revoke_clean idOrToken now state, ?_⟩
    simp only [effect, GPUardian.revoke]
    split
    · exact .revokedGroup idOrToken now ‹_›
    · exact .revokedRows idOrToken now (not_not.mp ‹_›)
  | prune now => exact ⟨prune_clean now state, .pruned now⟩
  | releaseScopes reservationIDs authorizationIDs leaseIDs =>
    refine ⟨releaseScopes_clean reservationIDs authorizationIDs leaseIDs state, ?_⟩
    simp only [effect, GPUardian.releaseScopes]
    split
    · exact .quiet _
    · exact .scopes _ _ _
  | releaseSoftClaim id => exact ⟨releaseSoftClaim_clean id state, .unclaimed id⟩
  | upsertSoftClaim claimHex claim now =>
    have hEdits : ∃ edit, GPUardian.upsertSoftClaim claimHex claim now state =
        .store { softClaims := edit } () := by
      simp only [GPUardian.upsertSoftClaim]
      split
      · exact ⟨_, rfl⟩
      · exact ⟨_, rfl⟩
    obtain ⟨edit, hEdit⟩ := hEdits
    simp only [effect, hEdit]
    exact ⟨Effect.clean_store _ _ state, .claimed claimHex claim now edit (by rw [hEdit]; rfl)⟩
  | _ =>
    -- Every other operation returns before its edits or ends in one save.
    simp only [effect, GPUardian.registerSoftToken, GPUardian.registerToken, requireRootKey,
      GPUardian.addLease, GPUardian.updateLease, GPUardian.releaseLease,
      GPUardian.addReservation, GPUardian.releaseReservation, GPUardian.addAuthorization,
      GPUardian.updateAuthorization, GPUardian.activateAuthorization,
      GPUardian.releaseAuthorization, GPUardian.addBypass, GPUardian.pruneInactiveManagedScopes,
      GPUardian.pruneUnreferencedInvalidEntitlements]
    repeat' split
    all_goals constructor
    all_goals first
      | exact Effect.clean_fail _ state
      | exact Effect.clean_done _ state
      | exact Effect.clean_store _ _ state
      | exact .quiet _
      | exact .old _ _ rfl ⟨rfl, rfl⟩ (.inl rfl)
      | exact .old _ _ rfl ⟨rfl, rfl⟩ (.inr ⟨_, _, _, _, _, rfl⟩)
      | exact .activated _ _ _ ‹_› (not_not.mp ‹_›)
      | exact .issued _ _ _ _
      | exact .authorized _ _
      | exact .released _
      | exact .bypassed _
      | exact .prunedScopes _ _
      | exact .prunedEntitlements _

/-- No operation leaves an unsaved change behind. -/
theorem Op.effect_clean (state : State) (op : Op) : (op.effect state).Clean state :=
  (op.effect_sound state).1

theorem Op.edited (state : State) (op : Op) : op.Edited state (op.effect state).edits :=
  (op.effect_sound state).2

/-- What holds of all that a call can edit holds of what it edits. -/
@[elab_as_elim]
theorem Op.edits_ind {state : State} {op : Op} {motive : Edits → Prop}
    (h : ∀ edits, op.Edited state edits → motive edits) : motive (op.effect state).edits :=
  h _ (op.edited state)

end GPUardian
