import GPUardian.Store.Authorizations

/-! The limits on live keys and authorizations. They are checked only where a row is added; no other
call makes a row live again, a snapshot has one key for each owner, and time only ends rows. -/
namespace GPUardian

open GoStrings GoSlice List

/-- The time that a call reads. -/
def Op.clock : Op → Option Time
  | .registerSoftToken _ _ _ now | .registerToken _ _ _ _ now
  | .registerScheduledReservationsWithSession _ _ _ _ _ _ _ _ now
  | .registerManagedReservations _ _ _ _ _ _ _ _ now | .syncManagedUserKeys _ _ _ now
  | .addAuthorization _ now | .updateAuthorization _ now | .upsertSoftClaim _ _ now
  | .revoke _ now | .prune now | .pruneUnreferencedInvalidEntitlements now => some now
  | _ => none

/-- The unrevoked and unexpired tokens of a normalized holder. -/
def activeTokens [Unicode] (now : Time) (holder : String) (tokens : List Token) : Nat :=
  tokens.countP fun token => tokenActiveAt token now && normalizeHolder token.name == holder

/-- The active, unrevoked and unexpired authorizations of a token. -/
def activeAuthorizations (now : Time) (hash : String) (rows : List Authorization) : Nat :=
  rows.countP fun row => row.tokenHash == hash && authorizationActiveAt row now

/-- From the given time on, no holder has more live tokens and no token more live authorizations than
it may have. -/
structure Limited [Unicode] (clock : Time) (state : State) : Prop where
  tokens : ∀ now, clock ≤ now → ∀ holder,
    activeTokens now holder state.tokens ≤ maxActiveTokensPerHolder
  authorizations : ∀ now, clock ≤ now → ∀ hash,
    activeAuthorizations now hash state.authorizations ≤ maxActiveAuthorizationsPerToken

variable {state : State}

theorem activeAuthorizations_leaves {before after : List Authorization}
    (h : Leaves AuthorizationFrom before after) (now : Time) (hash : String) :
    activeAuthorizations now hash after ≤ activeAuthorizations now hash before := by
  refine h.countP_le fun old new hFrom hActive => ?_
  rw [hFrom.same] at hActive
  simp only [authorizationActiveAt, authorizationExpired, Bool.and_eq_true, Bool.not_eq_true']
    at hActive ⊢
  refine ⟨hActive.1, ⟨hFrom.active hActive.2.1.1, Bool.eq_false_iff.mpr fun hOld => ?_⟩, hActive.2.2⟩
  rw [hFrom.revoked hOld] at hActive
  cases hActive.2.1.2

/-- An authorization that passes the check leaves its token within the limit from then on. -/
theorem activeAuthorizations_append {row : Authorization} {now later : Time} (hash : String)
    (hCapacity : checkActiveAuthorizationCapacity state row now none = none) (hTime : now ≤ later)
    (hBefore : activeAuthorizations later hash state.authorizations ≤
      maxActiveAuthorizationsPerToken) :
    activeAuthorizations later hash (state.authorizations ++ [row]) ≤
      maxActiveAuthorizationsPerToken := by
  refine countP_concat_le (p := fun old => old.tokenHash == row.tokenHash &&
    authorizationActiveAt old now) hBefore fun hNew => ?_
  rw [Bool.and_eq_true, beq_iff_eq] at hNew
  obtain ⟨rfl, hActive⟩ := hNew
  rw [checkActiveAuthorizationCapacity, authorizationActiveAt_antitone hTime hActive] at hCapacity
  simp only [Bool.not_true, Bool.false_eq_true, if_false, ite_eq_right_iff, reduceCtorEq, imp_false,
    Nat.not_le] at hCapacity
  refine ⟨fun old _ hOld => ?_, ?_⟩
  · rw [Bool.and_eq_true] at hOld ⊢
    exact ⟨hOld.1, authorizationActiveAt_antitone hTime hOld.2⟩
  · rw [← zipIdx_map_fst 0 state.authorizations, countP_map]
    exact hCapacity

section Limits

variable [Unicode] {clock : Time} {op : Op}

section Tokens

variable {before after : List Token}

/-- Revoked or dropped tokens do not count. -/
theorem activeTokens_leaves (h : Leaves RevokedFrom before after) (now : Time) (holder : String) :
    activeTokens now holder after ≤ activeTokens now holder before := by
  refine h.countP_le fun old new hRevoked hActive => ?_
  rw [hRevoked.same] at hActive
  simp only [tokenActiveAt, tokenExpired, Bool.and_eq_true, Bool.not_eq_true'] at hActive ⊢
  refine ⟨⟨Bool.eq_false_iff.mpr fun hOld => ?_, hActive.1.2⟩, hActive.2⟩
  rw [hRevoked.revoked hOld] at hActive
  cases hActive.1.1

/-- A token that passes the check leaves its holder within the limit from then on. -/
theorem activeTokens_append {token : Token} {now later : Time} (holder : String)
    (hCapacity : checkTokenCapacity state token now = none) (hTime : now ≤ later)
    (hBefore : activeTokens later holder state.tokens ≤ maxActiveTokensPerHolder) :
    activeTokens later holder (state.tokens ++ [token]) ≤ maxActiveTokensPerHolder := by
  refine countP_concat_le (p := fun old => tokenActiveAt old now &&
    normalizeHolder old.name == normalizeHolder token.name) hBefore fun hNew => ?_
  rw [Bool.and_eq_true, beq_iff_eq] at hNew
  obtain ⟨hActive, rfl⟩ := hNew
  rw [checkTokenCapacity, tokenActiveAt_antitone hTime hActive] at hCapacity
  have hFree := (Option.or_eq_none_iff.mp hCapacity).2
  simp only [Bool.not_true, Bool.false_eq_true, if_false, ite_eq_right_iff, reduceCtorEq, imp_false,
    Nat.not_le] at hFree
  refine ⟨fun old _ hOld => ?_, hFree⟩
  rw [Bool.and_eq_true] at hOld ⊢
  exact ⟨tokenActiveAt_antitone hTime hOld.1, hOld.2⟩

/-- What is asked of the Unicode tables: small letters stay, and letters do not become spaces. -/
structure LowersNames [Unicode] : Prop where
  small : ∀ c : Char, c.isLower → Unicode.lower c = c
  lower : ∀ c, Unicode.lower (Unicode.lower c) = Unicode.lower c
  space : ∀ c, isSpace (Unicode.lower c) = isSpace c

theorem LowersNames.normalizeHolder (h : LowersNames) (holder : String) :
    GPUardian.normalizeHolder (GPUardian.normalizeHolder holder) =
      GPUardian.normalizeHolder holder := by
  have hTrim : trimSpace (toLower (trimSpace holder)) = toLower (trimSpace holder) := by
    rw [trimSpace_toLower h.space, trimSpace_trimSpace]
  unfold GPUardian.normalizeHolder
  dsimp only
  split
  · rw [trimSpace_of_forall (by decide), toLower_of_forall fun c hc => h.small c ?_]
    · rfl
    · revert c
      decide
  · rename_i hSome
    rw [hTrim, toLower_toLower h.lower, if_neg hSome]

/-- A snapshot has one key for each owner. -/
theorem activeTokens_admitted (hTables : LowersNames) {now : Time} {keys : List ManagedUserKey}
    (h : admitManagedKeys now [] keys = .ok after) (later : Time) (holder : String) :
    activeTokens later holder after ≤ maxActiveTokensPerHolder := by
  have hNames := (admitManagedKeys_ok h).2.names
  have hName : ∀ token ∈ after, normalizeHolder token.name = token.name := by
    intro token hToken
    obtain ⟨key, _, rfl⟩ := admitManagedKeys_mem h hToken
    rw [managedToken_name, hTables.normalizeHolder]
  have hCount : activeTokens later holder after ≤ (after.map (·.name)).count holder := by
    rw [List.count, countP_map]
    refine countP_mono_left fun token hToken hActive => ?_
    rw [Bool.and_eq_true, hName token hToken] at hActive
    exact hActive.2
  exact hCount.trans ((nodup_iff_count_le_one.mp hNames holder).trans (by decide))

variable [Digest]

/-- What a call of the daemon does to the tokens: they end, a checked one is added, or a snapshot
takes their place. -/
theorem Op.tokens_after (state : State) (op : Op) (hDaemon : op.daemon = true) :
    let after := ((op.effect state).edits.apply state).tokens
    Leaves RevokedFrom state.tokens after ∨
      (∃ token now, op.clock = some now ∧ checkTokenCapacity state token now = none ∧
        after = state.tokens ++ [token]) ∨
      ∃ now keys, admitManagedKeys now [] keys = .ok after := by
  by_cases hNarrow : op.narrowing = true
  · exact .inl (op.shrinks state hNarrow).tokens
  have hSame : Leaves RevokedFrom state.tokens state.tokens :=
    .of_sublist RevokedFrom.refl (List.Sublist.refl _)
  cases op with
  | registerSoftToken rootKey fresh name now =>
    simp only [effect, GPUardian.registerSoftToken, requireRootKey]
    repeat' split
    all_goals first
      | exact .inl hSame
      | exact .inr (.inl ⟨_, now, rfl, ‹_›, rfl⟩)
  | registerScheduledReservationsWithSession rootKey fresh name purpose session gpus startsAt
      expiresAt now =>
      simp only [effect, GPUardian.registerScheduledReservationsWithSession, requireRootKey]
      repeat' split
      all_goals first
        | exact .inl hSame
        | exact .inr (.inl ⟨_, now, rfl, ‹_›, rfl⟩)
  | registerManagedReservations rootKey fresh userKeyID purpose session gpus startsAt expiresAt now =>
    simp only [effect, GPUardian.registerManagedReservations, requireRootKey]
    repeat' split
    all_goals exact .inl hSame
  | syncManagedUserKeys rootKey groupHex snapshot now =>
    simp only [effect, Effect.map]
    rcases syncManagedUserKeys_cases rootKey groupHex snapshot now state with
      hQuiet | ⟨_, _, hEffect⟩ | ⟨managed, _, _, hAdmitted, hEffect⟩
    · rw [hQuiet.2]
      exact .inl hSame
    · rw [hEffect]
      exact .inl hSame
    · rw [hEffect]
      exact .inr (.inr ⟨now, snapshot.keys, hAdmitted⟩)
  | _ => exact absurd hDaemon hNarrow

end Tokens

theorem Limited.later (h : Limited clock state) {time : Time} (hTime : clock ≤ time) :
    Limited time state where
  tokens now hNow := h.tokens now (hTime.trans hNow)
  authorizations now hNow := h.authorizations now (hTime.trans hNow)

variable [Digest]

/-- A call at a later time keeps the limits from that time on. -/
theorem Limited.step (hTables : LowersNames) (h : Limited clock state) (hDaemon : op.daemon = true)
    (hClock : ∀ now ∈ op.clock, now = clock) : Limited clock ((op.effect state).edits.apply state) where
  tokens later hLater holder := by
    have hBefore := h.tokens later hLater holder
    rcases op.tokens_after state hDaemon with hLeaves | ⟨token, now, hNow, hCapacity, hTokens⟩ |
      ⟨now, keys, hAdmitted⟩
    · exact (activeTokens_leaves hLeaves later holder).trans hBefore
    · rw [hTokens]
      exact activeTokens_append holder hCapacity (hClock now hNow ▸ hLater) hBefore
    · exact activeTokens_admitted hTables hAdmitted later holder
  authorizations later hLater hash := by
    have hBefore := h.authorizations later hLater hash
    rcases Op.authorizations state op hDaemon with hLeaves | ⟨row, now, rfl, _⟩
    · exact (activeAuthorizations_leaves hLeaves later hash).trans hBefore
    · have hNow : now ≤ later := hClock now rfl ▸ hLater
      simp only [Op.effect, GPUardian.addAuthorization]
      repeat' split
      · exact hBefore
      · exact hBefore
      · exact activeAuthorizations_append hash ‹_› hNow hBefore

/-- Over every run of the daemon's calls, whatever saves fail, each of them reading the time at which
it is made: from the last call on, no holder has more live tokens and no token more live authorizations
than it may have. -/
theorem live_rows_within_limits (hTables : LowersNames) (codec : Codec)
    (calls : List (Time × SaveErrors × Op)) (hTimes : calls.Pairwise (·.1 ≤ ·.1))
    (hCalls : ∀ call ∈ calls, call.2.2.daemon = true ∧ ∀ time ∈ call.2.2.clock, time = call.1) :
    let state := ((⟨{}, {}, none⟩ : Store).run codec (calls.map (·.2))).state
    ∀ now, (∀ call ∈ calls, call.1 ≤ now) →
      (∀ holder, activeTokens now holder state.tokens ≤ maxActiveTokensPerHolder) ∧
      ∀ hash, activeAuthorizations now hash state.authorizations ≤
        maxActiveAuthorizationsPerToken := by
  suffices hLimited : ∀ now, (∀ call ∈ calls, call.1 ≤ now) →
      Limited now ((⟨{}, {}, none⟩ : Store).run codec (calls.map (·.2))).state from
    fun now hNow => ⟨(hLimited now hNow).tokens now le_rfl, (hLimited now hNow).authorizations now le_rfl⟩
  induction calls using List.reverseRecOn with
  | nil => exact fun _ _ => ⟨fun _ _ _ => Nat.zero_le _, fun _ _ _ => Nat.zero_le _⟩
  | append_singleton calls call ih =>
    intro now hNow
    rw [pairwise_append] at hTimes
    rw [forall_mem_append, forall_mem_singleton] at hCalls hNow
    have hBefore := ih hTimes.1 hCalls.1 call.1 fun earlier hEarlier =>
      hTimes.2.2 earlier hEarlier call (mem_singleton_self call)
    rw [map_append, map_singleton, Store.run_append]
    refine (Store.call_keeps codec (Store.run_synced codec _ (Store.synced_empty codec)) hBefore
      (hBefore.step hTables hCalls.2.1 hCalls.2.2)).later hNow.2

end Limits

/-- Alice gets two keys, the second of which is not synced to the directory, and runs a command. -/
def limitedCalls : List (Time × SaveErrors × Op) :=
  [(10, {}, .registerSoftToken (.ok true) { secretHex := "a" } "alice" 10),
    (20, { syncDir := some "fsync" }, .registerSoftToken (.ok true) { secretHex := "b" } "Alice" 20),
    (30, {}, .addAuthorization { id := "auth_1", tokenHash := "gk_a", active := true } 30)]

open scoped Plain

theorem live_rows_within_limits_alice :
    let state := ((⟨{}, {}, none⟩ : Store).run (reachedCodec (limitedCalls.map (·.2.2)))
      (limitedCalls.map (·.2))).state
    activeTokens 40 "alice" state.tokens = 2 ∧ activeAuthorizations 40 "gk_a" state.authorizations = 1 ∧
      (∀ holder, activeTokens 40 holder state.tokens ≤ maxActiveTokensPerHolder) ∧
      ∀ hash, activeAuthorizations 40 hash state.authorizations ≤
        maxActiveAuthorizationsPerToken :=
  ⟨by decide +kernel, by decide +kernel, @live_rows_within_limits ascii plain
    (@LowersNames.mk ascii ascii_lower_of_isLower ascii_lower_lower ascii_isSpace_lower)
    _ limitedCalls (by decide) (by decide) 40 (by decide)⟩

end GPUardian
