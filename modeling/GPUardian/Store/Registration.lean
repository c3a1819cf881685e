import GPUardian.Store.Bounds
import GPUardian.Store.Edits

/-! Store calls that create entitlements: tokens, reservations and the managed key
table. Random identifiers, the current time and the answer of the root key check are
arguments. -/
namespace GPUardian

open GoStrings GoSlice List

section Booking

variable [Unicode] [Digest]

/-- The answer of `ValidateRootKey`: an unreadable key file, or whether the
candidate matches. -/
abbrev RootKeyCheck := Except String Bool

def errInvalidRootKey : String := "invalid root key"
def errTokenNotFound : String := "token not found"

def requireRootKey {α : Type} (rootKey : RootKeyCheck) (next : Effect α) : Effect α :=
  match rootKey with
  | .error message => .fail message
  | .ok false => .fail errInvalidRootKey
  | .ok true => next

/-- `secretHex` and `idHex` are the two random strings drawn. -/
def newToken (secretHex idHex mode name : String) (expiresAt now : Time) : Token :=
  let tokenSecret := "gk_" ++ secretHex
  let name := trimSpace name
  { id := "tok_" ++ idHex
    hash := hashToken tokenSecret
    secret := tokenSecret
    name := if name = "" then "anonymous" else name
    mode := normalizeTokenMode mode
    createdAt := now
    expiresAt := expiresAt }

/-- The random strings one registration draws. -/
structure Fresh where
  secretHex : String := ""
  tokenHex : String := ""
  groupHex : String := ""
  reservationHex : Nat → String := fun _ => ""

def registerSoftToken (rootKey : RootKeyCheck) (fresh : Fresh) (name : String) (now : Time)
    (state : State) : Effect (String × Token) :=
  requireRootKey rootKey <|
    let token := newToken fresh.secretHex fresh.tokenHex tokenModeClaimed name 0 now
    match checkTokenCapacity state token now with
    | some message => .fail message
    | none => .store { tokens := .append [token] } (token.secret, token)

/-- `ttl` is the parsed lifetime, or the parse error. -/
def registerToken (rootKey : RootKeyCheck) (fresh : Fresh) (name : String)
    (ttl : Except String Duration) (now : Time) (state : State) : Effect (String × Token) :=
  match ttl with
  | .error message => .fail message
  | .ok ttl => requireRootKey rootKey <|
      let token := newToken fresh.secretHex fresh.tokenHex tokenModeClaimed name (now + ttl) now
      match checkTokenCapacity state token now with
      | some message => .fail message
      | none => .store { tokens := .append [token] } (token.secret, token)

/-- The loop over the requested GPUs with its set of indices seen so far. -/
def checkRequestedGPUs (check : Int → Option String) (seen : List Int) :
    List Int → Option String
  | [] => none
  | gpu :: rest =>
    match check gpu with
    | some message => some message
    | none =>
      if gpu ∈ seen then some s!"duplicate gpu {gpu}"
      else checkRequestedGPUs check (gpu :: seen) rest

def checkNonnegativeGPU (gpu : Int) : Option String :=
  if gpu < 0 then some "gpu must be >= 0" else none

/-- A request without a start begins now. -/
def requestedStart (startsAt now : Time) : Time := if startsAt = 0 then now else startsAt

/-- The row of one booking request, without its GPU and id. -/
def reservationRow (token : Token) (groupID purpose externalSessionID : String)
    (startsAt expiresAt now : Time) : Reservation :=
  { groupID := groupID, externalSessionID := externalSessionID, tokenHash := token.hash,
    holder := token.name, purpose := trimSpace purpose, createdAt := now,
    startsAt := startsAt, expiresAt := expiresAt, active := true }

/-- One row for each requested GPU. -/
def newReservations (fresh : Fresh) (row : Reservation) (gpus : List Int) : List Reservation :=
  gpus.mapIdx fun i gpu => { row with id := "res_" ++ fresh.reservationHex i, gpu := gpu }

/-- The first requested GPU and existing row that overlap the requested window. -/
def bookingConflict (existing : List Reservation) (gpus : List Int) (startsAt expiresAt : Time) :
    Option String :=
  firstError (fun gpu =>
    (existing.find? fun row => row.gpu == gpu && reservationOverlaps row startsAt expiresAt).map
      fun row => s!"gpu {gpu} reservation overlaps {row.id}") gpus

def sameReservationRequest (existing : List Reservation) (name purpose : String)
    (gpus : List Int) (startsAt expiresAt : Time) : Bool :=
  if existing.length ≠ gpus.length ∨ existing.length = 0 then false
  else existing.all fun reservation =>
    gpus.contains reservation.gpu && equalFold (trimSpace reservation.holder) (trimSpace name) &&
      trimSpace reservation.purpose == trimSpace purpose &&
      reservationStartsAt reservation == startsAt && reservation.expiresAt == expiresAt

def sessionReservations (state : State) (externalSessionID : String) : List Reservation :=
  if externalSessionID = "" then []
  else state.reservations.filter (·.externalSessionID == externalSessionID)

def errSessionReused : String :=
  "external session id was already used for a different reservation"

def registerScheduledReservationsWithSession (rootKey : RootKeyCheck) (fresh : Fresh)
    (name purpose externalSessionID : String) (gpus : List Int) (startsAt expiresAt now : Time)
    (state : State) : Effect (String × Token × List Reservation) :=
  let startsAt := requestedStart startsAt now
  if ¬ startsAt < expiresAt then .fail "reservation end must be after start"
  else if ¬ now < expiresAt then .fail "reservation end must be in the future"
  else if maxHardTTL < expiresAt - startsAt then
    .fail "reservation duration exceeds max 720h0m0s"
  else if gpus = [] then .fail "at least one gpu is required"
  else match checkTotalCapacity "reservation" 0 gpus.length maxTotalReservations with
  | some message => .fail message
  | none =>
  match checkRequestedGPUs checkNonnegativeGPU [] gpus with
  | some message => .fail message
  | none => requireRootKey rootKey <|
  let token := newToken fresh.secretHex fresh.tokenHex tokenModeReserved name expiresAt now
  let externalSessionID := trimSpace externalSessionID
  let reservations := newReservations fresh
    (reservationRow token "" purpose externalSessionID startsAt expiresAt now) gpus
  match sessionReservations state externalSessionID with
  | first :: more =>
    -- A repeated request is answered from the stored rows.
    let existingToken := (state.tokens.find? (·.hash == first.tokenHash)).getD {}
    if existingToken.id = "" ∨ existingToken.secret = "" then
      .fail "existing reservation session has no recoverable key"
    else if !sameReservationRequest (first :: more) name purpose gpus startsAt expiresAt then
      .fail errSessionReused
    else .done (existingToken.secret, existingToken, first :: more)
  | [] =>
  match checkTokenCapacity state token now with
  | some message => .fail message
  | none =>
  match checkTotalCapacity "reservation" state.reservations.length reservations.length
      maxTotalReservations with
  | some message => .fail message
  | none =>
  match bookingConflict state.reservations gpus startsAt expiresAt with
  | some message => .fail message
  | none => .store { tokens := .append [token], reservations := .append reservations }
      (token.secret, token, reservations)

def registerManagedReservations (rootKey : RootKeyCheck) (fresh : Fresh)
    (userKeyID purpose externalSessionID : String) (gpus : List Int)
    (startsAt expiresAt now : Time) (state : State) :
    Effect (Token × String × List Reservation) :=
  requireRootKey rootKey <|
  let startsAt := requestedStart startsAt now
  if ¬ startsAt < expiresAt ∨ ¬ now < expiresAt then
    .fail "reservation end must be after start and in the future"
  else if maxHardTTL < expiresAt - startsAt then
    .fail "reservation duration exceeds max 720h0m0s"
  else if gpus = [] then .fail "at least one gpu is required"
  else match checkRequestedGPUs validateGPUIndex [] gpus with
  | some message => .fail message
  | none =>
  if !state.managedKeys then .fail "managed user keys are not configured"
  else
  let token := (state.tokens.find? fun candidate =>
    candidate.id == trimSpace userKeyID && candidate.managed && !candidate.revoked).getD {}
  if token.id = "" then .fail errTokenNotFound
  else
  let externalSessionID := trimSpace externalSessionID
  match sessionReservations state externalSessionID with
  | first :: more =>
    if first.tokenHash ≠ token.hash ∨
        !sameReservationRequest (first :: more) token.name purpose gpus startsAt expiresAt then
      .fail errSessionReused
    else .done (token, first.groupID, first :: more)
  | [] =>
  match checkTotalCapacity "reservation" state.reservations.length gpus.length
      maxTotalReservations with
  | some message => .fail message
  | none =>
  match bookingConflict state.reservations gpus startsAt expiresAt with
  | some message => .fail message
  | none =>
  let groupID := "grp_" ++ fresh.groupHex
  let reservations := newReservations fresh
    (reservationRow token groupID purpose externalSessionID startsAt expiresAt now) gpus
  .store { reservations := .append reservations } (token, groupID, reservations)

omit [Unicode] [Digest] in
/-- The rows of a request start where the request says, whether the row or its
creation time carries it. -/
theorem reservationRow_startsAt (token : Token) (groupID purpose session : String)
    (startsAt expiresAt now : Time) :
    reservationStartsAt (reservationRow token groupID purpose session
      (requestedStart startsAt now) expiresAt now) = requestedStart startsAt now := by
  by_cases hSet : requestedStart startsAt now = 0
  · have hNow : now = 0 := by
      by_cases hStart : startsAt = 0
      · simpa [requestedStart, hStart] using hSet
      · simp [requestedStart, hStart] at hSet
    rw [hSet]
    exact hNow
  · simp [reservationStartsAt, reservationRow, timeIsSet, hSet]

omit [Unicode] [Digest] in
theorem checkRequestedGPUs_nodup {check : Int → Option String} {seen gpus : List Int}
    (h : checkRequestedGPUs check seen gpus = none) :
    gpus.Nodup ∧ ∀ gpu ∈ gpus, gpu ∉ seen ∧ check gpu = none := by
  induction gpus generalizing seen with
  | nil => simp
  | cons gpu rest ih =>
    rw [checkRequestedGPUs] at h
    cases hCheck : check gpu with
    | some message => simp [hCheck] at h
    | none =>
      by_cases hSeen : gpu ∈ seen
      · simp [hCheck, hSeen] at h
      · simp only [hCheck, if_neg hSeen] at h
        obtain ⟨hNodup, hRest⟩ := ih h
        refine ⟨nodup_cons.mpr ⟨fun hMem => ?_, hNodup⟩, ?_⟩
        · exact (hRest gpu hMem).1 mem_cons_self
        · intro other hOther
          rcases mem_cons.mp hOther with rfl | hOther
          · exact ⟨hSeen, hCheck⟩
          · exact ⟨fun hMem => (hRest other hOther).1 (mem_cons_of_mem _ hMem),
              (hRest other hOther).2⟩

/-- The request is for some GPUs, none of them twice, and for a window that has not passed. -/
structure Bookable (gpus : List Int) (startsAt expiresAt now : Time) : Prop where
  nonempty : gpus ≠ []
  nodup : gpus.Nodup
  window : startsAt < expiresAt
  future : now < expiresAt

/-- The key that a managed request is made with. -/
structure SelectedKey (state : State) (userKeyID : String) (token : Token) : Prop where
  keys : state.managedKeys = true
  stored : token ∈ state.tokens
  id : token.id = trimSpace userKeyID
  named : token.id ≠ ""
  managed : token.managed = true
  unrevoked : token.revoked = false

/-- A request with a key of the node is refused, answered from the stored rows of its session, or
adds its own. -/
theorem registerScheduled_cases (rootKey : RootKeyCheck) (fresh : Fresh)
    (name purpose externalSessionID : String) (gpus : List Int) (startsAt expiresAt now : Time)
    (state : State) :
    let effect := registerScheduledReservationsWithSession rootKey fresh name purpose
      externalSessionID gpus startsAt expiresAt now state
    let start := requestedStart startsAt now
    let stored := sessionReservations state (trimSpace externalSessionID)
    let token := newToken fresh.secretHex fresh.tokenHex tokenModeReserved name expiresAt now
    let rows := newReservations fresh (reservationRow token "" purpose
      (trimSpace externalSessionID) start expiresAt now) gpus
    (effect.Quiet ∧ ∀ answer, effect.result = .ok answer →
      Bookable gpus start expiresAt now ∧ ∃ first more found, stored = first :: more ∧
        state.tokens.find? (·.hash == first.tokenHash) = some found ∧
        sameReservationRequest (first :: more) name purpose gpus start expiresAt = true ∧
        answer = (found.secret, found, first :: more)) ∨
      (Bookable gpus start expiresAt now ∧ stored = [] ∧
        bookingConflict state.reservations gpus start expiresAt = none ∧
        effect = .store { tokens := .append [token], reservations := .append rows }
          (token.secret, token, rows)) := by
  unfold registerScheduledReservationsWithSession requireRootKey
  dsimp only
  repeat' split
  all_goals try exact .inl (Effect.quiet_fail _)
  · rename_i hWindow hNow _ hSome _ _ _ hGPUs _ _ first more hStored hKey hSame
    refine .inl ⟨⟨rfl, rfl⟩, fun answer hAnswer => ?_⟩
    refine ⟨⟨hSome, (checkRequestedGPUs_nodup hGPUs).1, not_not.mp hWindow, not_not.mp hNow⟩, first, more, ?_⟩
    cases hFind : state.tokens.find? (·.hash == first.tokenHash) with
    | none => simp [hFind] at hKey
    | some found =>
      rw [hFind] at hAnswer
      exact ⟨found, hStored, rfl, by simpa using hSame, (Except.ok.inj hAnswer).symm⟩
  · rename_i hWindow hNow _ hSome _ _ _ hGPUs _ _ hNone _ _ _ _ _ hFree
    exact .inr ⟨⟨hSome, (checkRequestedGPUs_nodup hGPUs).1, not_not.mp hWindow, not_not.mp hNow⟩,
      hNone, hFree, rfl⟩

end Booking

variable [Unicode]

/-- The same for a request under a managed key, which adds no token. -/
theorem registerManaged_cases (rootKey : RootKeyCheck) (fresh : Fresh)
    (userKeyID purpose externalSessionID : String) (gpus : List Int)
    (startsAt expiresAt now : Time) (state : State) :
    let effect := registerManagedReservations rootKey fresh userKeyID purpose
      externalSessionID gpus startsAt expiresAt now state
    let start := requestedStart startsAt now
    let stored := sessionReservations state (trimSpace externalSessionID)
    (effect.Quiet ∧ ∀ answer, effect.result = .ok answer →
      ∃ token, SelectedKey state userKeyID token ∧ Bookable gpus start expiresAt now ∧
        ∃ first more, stored = first :: more ∧ first.tokenHash = token.hash ∧
          sameReservationRequest (first :: more) token.name purpose gpus start expiresAt = true ∧
          answer = (token, first.groupID, first :: more)) ∨
      ∃ token, SelectedKey state userKeyID token ∧ Bookable gpus start expiresAt now ∧ stored = [] ∧
        bookingConflict state.reservations gpus start expiresAt = none ∧
        let rows := newReservations fresh (reservationRow token ("grp_" ++ fresh.groupHex) purpose
          (trimSpace externalSessionID) start expiresAt now) gpus
        effect = .store { reservations := .append rows }
          (token, "grp_" ++ fresh.groupHex, rows) := by
  have hSelected : state.managedKeys = true → ∀ token, (state.tokens.find? fun candidate =>
      candidate.id == trimSpace userKeyID && candidate.managed && !candidate.revoked).getD {} = token →
        token.id ≠ "" → SelectedKey state userKeyID token := by
    intro hKeys token hToken hNamed
    cases hFind : state.tokens.find? fun candidate =>
        candidate.id == trimSpace userKeyID && candidate.managed && !candidate.revoked with
    | none =>
      rw [← hToken, hFind] at hNamed
      exact absurd rfl hNamed
    | some found =>
      obtain rfl : found = token := by rw [← hToken, hFind, Option.getD_some]
      have hFound := find?_some hFind
      simp only [Bool.and_eq_true, Bool.not_eq_true', beq_iff_eq] at hFound
      exact ⟨hKeys, mem_of_find?_eq_some hFind, hFound.1.1, hNamed, hFound.1.2, hFound.2⟩
  unfold registerManagedReservations requireRootKey
  dsimp only
  repeat' split
  all_goals try exact .inl (Effect.quiet_fail _)
  · rename_i hTimes _ hSome _ hGPUs hKeys hNamed _ first more hStored hSame
    rw [not_or, not_not, not_not] at hTimes
    rw [not_or, not_not] at hSame
    refine .inl ⟨⟨rfl, rfl⟩, fun answer hAnswer => ⟨_, hSelected (by simpa using hKeys) _ rfl hNamed,
      ⟨hSome, (checkRequestedGPUs_nodup hGPUs).1, hTimes.1, hTimes.2⟩, first, more, hStored, hSame.1,
      by simpa using hSame.2, (Except.ok.inj hAnswer).symm⟩⟩
  · rename_i hTimes _ hSome _ hGPUs hKeys hNamed _ hNone _ _ _ hFree
    rw [not_or, not_not, not_not] at hTimes
    exact .inr ⟨_, hSelected (by simpa using hKeys) _ rfl hNamed,
      ⟨hSome, (checkRequestedGPUs_nodup hGPUs).1, hTimes.1, hTimes.2⟩, hNone, hFree, rfl⟩

structure ManagedUserKey where
  id : String
  owner : String
  version : Int
  hash : String
deriving DecidableEq, Repr

structure ManagedUserKeySnapshot where
  snapshotID : String
  authorityID : String := ""
  keys : List ManagedUserKey := []
deriving DecidableEq, Repr

structure ManagedUserKeySyncResult where
  snapshotID : String
  applied : Nat
  managed : Bool
deriving DecidableEq, Repr

/-- The row that an admitted key becomes. -/
def managedToken (now : Time) (key : ManagedUserKey) : Token :=
  { id := trimSpace key.id, hash := toLower (trimSpace key.hash), name := normalizeHolder key.owner,
    mode := tokenModeManaged, version := key.version, managed := true, createdAt := now }

theorem managedToken_id (now : Time) (key : ManagedUserKey) :
    (managedToken now key).id = trimSpace key.id := by
  simp only [managedToken]

theorem managedToken_name (now : Time) (key : ManagedUserKey) :
    (managedToken now key).name = normalizeHolder key.owner := by
  simp only [managedToken]

theorem managedToken_hash (now : Time) (key : ManagedUserKey) :
    (managedToken now key).hash = toLower (trimSpace key.hash) := by
  simp only [managedToken]

/-- The loop that turns a snapshot into token rows. The maps of ids, hashes and
owners seen so far are read off the rows built so far. -/
def admitManagedKeys (now : Time) (managed : List Token) :
    List ManagedUserKey → Except String (List Token)
  | [] => .ok managed
  | key :: rest =>
    let id := trimSpace key.id
    let owner := normalizeHolder key.owner
    let hash := toLower (trimSpace key.hash)
    if id = "" ∨ owner = "" ∨ key.version < 1 ∨ byteLen hash ≠ 64 then
      .error "managed key id, owner, positive version, and SHA-256 hash are required"
    else if !hash.toList.all isHexDigit then
      .error "managed key hash must be hexadecimal SHA-256"
    else if managed.any (·.id == id) || managed.any (·.hash == hash) then
      .error "managed key ids and hashes must be unique"
    else if managed.any (·.name == owner) then
      .error "each owner may have only one managed key"
    else admitManagedKeys now (managed ++ [managedToken now key]) rest

variable {now : Time} {managed tokens : List Token}

/-- Rows no two of which have one id, one hash or one owner, and that all have each of them. -/
structure KeyRows (tokens : List Token) : Prop where
  ids : (tokens.map (·.id)).Nodup
  hashes : (tokens.map (·.hash)).Nodup
  names : (tokens.map (·.name)).Nodup
  filled : ∀ token ∈ tokens, token.hash ≠ "" ∧ token.id ≠ "" ∧ token.name ≠ ""

/-- The row of the first key of an admitted snapshot goes with those before it, and the rest is
admitted after it. -/
theorem admitManagedKeys_cons {key : ManagedUserKey} {rest : List ManagedUserKey}
    (h : admitManagedKeys now managed (key :: rest) = .ok tokens) (hManaged : KeyRows managed) :
    admitManagedKeys now (managed ++ [managedToken now key]) rest = .ok tokens ∧
      KeyRows (managed ++ [managedToken now key]) := by
  rw [admitManagedKeys] at h
  split at h
  · cases h
  split at h
  · cases h
  split at h
  · cases h
  split at h
  · cases h
  rename_i hFields _ hUnique hOwner
  rw [Bool.or_eq_true, not_or] at hUnique
  simp only [not_or, not_not] at hFields
  refine ⟨h, nodup_map_append_singleton hManaged.ids ?_,
    nodup_map_append_singleton hManaged.hashes ?_, nodup_map_append_singleton hManaged.names ?_,
    forall_mem_concat.mpr ⟨hManaged.filled, ?_⟩⟩
  · simpa only [managedToken_id, any_eq_true, beq_iff_eq, mem_map] using hUnique.1
  · simpa only [managedToken_hash, any_eq_true, beq_iff_eq, mem_map] using hUnique.2
  · simpa only [managedToken_name, any_eq_true, beq_iff_eq, mem_map] using hOwner
  · rw [managedToken_id, managedToken_name, managedToken_hash]
    refine ⟨fun hEmpty => ?_, hFields.1, hFields.2.1⟩
    rw [hEmpty] at hFields
    exact absurd hFields.2.2.2 (by decide)

variable {keys : List ManagedUserKey}

theorem admitManagedKeys_from (h : admitManagedKeys now managed keys = .ok tokens)
    (hManaged : KeyRows managed) :
    tokens = managed ++ keys.map (managedToken now) ∧ KeyRows tokens := by
  induction keys generalizing managed with
  | nil =>
    obtain rfl : managed = tokens := by simpa [admitManagedKeys] using h
    exact ⟨by simp, hManaged⟩
  | cons key rest ih =>
    obtain ⟨hRest, hNext⟩ := admitManagedKeys_cons h hManaged
    obtain ⟨hTokens, hRows⟩ := ih hRest hNext
    refine ⟨?_, hRows⟩
    rw [hTokens, map_cons, append_assoc, singleton_append]

/-- An admitted snapshot becomes one row per key. -/
theorem admitManagedKeys_ok (h : admitManagedKeys now [] keys = .ok tokens) :
    tokens = keys.map (managedToken now) ∧ KeyRows tokens :=
  admitManagedKeys_from h ⟨nodup_nil, nodup_nil, nodup_nil, nofun⟩

theorem admitManagedKeys_mem (h : admitManagedKeys now [] keys = .ok tokens) {token : Token}
    (hToken : token ∈ tokens) : ∃ key ∈ keys, managedToken now key = token := by
  rw [(admitManagedKeys_ok h).1] at hToken
  exact mem_map.mp hToken

/-- The key cutover of one reservation row: it gets a group of its own if it had
none, and the hash of its owner's managed key if the owner has one. -/
def rebindReservation (tokens managed : List Token) (groupHex : Nat → String) (i : Nat)
    (reservation : Reservation) : Reservation :=
  let oldTokenID := ((tokenByHash tokens reservation.tokenHash).map (·.id)).getD ""
  { reservation with
    groupID :=
      if reservation.groupID = "" then
        if oldTokenID = "" then "grp_" ++ groupHex i else oldTokenID
      else reservation.groupID
    tokenHash :=
      match managed.find? (·.name == normalizeHolder reservation.holder) with
      | some token => token.hash
      | none => reservation.tokenHash }

abbrev rebindReservations (tokens managed : List Token) (groupHex : Nat → String)
    (rows : List Reservation) : List Reservation :=
  (Edit.update (rebindReservation tokens managed groupHex)).onList rows

theorem mem_rebindReservations {tokens managed : List Token} {groupHex : Nat → String}
    {rows : List Reservation} {new : Reservation}
    (h : new ∈ rebindReservations tokens managed groupHex rows) :
    ∃ i old, rows[i]? = some old ∧ old ∈ rows ∧
      new = rebindReservation tokens managed groupHex i old := by
  obtain ⟨i, hi, rfl⟩ := mem_mapIdx.mp h
  exact ⟨i, rows[i], getElem?_eq_getElem hi, getElem_mem hi, rfl⟩

/-- The authority that the call writes, if it writes one. -/
def newAuthority (state : State) (snapshot : ManagedUserKeySnapshot) : Option String :=
  if state.managedKeyAuthority = "" ∧ trimSpace snapshot.authorityID ≠ "" then
    some (trimSpace snapshot.authorityID)
  else none

/-- The snapshot becomes the key table. -/
def cutoverEdits (groupHex : Nat → String) (snapshot : ManagedUserKeySnapshot)
    (managed : List Token) (authority : Option String) (state : State) : Edits :=
  { managedKeyAuthority := authority
    reservations := .update (rebindReservation state.tokens managed groupHex)
    tokens := .replace managed
    managedKeys := some true
    keySnapshotID := some (trimSpace snapshot.snapshotID) }

def syncManagedUserKeys (rootKey : RootKeyCheck) (groupHex : Nat → String)
    (snapshot : ManagedUserKeySnapshot) (now : Time) (state : State) :
    Effect ManagedUserKeySyncResult :=
  requireRootKey rootKey <|
  let snapshotID := trimSpace snapshot.snapshotID
  let authorityID := trimSpace snapshot.authorityID
  if snapshotID = "" then .fail "snapshot_id is required"
  else match validatePersistedValues "managed key snapshot" [snapshotID, authorityID] with
  | some message => .fail message
  | none =>
  if maxTotalTokens < snapshot.keys.length then
    .fail s!"managed key limit exceeded: maximum {maxTotalTokens}"
  else match admitManagedKeys now [] snapshot.keys with
  | .error message => .fail message
  | .ok managed =>
  if state.managedKeyAuthority ≠ "" ∧ authorityID = "" then
    .fail "managed key authority is required for this node"
  else if state.managedKeyAuthority ≠ "" ∧ authorityID ≠ state.managedKeyAuthority then
    .fail "managed key authority does not match this node"
  else
  -- Past the two checks the authority is the stored one, or the node has none yet.
  let authority := newAuthority state snapshot
  let result : ManagedUserKeySyncResult :=
    { snapshotID := snapshotID, applied := managed.length, managed := true }
  if state.managedKeys ∧ state.keySnapshotID = snapshotID then
    if authority.isSome then .store { managedKeyAuthority := authority } result
    else .done result
  else .store (cutoverEdits groupHex snapshot managed authority state) result

/-- The authority of the node once it has accepted a snapshot. -/
def State.acceptedAuthority (state : State) (snapshot : ManagedUserKeySnapshot) : String :=
  if state.managedKeyAuthority = "" then trimSpace snapshot.authorityID else state.managedKeyAuthority

/-- The state in which the tokens are the keys of the snapshot. -/
def State.cutOver (state : State) (groupHex : Nat → String) (snapshot : ManagedUserKeySnapshot)
    (managed : List Token) : State :=
  { state with
    managedKeyAuthority := state.acceptedAuthority snapshot
    reservations := rebindReservations state.tokens managed groupHex state.reservations
    tokens := managed
    managedKeys := true
    keySnapshotID := trimSpace snapshot.snapshotID }

omit [Unicode] in
theorem newAuthority_getD {state : State} {snapshot : ManagedUserKeySnapshot} :
    (newAuthority state snapshot).getD state.managedKeyAuthority = state.acceptedAuthority snapshot := by
  unfold newAuthority State.acceptedAuthority
  by_cases hNone : state.managedKeyAuthority = ""
  · by_cases hEmpty : trimSpace snapshot.authorityID = ""
    · simp [hNone, hEmpty]
    · simp [hNone, hEmpty]
  · simp [hNone]

/-- The snapshot is refused, or it passes all checks and is compared with the stored one. -/
theorem syncManagedUserKeys_eq (rootKey : RootKeyCheck) (groupHex : Nat → String)
    (snapshot : ManagedUserKeySnapshot) (now : Time) (state : State) :
    let effect := syncManagedUserKeys rootKey groupHex snapshot now state
    (∃ message, effect = .fail message) ∨
      ∃ managed result, admitManagedKeys now [] snapshot.keys = .ok managed ∧
        ¬ (state.managedKeyAuthority ≠ "" ∧
          trimSpace snapshot.authorityID ≠ state.managedKeyAuthority) ∧
        effect =
          if state.managedKeys = true ∧ state.keySnapshotID = trimSpace snapshot.snapshotID then
            if (newAuthority state snapshot).isSome then
              .store { managedKeyAuthority := newAuthority state snapshot } result
            else .done result
          else .store
            (cutoverEdits groupHex snapshot managed (newAuthority state snapshot) state) result := by
  unfold syncManagedUserKeys requireRootKey
  dsimp only
  split
  · exact .inl ⟨_, rfl⟩
  · exact .inl ⟨_, rfl⟩
  split
  · exact .inl ⟨_, rfl⟩
  split
  · exact .inl ⟨_, rfl⟩
  split
  · exact .inl ⟨_, rfl⟩
  split
  · exact .inl ⟨_, rfl⟩
  rename_i managed hAdmitted
  split
  · exact .inl ⟨_, rfl⟩
  split
  · exact .inl ⟨_, rfl⟩
  rename_i hAuthority
  exact .inr ⟨managed, _, hAdmitted, hAuthority, rfl⟩

/-- A snapshot is refused, known already, known but from an authority the node had not
recorded, or becomes the new key table. -/
theorem syncManagedUserKeys_cases (rootKey : RootKeyCheck) (groupHex : Nat → String)
    (snapshot : ManagedUserKeySnapshot) (now : Time) (state : State) :
    let effect := syncManagedUserKeys rootKey groupHex snapshot now state
    effect.Quiet ∨
      (∃ authority result, effect = .store { managedKeyAuthority := some authority } result) ∨
      ∃ managed authority result, admitManagedKeys now [] snapshot.keys = .ok managed ∧
        effect = .store (cutoverEdits groupHex snapshot managed authority state) result := by
  dsimp only
  rcases syncManagedUserKeys_eq rootKey groupHex snapshot now state with
    ⟨message, hFail⟩ | ⟨managed, result, hAdmitted, _, hEffect⟩
  · exact .inl (hFail ▸ ⟨rfl, rfl⟩)
  rw [hEffect]
  split
  · cases newAuthority state snapshot with
    | none => exact .inl ⟨rfl, rfl⟩
    | some authority => exact .inr (.inl ⟨authority, result, rfl⟩)
  · exact .inr (.inr ⟨managed, _, result, hAdmitted, rfl⟩)

/-- A snapshot that the node accepts is well-formed and not from another authority. If it has
the stored id, it only leaves its authority; otherwise it becomes the key table. -/
theorem syncManagedUserKeys_ok {rootKey : RootKeyCheck} {groupHex : Nat → String}
    {snapshot : ManagedUserKeySnapshot} {state : State} {result : ManagedUserKeySyncResult}
    (h : (syncManagedUserKeys rootKey groupHex snapshot now state).result = .ok result) :
    (state.managedKeyAuthority ≠ "" →
      trimSpace snapshot.authorityID = state.managedKeyAuthority) ∧
    ∃ managed, admitManagedKeys now [] snapshot.keys = .ok managed ∧
      (syncManagedUserKeys rootKey groupHex snapshot now state).edits.apply state =
        if state.managedKeys = true ∧ state.keySnapshotID = trimSpace snapshot.snapshotID then
          { state with managedKeyAuthority := state.acceptedAuthority snapshot }
        else state.cutOver groupHex snapshot managed := by
  rcases syncManagedUserKeys_eq rootKey groupHex snapshot now state with
    ⟨message, hFail⟩ | ⟨managed, answer, hAdmitted, hAuthority, hEffect⟩
  · rw [hFail] at h
    cases h
  refine ⟨fun hSome => Classical.not_not.mp fun hOther => hAuthority ⟨hSome, hOther⟩, managed,
    hAdmitted, ?_⟩
  rw [hEffect, ← newAuthority_getD]
  split
  · cases hNew : newAuthority state snapshot with
    | some authority => rfl
    | none => rfl
  · unfold State.cutOver
    rw [← newAuthority_getD]
    rfl

end GPUardian
