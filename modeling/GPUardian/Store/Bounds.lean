import GPUardian.Model.State

/-! Admission limits of the store and the bounds a state must meet before it is
written. Checks return the error text of the source, or nothing. -/
namespace GPUardian

open GoStrings

def maxHardTTL : Duration := 30 * 24 * 3600 * second
def maxAuditEvents : Nat := 1000
def maxStateFileBytes : Nat := 64 * 1048576
def maxActiveTokensPerHolder : Nat := 8
def maxTotalTokens : Nat := 4096
def maxTotalReservations : Nat := 4096
def maxTotalAuthorizations : Nat := 4096
def maxTotalSoftClaims : Nat := 4096
def maxTotalLeases : Nat := 4096
def maxTotalBypasses : Nat := 1024
def maxActiveAuthorizationsPerToken : Nat := 64
def maxGPUIndex : Int := 1023
def maxPersistedValueBytes : Nat := 4096
def maxPersistedCommandArgs : Nat := 1024
def maxPersistedCommandBytes : Nat := 256 * 1024
def maxAuditMessageBytes : Nat := 16 * 1024

/-- The first error of a loop that returns on error. -/
def firstError {α : Type} (check : α → Option String) (xs : List α) : Option String :=
  xs.findSome? check

def checkTotalCapacity (kind : String) (current adding maximum : Nat) : Option String :=
  if maximum < adding ∨ (maximum : Int) - adding < current then
    some s!"{kind} limit exceeded: adding {adding} to {current} would exceed maximum {maximum}"
  else none

def validatePersistedValues (kind : String) (values : List String) : Option String :=
  firstError (fun value =>
    if maxPersistedValueBytes < byteLen value then
      some s!"{kind} value exceeds {maxPersistedValueBytes} bytes"
    else none) values

/-- The loop over the arguments, with the bytes counted so far. -/
def validateCommandBytes (total : Nat) : List String → Option String
  | [] => none
  | argument :: rest =>
    if (maxPersistedCommandBytes : Int) - total < byteLen argument then
      some s!"command exceeds {maxPersistedCommandBytes} bytes"
    else validateCommandBytes (total + byteLen argument) rest

def validatePersistedCommand (command : List String) : Option String :=
  if maxPersistedCommandArgs < command.length then
    some s!"command has {command.length} arguments; maximum is {maxPersistedCommandArgs}"
  else validateCommandBytes 0 command

def validateGPUIndex (gpu : Int) : Option String :=
  if gpu < 0 ∨ maxGPUIndex < gpu then some s!"gpu index {gpu} is outside 0..{maxGPUIndex}"
  else none

section Rows

variable [Unicode]

/-- `fmt.Errorf("<kind> %q: %w", id, err)` around a failed check of a row. -/
def inRow (kind id : String) (error : Option String) : Option String :=
  error.map fun text => s!"{kind} {quote id}: {text}"

def validateToken (token : Token) : Option String :=
  validatePersistedValues "token" [token.id, token.hash, token.secret, token.name, token.mode]

def validateReservation (reservation : Reservation) : Option String :=
  (inRow "reservation" reservation.id (validateGPUIndex reservation.gpu)).or
    (validatePersistedValues "reservation" [reservation.id, reservation.groupID,
      reservation.externalSessionID, reservation.tokenHash, reservation.holder,
      reservation.purpose])

def validateAuthorization (authorization : Authorization) : Option String :=
  (validatePersistedValues "authorization" [authorization.id, authorization.mode,
      authorization.tokenHash, authorization.tokenMode, authorization.holder,
      authorization.runName, authorization.username, authorization.cgroupPath,
      authorization.cgroupRel, authorization.containerID, authorization.containerPattern,
      authorization.namespace]).or
    (inRow "authorization" authorization.id (validatePersistedCommand authorization.command))

def validateSoftClaim (claim : SoftClaim) : Option String :=
  (inRow "soft claim" claim.id (validateGPUIndex claim.gpu)).or
    (validatePersistedValues "soft claim" [claim.id, claim.tokenHash, claim.authorizationID,
      claim.holder, claim.runtimeContainerID, claim.runtimeCgroup])

def validateLease (lease : Lease) : Option String :=
  ((inRow "lease" lease.id (validateGPUIndex lease.gpu)).or
    (validatePersistedValues "lease" [lease.id, lease.mode, lease.tokenHash, lease.holder,
      lease.cgroupPath, lease.cgroupRel, lease.containerID, lease.namespace])).or
    (inRow "lease" lease.id (validatePersistedCommand lease.command))

def validateBypass (bypass : BypassRule) : Option String :=
  validatePersistedValues "bypass"
    [bypass.id, bypass.type, bypass.bootID, bypass.command, bypass.reason]

def validateAuditEvent (event : AuditEvent) : Option String :=
  (validatePersistedValues "audit event" [event.kind, event.leaseID, event.user]).or
    (if maxAuditMessageBytes < byteLen event.message then
      some s!"audit event message exceeds {maxAuditMessageBytes} bytes"
    else none)

def validateCounts (state : State) : Option String :=
  firstError (fun (kind, current, maximum) =>
    if maximum < current then
      some s!"{kind} limit exceeded: {current} is greater than maximum {maximum}"
    else none)
    [("token", state.tokens.length, maxTotalTokens),
      ("reservation", state.reservations.length, maxTotalReservations),
      ("authorization", state.authorizations.length, maxTotalAuthorizations),
      ("soft claim", state.softClaims.length, maxTotalSoftClaims),
      ("lease", state.leases.length, maxTotalLeases),
      ("bypass", state.bypasses.length, maxTotalBypasses),
      ("audit event", state.audit.length, maxAuditEvents)]

def validateStateBounds (state : State) : Option String :=
  (validatePersistedValues "state" [state.keySnapshotID, state.managedKeyAuthority])
  |>.or (validateCounts state)
  |>.or (firstError validateToken state.tokens)
  |>.or (firstError validateReservation state.reservations)
  |>.or (firstError validateAuthorization state.authorizations)
  |>.or (firstError validateSoftClaim state.softClaims)
  |>.or (firstError validateLease state.leases)
  |>.or (firstError validateBypass state.bypasses)
  |>.or (firstError validateAuditEvent state.audit)

def checkTokenCapacity (state : State) (candidate : Token) (now : Time) : Option String :=
  (checkTotalCapacity "token" state.tokens.length 1 maxTotalTokens).or <|
    if !tokenActiveAt candidate now then none
    else
      let holder := normalizeHolder candidate.name
      let active := state.tokens.countP fun token =>
        tokenActiveAt token now && normalizeHolder token.name == holder
      if maxActiveTokensPerHolder ≤ active then
        some s!"active token limit reached for holder {quote holder}: maximum {maxActiveTokensPerHolder}"
      else none

end Rows

/-- `excludeIndex` is the row being replaced, if any. -/
def checkActiveAuthorizationCapacity (state : State) (candidate : Authorization) (now : Time)
    (excludeIndex : Option Nat) : Option String :=
  if !authorizationActiveAt candidate now then none
  else
    let active := state.authorizations.zipIdx.countP fun (authorization, i) =>
      some i != excludeIndex && authorization.tokenHash == candidate.tokenHash &&
        authorizationActiveAt authorization now
    if maxActiveAuthorizationsPerToken ≤ active then
      some s!"active authorization limit reached for token: maximum {maxActiveAuthorizationsPerToken}"
    else none

end GPUardian
