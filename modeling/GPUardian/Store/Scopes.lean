import GPUardian.Store.Registration

/-! Store calls on the scopes in which an entitlement is used: authorizations, soft
claims, leases and bypass rules, and the release of single rows. -/
namespace GPUardian

open GoStrings GoSlice

def addLease (lease : Lease) (_ : State) : Effect Unit :=
  .store { leases := .append [lease] } ()

def updateLease (update : Lease) (state : State) : Effect Unit :=
  if state.leases.any (·.id == update.id) then
    .store { leases := .updateFirst (·.id == update.id) fun _ => update } ()
  else .fail s!"lease {update.id} not found"

def releaseLease (id : String) (state : State) : Effect Unit :=
  if state.leases.any (·.id == id) then
    .store { leases := .updateFirst (·.id == id) ({ · with active := false }) } ()
  else .done ()

def addReservation (reservation : Reservation) (state : State) : Effect Unit :=
  match checkTotalCapacity "reservation" state.reservations.length 1 maxTotalReservations with
  | some message => .fail message
  | none => .store { reservations := .append [reservation] } ()

def releaseReservation (id : String) (state : State) : Effect Unit :=
  if state.reservations.any (·.id == id) then
    .store { reservations := .updateFirst (·.id == id) ({ · with active := false }) } ()
  else .done ()

/-- `now` is the clock read inside the call. -/
def addAuthorization (authorization : Authorization) (now : Time) (state : State) : Effect Unit :=
  match checkTotalCapacity "authorization" state.authorizations.length 1 maxTotalAuthorizations with
  | some message => .fail message
  | none =>
    match checkActiveAuthorizationCapacity state authorization now none with
    | some message => .fail message
    | none => .store { authorizations := .append [authorization] } ()

def updateAuthorization (update : Authorization) (now : Time) (state : State) : Effect Unit :=
  match state.authorizations.findIdx? (·.id == update.id) with
  | none => .fail s!"authorization {update.id} not found"
  | some i =>
    match checkActiveAuthorizationCapacity state update now (some i) with
    | some message => .fail message
    | none => .store { authorizations := .updateFirst (·.id == update.id) fun _ => update } ()

/-- Records the PID of a prepared command in the stored row, whatever became of it
since, so that a revocation in between is never overwritten. -/
def activateAuthorization (id : String) (rootPID : Int) (state : State) : Effect Authorization :=
  if rootPID ≤ 0 then .fail "authorization root pid must be positive"
  else match state.authorizations.find? (·.id == id) with
  | none => .fail s!"authorization {id} not found"
  | some authorization =>
    if !authorization.active || authorization.revoked then
      .fail s!"authorization {id} was revoked before activation"
    else if authorization.rootPID ≠ 0 then .fail s!"authorization {id} is already active"
    else
      .store { authorizations := .updateFirst (·.id == id) ({ · with rootPID := rootPID }) }
        { authorization with rootPID := rootPID }

def releaseAuthorization (id : String) (state : State) : Effect Unit :=
  if state.authorizations.any (·.id == id) then
    .store { authorizations := .updateFirst (·.id == id) ({ · with active := false }) } ()
  else .done ()

/-- The listed rows end. -/
abbrev releasedScopes (reservationIDs authorizationIDs leaseIDs : List String) : Edits :=
  { reservations := .update fun _ row =>
      if reservationIDs.contains row.id && row.active then { row with active := false } else row
    authorizations := .update fun _ row =>
      if authorizationIDs.contains row.id && row.active then { row with active := false } else row
    leases := .update fun _ row =>
      if leaseIDs.contains row.id && row.active then { row with active := false } else row }

/-- Ends every listed row with one save. Unknown ids are ignored. -/
def releaseScopes (reservationIDs authorizationIDs leaseIDs : List String) (state : State) :
    Effect Unit :=
  if reservationIDs = [] ∧ authorizationIDs = [] ∧ leaseIDs = [] then .done ()
  else
    { edits := releasedScopes reservationIDs authorizationIDs leaseIDs
      save := state.reservations.any (fun row => reservationIDs.contains row.id && row.active) ||
        state.authorizations.any (fun row => authorizationIDs.contains row.id && row.active) ||
        state.leases.any (fun row => leaseIDs.contains row.id && row.active)
      result := .ok () }

/-- `claimHex` is drawn when the claim has no id yet. -/
def upsertSoftClaim (claimHex : String) (claim : SoftClaim) (now : Time) (state : State) :
    Effect Unit :=
  let claim : SoftClaim :=
    { claim with
      id := if claim.id = "" then "claim_" ++ claimHex else claim.id
      createdAt := if claim.createdAt = 0 then now else claim.createdAt
      updatedAt := now }
  let same (row : SoftClaim) : Bool := row.gpu == claim.gpu && row.tokenHash == claim.tokenHash
  if state.softClaims.any same then
    .store
      { softClaims := .updateFirst same fun row =>
          { claim with id := row.id, createdAt := row.createdAt } } ()
  else .store { softClaims := .append [claim] } ()

/-- The filtered slice is assigned only when a claim was dropped; before that the loop
has written each claim back to its own place. -/
def releaseSoftClaim (id : String) (state : State) : Effect Unit :=
  { edits := { softClaims := .filter (·.id != id) }
    save := state.softClaims.any (·.id == id)
    result := .ok () }

def addBypass (rule : BypassRule) (state : State) : Effect Unit :=
  match checkTotalCapacity "bypass" state.bypasses.length 1 maxTotalBypasses with
  | some message => .fail message
  | none => .store { bypasses := .append [rule] } ()

end GPUardian
