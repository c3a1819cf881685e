import GPUardian.Store.Groups

/-! What the store tells about its rows: the views of `KeyStatus`, and the tokens that requests
are validated against. -/
namespace GPUardian

open GoStrings GoSlice

def tokenKeyStatusStored : String := "stored"
def tokenKeyStatusNotStored : String := "not_stored"

structure TokenView where
  id : String := ""
  key : String := ""
  keyStatus : String := ""
  name : String := ""
  mode : String := ""
  version : Int := 0
  managed : Bool := false
  createdAt : Time := 0
  expiresAt : Option Time := none
  revoked : Bool := false
deriving DecidableEq, Repr

structure ReservationView where
  id : String := ""
  groupID : String := ""
  externalSessionID : String := ""
  gpu : Int := 0
  holder : String := ""
  purpose : String := ""
  createdAt : Time := 0
  startsAt : Time := 0
  expiresAt : Time := 0
  active : Bool := false
  revoked : Bool := false
deriving DecidableEq, Repr

/-- The view of an authorization, without its group id. -/
structure AuthorizationView where
  id : String := ""
  tokenID : String := ""
  mode : String := ""
  tokenMode : String := ""
  holder : String := ""
  runName : String := ""
  uid : Int := 0
  gid : Int := 0
  username : String := ""
  command : List (List UInt8) := []
  rootPID : Int := 0
  containerID : String := ""
  containerPattern : String := ""
  «namespace» : String := ""
  createdAt : Time := 0
  expiresAt : Option Time := none
  active : Bool := false
  revoked : Bool := false
deriving DecidableEq, Repr

structure KeyStatus where
  now : Time := 0
  tokens : List TokenView := []
  reservations : List ReservationView := []
  authorizations : List AuthorizationView := []
  bypasses : List BypassRule := []
deriving DecidableEq, Repr

def maxViewCommandArgs : Nat := 128
def maxViewCommandBytes : Nat := 16 * 1024

/-- The loop of `boundedViewCommand`. The last argument may be cut inside a character, so the shown
arguments are bytes. -/
def viewArguments : Nat → Nat → List String → List (List UInt8)
  | 0, _, _ => []
  | _, _, [] => []
  | _, 0, _ => []
  | args + 1, remaining + 1, argument :: rest =>
    let shown := argument.toUTF8.toList.take (remaining + 1)
    shown :: viewArguments args (remaining + 1 - shown.length) rest

def boundedViewCommand (command : List String) : List (List UInt8) :=
  viewArguments maxViewCommandArgs maxViewCommandBytes command

def timePtrIfSet (time : Time) : Option Time := if timeIsSet time then some time else none

section Views

variable [Unicode]

/-- The token in `KeyStatus`, which also shows the key if it is stored. -/
def tokenView (token : Token) : TokenView :=
  { id := token.id
    key := token.secret
    keyStatus := if token.secret ≠ "" then tokenKeyStatusStored else tokenKeyStatusNotStored
    name := token.name
    mode := normalizeTokenMode token.mode
    version := token.version
    managed := token.managed
    createdAt := token.createdAt
    expiresAt := timePtrIfSet token.expiresAt
    revoked := token.revoked }

def reservationView (groupID : String) (row : Reservation) : ReservationView :=
  { id := row.id
    groupID := groupID
    externalSessionID := row.externalSessionID
    gpu := row.gpu
    holder := row.holder
    purpose := row.purpose
    createdAt := row.createdAt
    startsAt := reservationStartsAt row
    expiresAt := row.expiresAt
    active := row.active
    revoked := row.revoked }

def authorizationView (authorization : Authorization) (tokenID : String) : AuthorizationView :=
  { id := authorization.id
    tokenID := tokenID
    mode := authorization.mode
    tokenMode := normalizeTokenMode authorization.tokenMode
    holder := authorization.holder
    runName := authorization.runName
    uid := authorization.uid
    gid := authorization.gid
    username := authorization.username
    command := boundedViewCommand authorization.command
    rootPID := authorization.rootPID
    containerID := authorization.containerID
    containerPattern := authorization.containerPattern
    «namespace» := authorization.namespace
    createdAt := authorization.createdAt
    expiresAt := timePtrIfSet authorization.expiresAt
    active := authorization.active
    revoked := authorization.revoked }

/-- The tokens in `KeyStatus` are those that `Prune` would keep. -/
def keyStatus (rootKey : RootKeyCheck) (now : Time) (state : State) : Except String KeyStatus :=
  match rootKey with
  | .error message => .error message
  | .ok false => .error errInvalidRootKey
  | .ok true => .ok
      { now := now
        tokens := (state.tokens.filter (!prunesToken state now ·)).map tokenView
        reservations := (state.reservations.filter (reservationListed · now)).map fun row =>
          reservationView (reservationGroupID state now row) row
        authorizations := (state.authorizations.filter (authorizationActiveAt · now)).map fun row =>
          authorizationView row (tokenIDsByHash state now row.tokenHash)
        bypasses := state.bypasses.filter (!prunesBypass now ·) }

end Views

def errTokenRevoked : String := "token revoked"
def errTokenExpired : String := "token expired"

/-- `ValidateToken`. An unknown secret and a withdrawn one are told apart by the error. -/
def State.validateToken [Unicode] [Digest] (secret : String) (now : Time) (state : State) :
    Except String Token :=
  match state.tokens.find? (·.hash == hashToken (trimSpace secret)) with
  | none => .error errTokenNotFound
  | some token =>
    if token.revoked then .error errTokenRevoked
    else if tokenExpired token now then .error errTokenExpired
    else .ok { token with mode := normalizeTokenMode token.mode }

theorem State.validateToken_ok [Unicode] [Digest] {secret : String} {now : Time} {state : State}
    {token : Token} (h : state.validateToken secret now = .ok token) :
    ∃ stored ∈ state.tokens, token = { stored with mode := normalizeTokenMode stored.mode } := by
  unfold validateToken at h
  split at h
  · cases h
  rename_i stored hFind
  split at h
  · cases h
  split at h
  · cases h
  · exact ⟨stored, List.mem_of_find?_eq_some hFind, (Except.ok.inj h).symm⟩

def State.managedTokenByID (id : String) (now : Time) (state : State) : Except String Token :=
  match state.tokens.find? fun token =>
      token.id == trimSpace id && token.managed && !token.revoked && !tokenExpired token now with
  | none => .error errTokenNotFound
  | some token => .ok token

theorem State.managedTokenByID_ok {id : String} {now : Time} {state : State} {token : Token}
    (h : state.managedTokenByID id now = .ok token) : token ∈ state.tokens := by
  unfold managedTokenByID at h
  split at h
  · cases h
  · rename_i stored hFind
    exact Except.ok.inj h ▸ List.mem_of_find?_eq_some hFind

end GPUardian
