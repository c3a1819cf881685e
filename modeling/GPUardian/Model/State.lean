import GPUardian.Library.Interleaving
import GPUardian.Library.Strings

/-! The persisted state of a node daemon and the process data it is compared with.
Field names are those of the source records. Fields that no modelled function reads
(the group of a lease, display names) are left out. -/
namespace GPUardian

open GoStrings List

/-- An instant in nanoseconds. Go's zero `time.Time`, which the source reads as
"not set", is the instant `0`. -/
abbrev Time := Int

abbrev Duration := Int

def timeIsSet (value : Time) : Bool := value != 0

def second : Duration := 1000000000

def modeBare : String := "bare"
def modeDocker : String := "docker"
def modeK8s : String := "k8s"
def modeUser : String := "user"

def tokenModeReserved : String := "reserved"
def tokenModeClaimed : String := "claimed"
def tokenModeManaged : String := "managed"

def bypassPID : String := "pid"
def bypassCommand : String := "command"

structure GPUProcess where
  gpu : Int
  pid : Int
  memBytes : Nat := 0
  memBytesUnknown : Bool := false
deriving DecidableEq, Repr, Inhabited

structure ProcInfo where
  pid : Int := 0
  startTime : Nat := 0
  uid : Int := 0
  username : String := ""
  commandPath : String := ""
  cgroup : String := ""
  containerID : String := ""
deriving DecidableEq, Repr, Inhabited

structure Token where
  id : String := ""
  hash : String := ""
  secret : String := ""
  name : String := ""
  mode : String := ""
  version : Int := 0
  managed : Bool := false
  createdAt : Time := 0
  expiresAt : Time := 0
  revoked : Bool := false
deriving DecidableEq, Repr, Inhabited

structure Reservation where
  id : String := ""
  groupID : String := ""
  externalSessionID : String := ""
  gpu : Int := 0
  tokenHash : String := ""
  holder : String := ""
  purpose : String := ""
  createdAt : Time := 0
  startsAt : Time := 0
  expiresAt : Time := 0
  active : Bool := false
  revoked : Bool := false
deriving DecidableEq, Repr, Inhabited

structure Authorization where
  id : String := ""
  mode : String := ""
  tokenHash : String := ""
  tokenMode : String := ""
  tokenVersion : Int := 0
  holder : String := ""
  runName : String := ""
  uid : Int := 0
  gid : Int := 0
  username : String := ""
  command : List String := []
  rootPID : Int := 0
  cgroupPath : String := ""
  cgroupRel : String := ""
  containerID : String := ""
  containerPattern : String := ""
  «namespace» : String := ""
  createdAt : Time := 0
  expiresAt : Time := 0
  active : Bool := false
  revoked : Bool := false
deriving DecidableEq, Repr, Inhabited

structure SoftClaim where
  id : String := ""
  gpu : Int := 0
  tokenHash : String := ""
  authorizationID : String := ""
  holder : String := ""
  runtimeContainerID : String := ""
  runtimeCgroup : String := ""
  runtimePID : Int := 0
  runtimeStartTime : Nat := 0
  createdAt : Time := 0
  updatedAt : Time := 0
deriving DecidableEq, Repr, Inhabited

structure Lease where
  id : String := ""
  gpu : Int := 0
  mode : String := ""
  tokenHash : String := ""
  holder : String := ""
  command : List String := []
  cgroupPath : String := ""
  cgroupRel : String := ""
  containerID : String := ""
  «namespace» : String := ""
  expiresAt : Time := 0
  active : Bool := false
deriving DecidableEq, Repr, Inhabited

structure BypassRule where
  id : String := ""
  type : String := ""
  pid : Int := 0
  startTime : Nat := 0
  bootID : String := ""
  command : String := ""
  uid : Int := 0
  reason : String := ""
  createdAt : Time := 0
  expiresAt : Time := 0
  revoked : Bool := false
deriving DecidableEq, Repr, Inhabited

structure AuditEvent where
  time : Time := 0
  kind : String := ""
  message : String := ""
  gpu : Int := 0
  pid : Int := 0
  leaseID : String := ""
  user : String := ""
deriving DecidableEq, Repr, Inhabited

structure State where
  managedKeys : Bool := false
  keySnapshotID : String := ""
  managedKeyAuthority : String := ""
  tokens : List Token := []
  reservations : List Reservation := []
  authorizations : List Authorization := []
  softClaims : List SoftClaim := []
  leases : List Lease := []
  bypasses : List BypassRule := []
  audit : List AuditEvent := []
deriving DecidableEq, Repr, Inhabited

/-- A reservation without a start begins when it was created. -/
def reservationStartsAt (reservation : Reservation) : Time :=
  if timeIsSet reservation.startsAt then reservation.startsAt else reservation.createdAt

def reservationActiveAt (reservation : Reservation) (now : Time) : Bool :=
  reservation.active && !reservation.revoked && !decide (now < reservationStartsAt reservation) &&
    decide (now < reservation.expiresAt)

def reservationOverlaps (reservation : Reservation) (startsAt expiresAt : Time) : Bool :=
  if !reservation.active || reservation.revoked then false
  else decide (reservationStartsAt reservation < expiresAt) && decide (startsAt < reservation.expiresAt)

/-- SHA-256 in lower-case hexadecimal, as `hex.EncodeToString` prints it. -/
class Digest where
  sha256Hex : String → String

/-- A digest for samples, which leaves its text as it is. -/
@[reducible]
def plain : Digest := ⟨id⟩

namespace Plain

attribute [scoped instance] ascii plain

end Plain

def hashToken [Digest] (token : String) : String := Digest.sha256Hex token

section Normalization

variable [Unicode]

/-- An empty token mode is the historic default, a claim key. -/
def normalizeTokenMode (mode : String) : String :=
  let mode := trimSpace (toLower mode)
  if mode = "" then tokenModeClaimed else mode

/-- A mode in small letters is its own normal form. -/
theorem normalizeTokenMode_small (hSmall : Unicode.KeepsSmall)
    {mode : String} (hLetters : ∀ c ∈ mode.toList, c.isLower) (hTrimmed : trimSpace mode = mode)
    (hSet : mode ≠ "") : normalizeTokenMode mode = mode := by
  have hLower : toLower mode = mode := toLower_of_forall fun c hc => hSmall c (hLetters c hc)
  simp only [normalizeTokenMode, hLower, hTrimmed, if_neg hSet]

def normalizeHolder (holder : String) : String :=
  let holder := toLower (trimSpace holder)
  if holder = "" then "anonymous" else holder

end Normalization

def tokenExpired (token : Token) (now : Time) : Bool :=
  timeIsSet token.expiresAt && !decide (now < token.expiresAt)

def tokenActiveAt (token : Token) (now : Time) : Bool :=
  !token.revoked && !tokenExpired token now

def authorizationExpired (authorization : Authorization) (now : Time) : Bool :=
  timeIsSet authorization.expiresAt && !decide (now < authorization.expiresAt)

def authorizationActiveAt (authorization : Authorization) (now : Time) : Bool :=
  authorization.active && !authorization.revoked && !authorizationExpired authorization now

theorem tokenActiveAt_antitone {token : Token} {now later : Time} (hTime : now ≤ later)
    (h : tokenActiveAt token later = true) : tokenActiveAt token now = true := by
  simp only [tokenActiveAt, tokenExpired, Bool.and_eq_true, Bool.not_eq_true',
    Bool.and_eq_false_iff, Bool.not_eq_false', decide_eq_true_eq] at h ⊢
  exact ⟨h.1, h.2.imp_right (Int.lt_of_le_of_lt hTime)⟩

theorem authorizationActiveAt_antitone {row : Authorization} {now later : Time} (hTime : now ≤ later)
    (h : authorizationActiveAt row later = true) : authorizationActiveAt row now = true := by
  simp only [authorizationActiveAt, authorizationExpired, Bool.and_eq_true, Bool.not_eq_true',
    Bool.and_eq_false_iff, Bool.not_eq_false', decide_eq_true_eq] at h ⊢
  exact ⟨h.1, h.2.imp_right (Int.lt_of_le_of_lt hTime)⟩

/-- Go map built by assigning rows in order: a later row with the same hash
replaces an earlier one. -/
def tokenByHash (tokens : List Token) (hash : String) : Option Token :=
  tokens.reverse.find? (·.hash == hash)

theorem tokenByHash_mem {tokens : List Token} {hash : String} {token : Token}
    (h : tokenByHash tokens hash = some token) : token ∈ tokens ∧ token.hash = hash := by
  have hMem := mem_of_find?_eq_some h
  have hHash := find?_some h
  exact ⟨mem_reverse.mp hMem, by simpa using hHash⟩

theorem tokenByHash_eq_none {tokens : List Token} {hash : String}
    (h : tokenByHash tokens hash = none) : ∀ token ∈ tokens, token.hash ≠ hash := by
  intro token hToken
  have hNone := find?_eq_none.mp h token (mem_reverse.mpr hToken)
  simpa using hNone

end GPUardian
