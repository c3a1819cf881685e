import GPUardian.Model.State
import Mathlib.Data.List.Dedup

/-! Which authorizations, leases and bypass rules cover a process. The answers of the
process table and of the container runtime, and the cancellation of the context, are
parameters. A site is the place in a pass where such an answer is asked for, so that
two questions of one pass may get different answers. -/
namespace GPUardian

open GoStrings

/-- Loop indices, outermost first. -/
abbrev Site := List Nat

/-- A failed read of a process; `gone` is `proc.IsNotExist`. -/
structure ReadError where
  gone : Bool
  text : String

/-- A failed runtime lookup; `notFound` is `errors.Is(err, runtime.ErrNotFound)`. -/
structure LookupError where
  notFound : Bool
  text : String

/-- A reader of the process table that reports the PID it was asked for. -/
structure ProcReader where
  info : Int → Except ReadError ProcInfo
  «exists» : Int → Bool
  info_pid : ∀ pid process, info pid = .ok process → process.pid = pid

structure Resolver where
  dockerContainerName : Site → String → Except LookupError String
  namespaceForContainer : Site → String → Except LookupError String

/-- What a pass works with. The reader is the memo of the pass, so it answers every
question about one PID alike. Go visits the GPUs of a sample in any order. -/
structure Authorizer where
  proc : Option ProcReader
  runtime : Option Resolver
  usernameLookup : Site → Int → Except String String
  bootID : String
  dryRun : Bool
  ctxErr : Site → Option String
  gpuOrder : List Int → List Int
  gpuOrder_perm : ∀ gpus, (gpuOrder gpus).Perm gpus

section Scopes

variable [Unicode]

def sameContainer (a b : String) : Bool :=
  let a := toLower (trimSpace a)
  let b := toLower (trimSpace b)
  if a = "" ∨ b = "" then false
  else if a = b then true
  else
    let (shorter, longer) := if byteLen b < byteLen a then (b, a) else (a, b)
    decide (12 ≤ byteLen shorter) && hasPrefix longer shorter

end Scopes

/-- The loop over the parts of a pattern after the first: each is found after the one
before it. -/
def wildcardParts : List (List Char) → List Char → Bool
  | [], _ => true
  | part :: rest, value =>
    if part = [] then wildcardParts rest value
    else match index? part value with
      | none => false
      | some i => wildcardParts rest (value.drop (i + part.length))

def wildcardMatch (pattern value : String) : Bool :=
  let pattern := (trimSpace pattern).toList
  let value := (trimSpace value).toList
  if pattern = [] then false
  else if '*' ∉ pattern then pattern == value
  else if pattern = ['*'] then true
  else match splitAt '*' pattern with
    | [] => false
    | first :: parts =>
      first.isPrefixOf value && wildcardParts parts (value.drop first.length) &&
        ((parts.getLast?.getD first) == [] || (parts.getLast?.getD first).isSuffixOf value)

def normalizeCgroupPath (value : String) : String :=
  let value := trimSpace value
  if value = "" then ""
  else cleanRooted (if hasPrefix value "/" then value else "/" ++ value)

def cgroupMount : String := "/sys/fs/cgroup"

def normalizeCgroupMountPath (value : String) : String :=
  let value := trimSpace value
  if value = cgroupMount then "/"
  else if hasPrefix value (cgroupMount ++ "/") then
    normalizeCgroupPath (String.ofList (value.toList.drop cgroupMount.length))
  else normalizeCgroupPath value

/-- The path of one line of `/proc/<pid>/cgroup`. -/
def cgroupLinePath (line : List Char) : String :=
  let candidate := trimSpace (String.ofList line)
  match splitAtMost ':' 2 candidate.toList with
  | [_, _, path] => normalizeCgroupPath (String.ofList path)
  | _ => normalizeCgroupPath candidate

def bareCgroupMatches (raw relative absolute : String) : Bool :=
  let targets := [normalizeCgroupPath relative, normalizeCgroupMountPath absolute].filter (· != "")
  (splitAt (Char.ofNat 10) raw.toList).any fun line =>
    let actual := cgroupLinePath line
    actual != "" && targets.any fun target =>
      actual == target || hasPrefix actual (target ++ "/") || target == "/"

/-- Whether one live rule covers a process. Command rules count for root only. -/
def bypassRuleMatches (info : ProcInfo) (bootID : String) (rule : BypassRule) : Bool :=
  if rule.type = bypassPID then
    bootID != "" && rule.bootID == bootID && rule.pid == info.pid && rule.startTime != 0 &&
      rule.startTime == info.startTime
  else if rule.type = bypassCommand then
    rule.uid == 0 && info.uid == 0 && rule.command != "" && rule.command == info.commandPath
  else false

def bypassMatch (rules : List BypassRule) (info : ProcInfo) (now : Time) (bootID : String) : Bool :=
  rules.any fun rule =>
    !rule.revoked && decide (now < rule.expiresAt) && bypassRuleMatches info bootID rule

namespace Authorizer

variable [Unicode] (a : Authorizer)

/-- `fmt.Errorf("resolve <kind> scope for <owner> <id>: %w", err)`. -/
def scopeError (kind owner id text : String) : String :=
  s!"resolve {kind} scope for {owner} {id}: {text}"

def errNoResolver : String := "runtime resolver is unavailable"

/-- A lookup for a scope: an unknown container belongs to no scope. -/
def lookupScope (kind owner id : String) (answer : Except LookupError String)
    (accepts : String → Bool) : Except String Bool :=
  match answer with
  | .ok name => .ok (accepts name)
  | .error err => if err.notFound then .ok false else .error (scopeError kind owner id err.text)

def k8sScopeMatches (site : Site) (owner id : String) (info : ProcInfo)
    (accepts : String → Bool) : Except String Bool :=
  if info.containerID = "" then .ok false
  else match a.runtime with
    | none => .error (scopeError "k8s" owner id errNoResolver)
    | some runtime =>
      lookupScope "k8s" owner id (runtime.namespaceForContainer site info.containerID) accepts

def dockerPatternMatches (site : Site) (authorization : Authorization) (info : ProcInfo) :
    Except String Bool :=
  if info.containerID = "" then .ok false
  else match a.runtime with
    | none => .error (scopeError "docker" "authorization" authorization.id errNoResolver)
    | some runtime =>
      lookupScope "docker" "authorization" authorization.id
        (runtime.dockerContainerName site info.containerID)
        (wildcardMatch authorization.containerPattern)

def userScopeMatches (site : Site) (authorization : Authorization) (info : ProcInfo) :
    Except String Bool :=
  if info.uid < 0 then
    .error (scopeError "user" "authorization" authorization.id "process uid is unavailable")
  else if 0 ≤ authorization.uid then .ok (info.uid == authorization.uid)
  else
    let username :=
      if info.username = "" then a.usernameLookup site info.uid else .ok info.username
    match username with
    | .error text => .error (scopeError "user" "authorization" authorization.id text)
    | .ok username =>
      .ok (authorization.username != "" && wildcardMatch authorization.username username)

def authorizationScopeMatchesForEviction (site : Site) (authorization : Authorization)
    (info : ProcInfo) : Except String Bool :=
  if authorization.mode = modeBare then
    .ok (bareCgroupMatches info.cgroup authorization.cgroupRel authorization.cgroupPath)
  else if authorization.mode = modeDocker then
    if authorization.containerPattern ≠ "" then a.dockerPatternMatches site authorization info
    else .ok (sameContainer info.containerID authorization.containerID)
  else if authorization.mode = modeK8s then
    a.k8sScopeMatches site "authorization" authorization.id info
      (wildcardMatch authorization.namespace)
  else if authorization.mode = modeUser then a.userScopeMatches site authorization info
  else .ok false

def leaseScopeMatchesForEviction (site : Site) (lease : Lease) (info : ProcInfo) :
    Except String Bool :=
  if lease.mode = modeBare then .ok (bareCgroupMatches info.cgroup lease.cgroupRel lease.cgroupPath)
  else if lease.mode = modeDocker then .ok (sameContainer info.containerID lease.containerID)
  else if lease.mode = modeK8s then
    a.k8sScopeMatches site "lease" lease.id info (· == lease.namespace)
  else .ok false

/-- The token a live authorization is used with, if the token and the two filters admit
it. `tokens` is the map of the pass: the last row of a hash counts. -/
def eligibleToken (tokens : List Token) (tokenFilter : Option (String → Bool)) (tokenMode : String)
    (now : Time) (authorization : Authorization) : Option Token :=
  if !authorizationActiveAt authorization now then none
  else if !(tokenFilter.elim true (· authorization.tokenHash)) then none
  else match tokenByHash tokens authorization.tokenHash with
    | none => none
    | some token =>
      let mode := normalizeTokenMode token.mode
      if !tokenActiveAt token now then none
      else if token.managed && authorization.tokenVersion != token.version then none
      else if tokenMode ≠ "" ∧ mode ≠ tokenMode ∧
          ¬ (tokenMode = tokenModeClaimed ∧ mode = tokenModeManaged) then none
      else some token

/-- The loop of `matchAnyAuthorization` from index `i` with the errors collected so far.
A match wins over earlier errors; a cancelled context ends the loop. -/
def matchAuthorizations (site : Site) (tokens : List Token) (info : ProcInfo)
    (tokenFilter : Option (String → Bool)) (tokenMode : String) (now : Time) :
    Nat → List String → List Authorization → Except (List String) (Option Authorization)
  | _, errors, [] => if errors = [] then .ok none else .error errors
  | i, errors, authorization :: rest =>
    match a.ctxErr (site ++ [i]) with
    | some text => .error (errors ++ [text])
    | none =>
      match eligibleToken tokens tokenFilter tokenMode now authorization with
      | none => matchAuthorizations site tokens info tokenFilter tokenMode now (i + 1) errors rest
      | some token =>
        let authorization := { authorization with tokenMode := normalizeTokenMode token.mode }
        match a.authorizationScopeMatchesForEviction (site ++ [i]) authorization info with
        | .error text =>
          matchAuthorizations site tokens info tokenFilter tokenMode now (i + 1)
            (errors ++ [text]) rest
        | .ok true => .ok (some authorization)
        | .ok false =>
          matchAuthorizations site tokens info tokenFilter tokenMode now (i + 1) errors rest

def matchAnyAuthorization (site : Site) (state : State) (info : ProcInfo)
    (tokenFilter : Option (String → Bool)) (tokenMode : String) (now : Time) :
    Except (List String) (Option Authorization) :=
  a.matchAuthorizations site state.tokens info tokenFilter tokenMode now 0 [] state.authorizations

/-- The loop of `matchesAnyLease`. The leases are active ones, as the check inside the
source's loop asks again. -/
def matchLeases (site : Site) (info : ProcInfo) (now : Time) :
    Nat → List String → List Lease → Except (List String) (Option Lease)
  | _, errors, [] => if errors = [] then .ok none else .error errors
  | i, errors, lease :: rest =>
    match a.ctxErr (site ++ [i]) with
    | some text => .error (errors ++ [text])
    | none =>
      if !lease.active || !decide (now < lease.expiresAt) then
        matchLeases site info now (i + 1) errors rest
      else match a.leaseScopeMatchesForEviction (site ++ [i]) lease info with
        | .error text => matchLeases site info now (i + 1) (errors ++ [text]) rest
        | .ok true => .ok (some lease)
        | .ok false => matchLeases site info now (i + 1) errors rest

end Authorizer

end GPUardian
