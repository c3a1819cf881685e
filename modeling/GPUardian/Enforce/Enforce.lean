import GPUardian.Enforce.Plan

/-! The enforcement scan. A GPU with an active reservation is judged by its
reservations, otherwise by its legacy leases, otherwise by claims. -/
namespace GPUardian

open GoStrings List

/-- What a GPU says about one process. An unresolved lookup is skipped with a reason, or
ends the scan of the GPU. -/
inductive Verdict where
  | allow (decision : Decision)
  | deny (report : KillReport)
  | unresolved (skipReason : Option String) (errors : List String)

namespace Authorizer

variable (a : Authorizer)

/-- The loop over the processes of one GPU from index `i`. -/
def judgeViews (awaiting : Int → Nat → Bool) (site : Site) (judge : Site → ProcessView → Verdict)
    (now : Time) : Nat → List ProcessView → Plan → Plan
  | _, [], plan => plan
  | i, view :: rest, plan =>
    match a.ctxErr (site ++ [i]) with
    | some text => plan.fail [text]
    | none =>
      if view.bypassed then judgeViews awaiting site judge now (i + 1) rest plan
      else match judge (site ++ [i]) view with
        | .allow decision =>
          judgeViews awaiting site judge now (i + 1) rest (plan.decide decision)
        | .deny report =>
          judgeViews awaiting site judge now (i + 1) rest
            (a.killOnce awaiting view report now plan)
        | .unresolved (some reason) errors =>
          judgeViews awaiting site judge now (i + 1) rest
            ((plan.decide (skipDecision view reason)).fail errors)
        | .unresolved none errors => plan.fail errors

variable [Unicode]

def judgeHard (state : State) (gpu : Int) (reservations : List Reservation) (now : Time)
    (site : Site) (view : ProcessView) : Verdict :=
  let tokenFilter (hash : String) : Bool := reservations.any (·.tokenHash == hash)
  let holder := reservationHolder reservations
  match a.matchAnyAuthorization site state view.info (some tokenFilter) "" now with
  | .error errors => .unresolved (some "authorization resolution unavailable") errors
  | .ok (some authorization) => .allow (allowDecision view "authorization" authorization "")
  | .ok none =>
    .deny { reason := deniedReason gpu view.process.pid "reserved" holder
            leaseID := (reservations.head?.map (·.id)).getD ""
            holder := holder
            tokenHash := (reservations.head?.map (·.tokenHash)).getD "" }

def enforceHard (awaiting : Int → Nat → Bool) (site : Site) (state : State) (gpu : Int)
    (reservations : List Reservation) (views : List ProcessView) (now : Time) (plan : Plan) : Plan :=
  a.judgeViews awaiting site (a.judgeHard state gpu reservations now) now 0 views plan

def judgeLegacyLeases (gpu : Int) (leases : List Lease) (now : Time) (site : Site)
    (view : ProcessView) : Verdict :=
  let holder := leaseHolder leases
  match a.matchLeases site view.info now 0 [] leases with
  | .error errors => .unresolved (some "lease resolution unavailable") errors
  | .ok (some lease) =>
    .allow { process := view.process, info := view.info, action := .allow, reason := "lease",
             leaseID := lease.id, holder := holder }
  | .ok none =>
    .deny { reason := deniedReason gpu view.process.pid "held" holder
            leaseID := (leases.head?.map (·.id)).getD ""
            holder := holder }

def enforceLegacyLeases (awaiting : Int → Nat → Bool) (site : Site) (gpu : Int)
    (leases : List Lease) (views : List ProcessView) (now : Time) (plan : Plan) : Plan :=
  a.judgeViews awaiting site (a.judgeLegacyLeases gpu leases now) now 0 views plan

/-- Whether a process that runs in the claim's runtime still matches its token. -/
def claimMatchingViews (site : Site) (state : State) (claim : SoftClaim) (now : Time) :
    Nat → List ProcessView → Except (List String) Bool
  | _, [] => .ok false
  | i, view :: rest =>
    match a.ctxErr (site ++ [i]) with
    | some text => .error [text]
    | none =>
      if view.bypassed || !softClaimRuntimeMatches claim view.info then
        claimMatchingViews site state claim now (i + 1) rest
      else match a.matchAnyAuthorization (site ++ [i]) state view.info
          (some (· == claim.tokenHash)) tokenModeClaimed now with
        | .error errors => .error errors
        | .ok (some _) => .ok true
        | .ok none => claimMatchingViews site state claim now (i + 1) rest

def claimHasMatchingProcess (site : Site) (state : State) (claim : SoftClaim)
    (views : List ProcessView) (now : Time) : Except (List String) Bool :=
  if claim.tokenHash = "" then .ok false else a.claimMatchingViews site state claim now 0 views

def judgeClaimed (state : State) (gpu : Int) (claim : SoftClaim) (now : Time) (site : Site)
    (view : ProcessView) : Verdict :=
  match a.matchAnyAuthorization site state view.info (some (· == claim.tokenHash))
      tokenModeClaimed now with
  | .error errors => .unresolved none errors
  | .ok (some authorization) => .allow (allowDecision view "claimed" authorization claim.id)
  | .ok none =>
    .deny { reason := deniedReason gpu view.process.pid "claimed" claim.holder
            authID := claim.authorizationID
            holder := claim.holder
            tokenHash := claim.tokenHash }

/-- The processes of a GPU without a claim, those that could establish one first. -/
structure Claimants where
  authorized : List (ProcessView × Authorization) := []
  unauthorized : List ProcessView := []

def claimants (site : Site) (state : State) (now : Time) :
    Nat → Claimants → List ProcessView → Except (List String) Claimants
  | _, found, [] => .ok found
  | i, found, view :: rest =>
    match a.ctxErr (site ++ [i]) with
    | some text => .error [text]
    | none =>
      if view.bypassed then claimants site state now (i + 1) found rest
      else match a.matchAnyAuthorization (site ++ [i]) state view.info none
          tokenModeClaimed now with
        | .error errors => .error errors
        | .ok (some authorization) =>
          claimants site state now (i + 1)
            { found with authorized := found.authorized ++ [(view, authorization)] } rest
        | .ok none =>
          claimants site state now (i + 1)
            { found with unauthorized := found.unauthorized ++ [view] } rest

/-- The first claimant claims the GPU; everyone with another token is denied. -/
def settleClaim (awaiting : Int → Nat → Bool) (gpu : Int) (first : ProcessView × Authorization)
    (found : Claimants) (now : Time) (plan : Plan) : Plan :=
  let owner := first.2
  let claim := setSoftClaimRuntimeIdentity
    { gpu := gpu, tokenHash := owner.tokenHash, authorizationID := owner.id, holder := owner.holder,
      createdAt := now, updatedAt := now } owner first.1.info
  let report (view : ProcessView) : KillReport :=
    { reason := deniedReason gpu view.process.pid "claimed" owner.holder, authID := owner.id,
      holder := owner.holder, tokenHash := owner.tokenHash }
  let plan := plan.decide
    { action := .claim, reason := "claimed", authID := owner.id, holder := owner.holder,
      tokenHash := owner.tokenHash, claim := claim }
  let plan := plan.audit
    { time := now, kind := "claim", message := "GPU claimed", gpu := gpu, user := owner.holder }
  let plan := found.authorized.foldl (fun plan (view, authorization) =>
    if authorization.tokenHash = owner.tokenHash then
      plan.decide (allowDecision view "claimed" authorization "")
    else a.killOnce awaiting view (report view) now plan) plan
  found.unauthorized.foldl (fun plan view => a.killOnce awaiting view (report view) now plan) plan

def enforceSoft (awaiting : Int → Nat → Bool) (site : Site) (state : State) (gpu : Int)
    (views : List ProcessView) (now : Time) (plan : Plan) : Plan :=
  match activeSoftClaimsForGPU state gpu now with
  | claim :: _ =>
    match a.claimHasMatchingProcess (site ++ [0]) state claim views now with
    | .error errors => plan.fail errors
    | .ok true =>
      a.judgeViews awaiting (site ++ [1]) (a.judgeClaimed state gpu claim now) now 0 views plan
    | .ok false =>
      -- The claim is released at the end of the pass and nobody inherits it before.
      (views.filter (!·.bypassed)).foldl (fun plan view =>
        plan.decide (skipDecision view "claimed runtime disappeared; releasing claim")) plan
  | [] =>
    match a.claimants (site ++ [2]) state now 0 {} views with
    | .error errors => plan.fail errors
    | .ok found =>
      match found.authorized with
      | [] => found.unauthorized.foldl (fun plan view =>
        plan.decide (skipDecision view "gpu has no active claimed authorization")) plan
      | first :: _ => a.settleClaim awaiting gpu first found now plan

def enforceGPU (awaiting : Int → Nat → Bool) (site : Site) (state : State) (gpu : Int)
    (views : List ProcessView) (now : Time) (plan : Plan) : Plan :=
  let reservations := activeReservationsForGPU state.reservations gpu now
  let leases := activeLeasesForGPU state.leases gpu now
  if reservations ≠ [] then a.enforceHard awaiting site state gpu reservations views now plan
  else if leases ≠ [] then a.enforceLegacyLeases awaiting site gpu leases views now plan
  else a.enforceSoft awaiting site state gpu views now plan

/-- The first loop of a scan: reads each sampled process. `Except.error` is an early
return with the plan so far. -/
def surveySample (state : State) (now : Time) :
    Nat → List GPUProcess → Plan → List ProcessView → Except Plan (Plan × List ProcessView)
  | _, [], plan, views => .ok (plan, views)
  | i, process :: rest, plan, views =>
    match a.ctxErr [0, i] with
    | some text => .error (plan.fail [text])
    | none =>
      let skip (reason : String) : Plan :=
        plan.decide { process := process, action := .skip, reason := reason }
      if !usesGPUResources process then
        surveySample state now (i + 1) rest (skip "no gpu resource usage") views
      else match a.proc with
        | none => surveySample state now (i + 1) rest (skip "stale pid") views
        | some reader =>
          match reader.info process.pid with
          | .error err =>
            let reason :=
              if err.gone || !reader.exists process.pid then "stale pid"
              else "proc info unavailable"
            surveySample state now (i + 1) rest (skip reason) views
          | .ok info =>
            if bypassMatch state.bypasses info now a.bootID then
              surveySample state now (i + 1) rest
                (plan.decide { process := process, info := info, action := .allow,
                               reason := "bypass" })
                (views ++ [{ process := process, info := info, bypassed := true }])
            else
              surveySample state now (i + 1) rest plan
                (views ++ [{ process := process, info := info }])

def viewsOnGPU (views : List ProcessView) (gpu : Int) : List ProcessView :=
  views.filter (·.process.gpu == gpu)

def enforceGPUs (awaiting : Int → Nat → Bool) (state : State) (views : List ProcessView)
    (now : Time) : Nat → List Int → Plan → Except Plan Plan
  | _, [], plan => .ok plan
  | i, gpu :: rest, plan =>
    match a.ctxErr [1, i] with
    | some text => .error (plan.fail [text])
    | none =>
      enforceGPUs awaiting state views now (i + 1) rest
        (a.enforceGPU awaiting [1, i] state gpu (viewsOnGPU views gpu) now plan)

def releaseClaims (state : State) (views : List ProcessView) (now : Time) :
    Nat → List SoftClaim → Plan → Plan
  | _, [], plan => plan
  | i, claim :: rest, plan =>
    match a.ctxErr [2, i] with
    | some text => plan.fail [text]
    | none =>
      match a.claimHasMatchingProcess [2, i] state claim (viewsOnGPU views claim.gpu) now with
      | .error errors => releaseClaims state views now (i + 1) rest (plan.fail errors)
      | .ok true => releaseClaims state views now (i + 1) rest plan
      | .ok false =>
        releaseClaims state views now (i + 1) rest
          ((plan.decide { action := .releaseClaim, claimID := claim.id,
                          reason := "claimed GPU has no matching process" }).audit
            { time := now, kind := "claim_released",
              message := "claimed GPU released after authorized process disappeared",
              gpu := claim.gpu, user := claim.holder })

/-- The plan of `Enforce`, before its kills are carried out. -/
def enforce (awaiting : Int → Nat → Bool) (state : State) (processes : List GPUProcess)
    (now : Time) : Plan :=
  match a.surveySample state now 0 processes {} [] with
  | .error plan => plan
  | .ok (plan, views) =>
    let gpus := a.gpuOrder (views.map (·.process.gpu)).dedup
    match a.enforceGPUs awaiting state views now 0 gpus plan with
    | .error plan => plan
    | .ok plan => a.releaseClaims state views now 0 state.softClaims plan

/-- The plan of an early return or of a full loop. -/
def Finished (P : Plan → Prop) : Except Plan Plan → Prop
  | .error plan => P plan
  | .ok plan => P plan

end Authorizer

end GPUardian
