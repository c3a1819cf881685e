import GPUardian.Enforce.Matching

/-! The planning half of an enforcement pass: one decision for each sampled process and
GPU, and the list of processes to be signalled. -/
namespace GPUardian

open GoStrings List

inductive Action where
  | allow
  | kill
  | skip
  | claim
  | releaseClaim
deriving DecidableEq, Repr

structure Decision where
  process : GPUProcess := default
  info : ProcInfo := {}
  action : Action
  reason : String := ""
  leaseID : String := ""
  authID : String := ""
  claimID : String := ""
  holder : String := ""
  tokenHash : String := ""
  claim : SoftClaim := {}
deriving DecidableEq, Repr

structure ProcessView where
  process : GPUProcess
  info : ProcInfo
  bypassed : Bool := false
deriving DecidableEq, Repr

structure PendingKill where
  view : ProcessView
  reason : String
  leaseID : String
  authID : String
  holder : String
  tokenHash : String
  now : Time
deriving DecidableEq, Repr

def maxKillsPerEnforcementPass : Nat := 8

def budgetExhausted : String := "kill budget exhausted; retry on next enforcement pass"

/-- What the planner has written so far. -/
structure Plan where
  decisions : List Decision := []
  targeted : List Int := []
  pending : List PendingKill := []
  errors : List String := []
  audits : List AuditEvent := []
deriving DecidableEq, Repr

namespace Plan

def decide (decision : Decision) (plan : Plan) : Plan :=
  { plan with decisions := plan.decisions ++ [decision] }

def fail (texts : List String) (plan : Plan) : Plan := { plan with errors := plan.errors ++ texts }

def audit (event : AuditEvent) (plan : Plan) : Plan := { plan with audits := plan.audits ++ [event] }

end Plan

/-- The text and the rows a kill is reported with. -/
structure KillReport where
  reason : String
  leaseID : String := ""
  authID : String := ""
  holder : String := ""
  tokenHash : String := ""

def auditOfKill (request : PendingKill) (kind message : String) : AuditEvent :=
  { time := request.now, kind := kind, message := message, gpu := request.view.process.gpu,
    pid := request.view.process.pid, leaseID := request.leaseID, user := request.holder }

namespace Authorizer

variable (a : Authorizer)

/-- `awaiting` says which identities already got SIGTERM from a staged killer. In a dry
run there is no staged killer and the kill is only reported. -/
def kill (awaiting : Int → Nat → Bool) (view : ProcessView) (report : KillReport) (now : Time)
    (plan : Plan) : Plan :=
  let decision : Decision :=
    { process := view.process, info := view.info, action := .kill, reason := report.reason,
      leaseID := report.leaseID, authID := report.authID, holder := report.holder,
      tokenHash := report.tokenHash }
  let request : PendingKill :=
    { view := view, reason := report.reason, leaseID := report.leaseID, authID := report.authID,
      holder := report.holder, tokenHash := report.tokenHash, now := now }
  if a.dryRun then
    (plan.decide decision).audit (auditOfKill request "kill_dry_run" report.reason)
  else if awaiting view.process.pid view.info.startTime then plan.decide decision
  else if maxKillsPerEnforcementPass ≤ plan.pending.length then
    plan.decide { decision with action := .skip, reason := budgetExhausted }
  else { plan.decide decision with pending := plan.pending ++ [request] }

def killOnce (awaiting : Int → Nat → Bool) (view : ProcessView) (report : KillReport) (now : Time)
    (plan : Plan) : Plan :=
  if view.process.pid ∈ plan.targeted then
    plan.decide { process := view.process, info := view.info, action := .skip,
                  reason := "pid already targeted by enforcement" }
  else
    a.kill awaiting view report now { plan with targeted := view.process.pid :: plan.targeted }

/-- The decision is about the process. -/
def About (view : ProcessView) (decision : Decision) : Prop :=
  decision.process = view.process ∧ decision.info = view.info

/-- What a kill can decide: a kill that is already done or is not to be, one that it asks for,
or that the kills are spent. -/
inductive KillStep (awaiting : Int → Nat → Bool) (view : ProcessView) (plan : Plan)
    (decision : Decision) : List PendingKill → Prop
  | noted (hKill : decision.action = .kill)
      (hDone : a.dryRun = true ∨ awaiting view.process.pid view.info.startTime = true) :
      KillStep awaiting view plan decision []
  | asked (hKill : decision.action = .kill)
      (hFresh : awaiting view.process.pid view.info.startTime = false) (request : PendingKill)
      (hView : request.view = view) : KillStep awaiting view plan decision [request]
  | spent (hSkip : decision.action = .skip) (hReason : decision.reason = budgetExhausted)
      (hLive : a.dryRun = false) (hBudget : maxKillsPerEnforcementPass ≤ plan.pending.length) :
      KillStep awaiting view plan decision []

/-- A kill writes one decision about the process, with its request if it asks for one. -/
theorem kill_step (awaiting : Int → Nat → Bool) (view : ProcessView) (report : KillReport)
    (now : Time) (plan : Plan) :
    ∃ decision requests audits, About view decision ∧
      a.KillStep awaiting view plan decision requests ∧
      a.kill awaiting view report now plan =
        { plan with
          decisions := plan.decisions ++ [decision], pending := plan.pending ++ requests, audits } := by
  unfold kill
  dsimp only
  split_ifs with hDry hAwaiting hBudget
  · exact ⟨_, [], _, ⟨rfl, rfl⟩, .noted rfl (.inl hDry), by rw [append_nil]; rfl⟩
  · exact ⟨_, [], _, ⟨rfl, rfl⟩, .noted rfl (.inr hAwaiting), by rw [append_nil]; rfl⟩
  · exact ⟨_, [], _, ⟨rfl, rfl⟩, .spent rfl rfl (Bool.eq_false_iff.mpr hDry) hBudget,
      by rw [append_nil]; rfl⟩
  · exact ⟨_, _, _, ⟨rfl, rfl⟩, .asked rfl (Bool.eq_false_iff.mpr hAwaiting) _ rfl, rfl⟩

end Authorizer

/-- A view read for the sampled PID. -/
def ProcessView.Verified (view : ProcessView) : Prop := view.info.pid = view.process.pid

/-- What the planner promises about its kills: it signals what it has read and has not
signalled before, and a process it decides to kill is signalled in this pass or was in an
earlier one. -/
structure Plan.Sound (awaiting : Int → Nat → Bool) (plan : Plan) : Prop where
  verified : ∀ request ∈ plan.pending, request.view.Verified
  fresh : ∀ request ∈ plan.pending,
    awaiting request.view.process.pid request.view.info.startTime = false
  decided : ∀ decision ∈ plan.decisions, decision.action = .kill →
    awaiting decision.process.pid decision.info.startTime = true ∨
    ∃ request ∈ plan.pending, request.view.process.pid = decision.process.pid ∧
      request.view.info.startTime = decision.info.startTime

namespace Plan.Sound

variable {awaiting : Int → Nat → Bool} {plan : Plan}

theorem empty : Plan.Sound awaiting {} :=
  ⟨fun _ hMem => absurd hMem not_mem_nil, fun _ hMem => absurd hMem not_mem_nil,
    fun _ hMem => absurd hMem not_mem_nil⟩

theorem decide (h : plan.Sound awaiting) {decision : Decision} (hAction : decision.action ≠ .kill) :
    (plan.decide decision).Sound awaiting :=
  { h with decided := forall_mem_concat.mpr ⟨h.decided, fun hKill => absurd hKill hAction⟩ }

theorem fail (h : plan.Sound awaiting) (texts : List String) : (plan.fail texts).Sound awaiting :=
  { h with }

theorem audit (h : plan.Sound awaiting) (event : AuditEvent) : (plan.audit event).Sound awaiting :=
  { h with }

theorem target (h : plan.Sound awaiting) (targeted : List Int) :
    { plan with targeted := targeted }.Sound awaiting :=
  { h with }

/-- A kill keeps the promise unless it is a dry run, which signals nothing. -/
theorem kill {a : Authorizer} (hDry : a.dryRun = false) (h : plan.Sound awaiting)
    {view : ProcessView} (hView : view.Verified) (report : KillReport) (now : Time) :
    (a.kill awaiting view report now plan).Sound awaiting := by
  obtain ⟨decision, requests, audits, ⟨hProcess, hInfo⟩, hStep, hPlan⟩ :=
    a.kill_step awaiting view report now plan
  rw [hPlan]
  cases hStep with
  | noted hKill hDone =>
    rw [hDry, ← hProcess, ← hInfo] at hDone
    rw [append_nil]
    exact { h with decided := forall_mem_concat.mpr ⟨h.decided, fun _ => .inl (by simpa using hDone)⟩ }
  | asked hKill hFresh request hSame =>
    subst hSame
    refine ⟨forall_mem_concat.mpr ⟨h.verified, hView⟩, forall_mem_concat.mpr ⟨h.fresh, hFresh⟩,
      forall_mem_concat.mpr ⟨fun other hOther hKill => ?_, fun _ => ?_⟩⟩
    · refine (h.decided other hOther hKill).imp_right ?_
      rintro ⟨request, hRequest, hKey⟩
      exact ⟨request, mem_append_left _ hRequest, hKey⟩
    · exact .inr ⟨_, mem_append_right _ mem_cons_self, by rw [hProcess], by rw [hInfo]⟩
  | spent hSkip =>
    rw [append_nil]
    exact { h.decide (hSkip ▸ nofun) with }

theorem killOnce {a : Authorizer} (hDry : a.dryRun = false) (h : plan.Sound awaiting)
    {view : ProcessView} (hView : view.Verified) (report : KillReport) (now : Time) :
    (a.killOnce awaiting view report now plan).Sound awaiting := by
  unfold Authorizer.killOnce
  split
  · exact h.decide nofun
  · exact (h.target _).kill hDry hView report now

end Plan.Sound

def allowDecision (view : ProcessView) (reason : String) (authorization : Authorization)
    (claimID : String) : Decision :=
  { process := view.process, info := view.info, action := .allow, reason := reason,
    authID := authorization.id, claimID := claimID, holder := authorization.holder,
    tokenHash := authorization.tokenHash }

def skipDecision (view : ProcessView) (reason : String) : Decision :=
  { process := view.process, info := view.info, action := .skip, reason := reason }

def usesGPUResources (process : GPUProcess) : Bool :=
  process.memBytesUnknown || decide (0 < process.memBytes)

def activeReservationsForGPU (reservations : List Reservation) (gpu : Int) (now : Time) :
    List Reservation :=
  reservations.filter fun row => row.gpu == gpu && reservationActiveAt row now

def activeLeasesForGPU (leases : List Lease) (gpu : Int) (now : Time) : List Lease :=
  leases.filter fun lease => lease.gpu == gpu && lease.active && decide (now < lease.expiresAt)

/-- The first valid row of a hash, with its mode normalized. -/
def activeTokenByHash [Unicode] (tokens : List Token) (hash : String) (now : Time) : Option Token :=
  (tokens.find? fun token => token.hash == hash && tokenActiveAt token now).map fun token =>
    { token with mode := normalizeTokenMode token.mode }

/-- The holders of the rows that hold a GPU, as a kill reports them. -/
def holders (kind : String) (rows : List (String × String)) : String :=
  let parts := rows.map fun (holder, id) =>
    let holder := trimSpace holder
    let holder := if holder = "" then "unknown" else holder
    if id = "" then holder else s!"{holder} ({kind}={id})"
  if parts = [] then "unknown" else ", ".intercalate parts

def reservationHolder (reservations : List Reservation) : String :=
  holders "reservation" (reservations.map fun row => (row.holder, row.id))

def leaseHolder (leases : List Lease) : String :=
  holders "lease" (leases.map fun row => (row.holder, row.id))

def deniedReason (gpu pid : Int) (how holder : String) : String :=
  s!"unauthorized GPU access on gpu={gpu} pid={pid}; gpu is {how} by {holder}"

def softClaimRuntimeMatches [Unicode] (claim : SoftClaim) (info : ProcInfo) : Bool :=
  if claim.runtimeContainerID ≠ "" then sameContainer claim.runtimeContainerID info.containerID
  else if claim.runtimeCgroup ≠ "" then bareCgroupMatches info.cgroup claim.runtimeCgroup ""
  else if 0 < claim.runtimePID then
    claim.runtimePID == info.pid &&
      (claim.runtimeStartTime == 0 || claim.runtimeStartTime == info.startTime)
  else false

/-- The runtime that establishes a claim: its container, its cgroup, or the process. -/
def setSoftClaimRuntimeIdentity (claim : SoftClaim) (authorization : Authorization)
    (info : ProcInfo) : SoftClaim :=
  let byProcess := { claim with runtimePID := info.pid, runtimeStartTime := info.startTime }
  if authorization.mode = modeDocker ∨ authorization.mode = modeK8s then
    if info.containerID ≠ "" then { claim with runtimeContainerID := info.containerID } else byProcess
  else if authorization.mode = modeBare then
    let relative := normalizeCgroupPath authorization.cgroupRel
    let target :=
      if relative = "" then normalizeCgroupMountPath authorization.cgroupPath else relative
    if target ≠ "" ∧ bareCgroupMatches info.cgroup target "" then
      { claim with runtimeCgroup := target }
    else byProcess
  else byProcess

def activeSoftClaimsForGPU [Unicode] (state : State) (gpu : Int) (now : Time) : List SoftClaim :=
  state.softClaims.filter fun claim => claim.gpu == gpu &&
    ((activeTokenByHash state.tokens claim.tokenHash now).elim false fun token =>
      normalizeTokenMode token.mode == tokenModeClaimed ||
        normalizeTokenMode token.mode == tokenModeManaged)

end GPUardian
