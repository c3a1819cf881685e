import GPUardian.Enforce.Scan
import GPUardian.Enforce.Eviction
import GPUardian.Enforce.SignalLog

/-! One tick of the daemon's monitor: stale scopes are evicted, the sample is enforced,
and the processes signalled before are escalated. Without a sample only the escalation
runs. The killer is staged. -/
namespace GPUardian

open GoStrings

/-- What one tick reads, the clock at its three stages, and how its signals go. Answers
are asked for by identity. -/
structure Tick where
  sample : Except String (List GPUProcess)
  snapshot : Except String State
  authorizer : Authorizer
  staged : authorizer.dryRun = false
  evictAt : Time
  enforceAt : Time
  escalateAt : Time
  evictKills : TerminationKey → KillAnswer
  enforceKills : TerminationKey → KillAnswer
  escalations : TerminationKey → EscalationAnswer
  ordered : ∀ key, escalateAt ≤ (escalations key).forceKillAt

/-- What a tick decides and leaves behind. -/
structure TickResult where
  decisions : List Decision := []
  assessment : EvictionAssessment := {}
  signals : Signals
  audits : List AuditEvent := []
  errors : List String := []

section Pass

variable [Unicode] (grace : Duration) (tick : Tick)

/-- The exported `EvictExpiredReservedProcesses`: the plan and then its kills. -/
def Tick.evict (state : State) (processes : List GPUProcess) (signals : Signals) : TickResult :=
  let scan := tick.authorizer.evictExpiredReservedProcesses signals.awaiting state processes
    tick.evictAt
  let kills := executePendingKills grace tick.evictKills scan.plan.pending signals
  { decisions := scan.plan.decisions
    assessment :=
      if kills.2.2 = [] then scan.assessment else markEvictionAssessmentUncertain scan.assessment
    signals := kills.1
    audits := scan.plan.audits ++ kills.2.1
    errors := scan.plan.errors ++ kills.2.2 }

/-- The exported `Enforce`. -/
def Tick.enforce (state : State) (processes : List GPUProcess) (signals : Signals) : TickResult :=
  let plan := tick.authorizer.enforce signals.awaiting state processes tick.enforceAt
  let kills := executePendingKills grace tick.enforceKills plan.pending signals
  { decisions := plan.decisions
    signals := kills.1
    audits := plan.audits ++ kills.2.1
    errors := plan.errors ++ kills.2.2 }

/-- The sample without the processes that the eviction dealt with. -/
def remainingProcesses (decisions : List Decision) (processes : List GPUProcess) :
    List GPUProcess :=
  processes.filter fun process => !decisions.any fun decision =>
    decide (0 < decision.process.pid) && decision.process.pid == process.pid

/-- `enforcePass` up to the escalation. -/
def Tick.judge (state : State) (processes : List GPUProcess) (signals : Signals) : TickResult :=
  let evicted := tick.evict grace state processes signals
  let enforced := tick.enforce grace state (remainingProcesses evicted.decisions processes)
    evicted.signals
  { decisions := evicted.decisions ++ enforced.decisions
    assessment := evicted.assessment
    signals := enforced.signals
    audits := evicted.audits ++ enforced.audits
    errors := evicted.errors ++ enforced.errors }

/-- `EscalateTerminations` with the decisions of the tick. -/
def Tick.escalate (state : State) (result : TickResult) : TickResult :=
  let escalated := escalateTerminations state.bypasses tick.authorizer.bootID result.decisions
    tick.escalateAt tick.escalations result.signals
  { result with
    signals := escalated.1
    audits := result.audits ++ escalated.2.1
    errors := result.errors ++ escalated.2.2 }

def enforcePass (state : State) (processes : List GPUProcess) (signals : Signals) : TickResult :=
  tick.escalate state (tick.judge grace state processes signals)

def escalateTerminationsWithoutSample (state : State) (signals : Signals) : TickResult :=
  tick.escalate state { signals := signals }

/-- A tick whose snapshot of the store fails does nothing. -/
def monitorOnce (signals : Signals) : TickResult :=
  match tick.snapshot with
  | .error _ => { signals := signals }
  | .ok state =>
    match tick.sample with
    | .error _ => escalateTerminationsWithoutSample tick state signals
    | .ok processes => enforcePass grace tick state processes signals

/-- The daemon's ticks, one after the other. -/
def monitor (ticks : List Tick) (signals : Signals) : Signals :=
  ticks.foldl (fun signals tick => (monitorOnce grace tick signals).signals) signals

end Pass

section Accounting

variable [Unicode] {grace : Duration} (tick : Tick)

theorem Tick.evict_sound (state : State) (processes : List GPUProcess) (signals : Signals) :
    (tick.authorizer.evictExpiredReservedProcesses signals.awaiting state processes
      tick.evictAt).plan.Sound signals.awaiting :=
  Authorizer.evictExpiredReservedProcesses_sound tick.staged state processes tick.evictAt

theorem Tick.enforce_sound (state : State) (processes : List GPUProcess) (signals : Signals) :
    (tick.authorizer.enforce signals.awaiting state processes tick.enforceAt).Sound
      signals.awaiting :=
  Authorizer.enforce_sound tick.staged state processes tick.enforceAt

theorem Tick.judge_run (state : State) (processes : List GPUProcess)
    (signals : Signals) :
    Relation.ReflTransGen (SignalStep grace) signals
      (tick.judge grace state processes signals).signals :=
  (executePendingKills_run tick.evictKills _ (tick.evict_sound state processes signals).verified
    signals).trans
    (executePendingKills_run tick.enforceKills _ (tick.enforce_sound state _ _).verified _)

theorem Tick.judge_appends (state : State) (processes : List GPUProcess) (signals : Signals) :
    Appends Signal.IsTerminated signals (tick.judge grace state processes signals).signals :=
  (executePendingKills_appends tick.evictKills _ signals).trans
    (executePendingKills_appends tick.enforceKills _ _)

omit [Unicode] in
theorem Tick.escalate_run (state : State) (result : TickResult)
    (h : Accounted grace result.signals) :
    Relation.ReflTransGen (SignalStep grace) result.signals
      (tick.escalate state result).signals :=
  escalateEntries_run tick.escalations tick.ordered _ (stored_entries h)

omit [Unicode] in
theorem Tick.escalate_appends (state : State) (result : TickResult)
    (h : Accounted grace result.signals) :
    Appends (Signal.NotAllowed (allowedKey result.decisions)) result.signals
      (tick.escalate state result).signals := by
  refine escalateEntries_appends tick.escalations _ ?_ result.signals
  intro entry hEntry
  exact (h.entries entry.key entry ((stored_entries h).lookup entry hEntry)).identifies.pid_pos

theorem monitorOnce_run {signals : Signals} (h : Accounted grace signals) :
    Relation.ReflTransGen (SignalStep grace) signals (monitorOnce grace tick signals).signals := by
  unfold monitorOnce
  split
  · exact .refl
  · rename_i state _
    split
    · exact tick.escalate_run state { signals := signals } h
    · rename_i processes _
      have hJudge : Relation.ReflTransGen (SignalStep grace) signals _ :=
        tick.judge_run state processes signals
      exact hJudge.trans (tick.escalate_run state _ (h.run hJudge))

theorem monitorOnce_appends {signals : Signals}
    (h : Accounted grace signals) :
    Appends (Signal.NotAllowed (allowedKey (monitorOnce grace tick signals).decisions)) signals
      (monitorOnce grace tick signals).signals := by
  unfold monitorOnce
  split
  · exact .refl _
  · rename_i state _
    split
    · exact tick.escalate_appends state { signals := signals } h
    · rename_i processes _
      have hJudge : Accounted grace _ := h.run (tick.judge_run state processes signals)
      refine Appends.trans ?_ (tick.escalate_appends state _ hJudge)
      refine (tick.judge_appends state processes signals).mono ?_
      rintro _ ⟨_, _, rfl⟩
      nofun

/-- The invariant holds after any ticks. -/
theorem monitor_accounted (ticks : List Tick) {signals : Signals} (h : Accounted grace signals) :
    Accounted grace (monitor grace ticks signals) := by
  induction ticks generalizing signals with
  | nil => exact h
  | cons tick ticks ih => exact ih (h.run (monitorOnce_run tick h))

/-- What the decisions of a tick report about an identity. -/
def Reports (action : Action) (decisions : List Decision) (key : TerminationKey) : Prop :=
  ∃ decision ∈ decisions, decision.action = action ∧ decision.process.pid = key.pid ∧
    decision.info.startTime = key.startTime

instance (action : Action) (decisions : List Decision) (key : TerminationKey) :
    Decidable (Reports action decisions key) :=
  inferInstanceAs (Decidable (∃ decision ∈ decisions, _))

omit [Unicode] in
theorem allowedKey_of_reports {decisions : List Decision} {key : TerminationKey}
    (hPID : 0 < key.pid) (h : Reports .allow decisions key) : allowedKey decisions key = true := by
  obtain ⟨decision, hDecision, hAction, hKey, hStart⟩ := h
  refine List.any_eq_true.mpr ⟨decision, hDecision, ?_⟩
  simp [hAction, hKey, hStart, hPID]

/-- A SIGKILL has its own SIGTERM, at least a grace period earlier and still on record;
a SIGTERM is followed by at most one successful SIGKILL; and a tick that allows a process,
as it also reports bypassed ones, does not send it SIGKILL. -/
theorem forceKill_has_own_terminate (grace : Duration) (ticks : List Tick) :
    (∀ before key time ok after,
      (monitor grace ticks {}).log = before ++ .forceKill key time ok :: after →
      ∃ earlier sent between, before = earlier ++ .terminated key sent :: between ∧
        sent + grace ≤ time ∧ .removed key ∉ between) ∧
    (∀ first key time second later third,
      (monitor grace ticks {}).log =
        first ++ .forceKill key time true :: (second ++ .forceKill key later true :: third) →
      ∃ sent, .terminated key sent ∈ second) ∧
    ∀ before tick after, ticks = before ++ tick :: after →
      ∃ new, (monitorOnce grace tick (monitor grace before {})).signals.log =
          (monitor grace before {}).log ++ new ∧
        ∀ key, Reports .allow (monitorOnce grace tick (monitor grace before {})).decisions key →
          ∀ time ok, .forceKill key time ok ∉ new := by
  have hRun : Accounted grace (monitor grace ticks {}) :=
    monitor_accounted ticks (Accounted.initial grace)
  refine ⟨?_, ?_, ?_⟩
  · intro before key time ok after hLog
    obtain ⟨earlier, sent, between, hBefore, hSent, hKept, _⟩ :=
      hRun.forced before key time ok after hLog
    exact ⟨earlier, sent, between, hBefore, hSent, hKept⟩
  · intro first key time second later third hLog
    exact hRun.terminated_between hLog
  · rintro before tick after rfl
    have hStart : Accounted grace (monitor grace before {}) :=
      monitor_accounted before (Accounted.initial grace)
    obtain ⟨new, hLog, hNew⟩ := monitorOnce_appends tick hStart
    refine ⟨new, hLog, ?_⟩
    intro key hAllow time ok hKill
    obtain ⟨hDenied, hPID⟩ := hNew _ hKill key time ok rfl
    rw [allowedKey_of_reports hPID hAllow] at hDenied
    cases hDenied

end Accounting

section Samples

open scoped Plain

/-- A reader that knows the given processes. -/
def readerOf (known : List ProcInfo) : ProcReader where
  info pid :=
    match known.find? (·.pid == pid) with
    | some info => .ok info
    | none => .error { gone := true, text := "no such process" }
  «exists» pid := known.any (·.pid == pid)
  info_pid := by
    intro pid info hInfo
    split at hInfo
    · rename_i found hFound
      cases hInfo
      simpa using List.find?_some hFound
    · cases hInfo

/-- An authorizer without a container runtime whose lookups of users fail. -/
def authorizerOf (known : List ProcInfo) : Authorizer where
  proc := some (readerOf known)
  runtime := none
  usernameLookup _ _ := .error "unknown user"
  bootID := "boot"
  dryRun := false
  ctxErr _ := none
  gpuOrder := id
  gpuOrder_perm _ := .refl _

/-- A tick at one instant, in which every signal is delivered; `reread` is what the
escalation reads. -/
def tickAt (time : Time) (state : State) (processes : List GPUProcess) (known : List ProcInfo)
    (reread : Except ReadError ProcInfo) : Tick where
  sample := .ok processes
  snapshot := .ok state
  authorizer := authorizerOf known
  staged := rfl
  evictAt := time
  enforceAt := time
  escalateAt := time
  evictKills _ := { terminatedAt := time, recordedAt := time, ordered := le_rfl }
  enforceKills _ := { terminatedAt := time, recordedAt := time, ordered := le_rfl }
  escalations _ := { read := reread, forceKillAt := time, reread := reread }
  ordered _ := le_rfl

/-- GPU 1 is reserved, and a process that nobody authorized runs there. -/
def reservedGPU : State :=
  { tokens := [{ hash := "b", mode := "reserved" }]
    reservations := [{ id := "r", gpu := 1, tokenHash := "b", holder := "bob", startsAt := 1,
                       expiresAt := 100, active := true }] }

def intruder : ProcInfo := { pid := 7, startTime := 3, uid := 1000 }

def intrusion (time : Time) : Tick :=
  tickAt time reservedGPU [{ gpu := 1, pid := 7, memBytes := 1 }] [intruder] (.ok intruder)

/-- SIGTERM at 10, and SIGKILL at 12 with a grace period of two. -/
theorem forceKill_has_own_terminate_intruder :
    (monitor 2 [intrusion 10, intrusion 11, intrusion 12] {}).log =
        [.terminated ⟨7, 3⟩ 10, .forceKill ⟨7, 3⟩ 12 true] ∧
      ∃ earlier sent between,
        ([.terminated ⟨7, 3⟩ 10] : List Signal) = earlier ++ .terminated ⟨7, 3⟩ sent :: between ∧
          sent + 2 ≤ 12 ∧ .removed ⟨7, 3⟩ ∉ between := by
  have hLog : (monitor 2 [intrusion 10, intrusion 11, intrusion 12] {}).log =
      [.terminated ⟨7, 3⟩ 10, .forceKill ⟨7, 3⟩ 12 true] := by decide +kernel
  exact ⟨hLog, (@forceKill_has_own_terminate ascii 2 _).1 [.terminated ⟨7, 3⟩ 10] ⟨7, 3⟩ 12 true []
    hLog⟩

end Samples

end GPUardian
