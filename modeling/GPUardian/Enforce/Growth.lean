import GPUardian.Enforce.Entitlement

/-! How the plan of an enforcement scan grows. The scan only adds to its plan: the survey
writes about the processes it cannot judge, the scan of a GPU about the processes there that
are not bypassed, and a release about its claim. Nothing else is decided or killed. -/
namespace GPUardian

open GoStrings List

namespace Plan

/-- The pass has tried to kill a process with the PID: it has decided to, or it has found its
kills spent. -/
def Tried (decisions : List Decision) (pid : Int) : Prop :=
  ∃ decision ∈ decisions, decision.process.pid = pid ∧ (decision.action = .kill ∨
    decision.reason = budgetExhausted)

/-- How many of the decisions are kills that had no signal before the pass. -/
def freshKills (awaiting : Int → Nat → Bool) (decisions : List Decision) : Nat :=
  decisions.countP fun decision => decision.action == .kill &&
    !awaiting decision.process.pid decision.info.startTime

/-- What the plan keeps track of goes back to its decisions: the PIDs it has targeted and the
kills it has spent. -/
structure Accounted (awaiting : Int → Nat → Bool) (plan : Plan) : Prop where
  targeted : ∀ pid ∈ plan.targeted, Tried plan.decisions pid
  pending : plan.pending.length ≤ freshKills awaiting plan.decisions

/-- The later plan has everything that the earlier one has, and accounts for the rest. -/
structure Extends (awaiting : Int → Nat → Bool) (before after : Plan) : Prop where
  decisions : before.decisions <+: after.decisions
  pending : before.pending <+: after.pending
  accounted : before.Accounted awaiting → after.Accounted awaiting

variable {awaiting : Int → Nat → Bool} {plan next last : Plan}

theorem Tried.mono {decisions more : List Decision} {pid : Int} (h : Tried decisions pid)
    (hMore : decisions ⊆ more) : Tried more pid := by
  obtain ⟨decision, hMem, hTried⟩ := h
  exact ⟨decision, hMore hMem, hTried⟩

theorem freshKills_append (decisions more : List Decision) :
    freshKills awaiting (decisions ++ more) =
      freshKills awaiting decisions + freshKills awaiting more :=
  countP_append

theorem Accounted.decide (h : plan.Accounted awaiting) (decision : Decision) :
    (plan.decide decision).Accounted awaiting where
  targeted := fun pid hMem => (h.targeted pid hMem).mono (subset_append_left _ _)
  pending := h.pending.trans (by simp [Plan.decide, freshKills_append])

namespace Extends

theorem refl (plan : Plan) : plan.Extends awaiting plan :=
  ⟨prefix_refl _, prefix_refl _, id⟩

theorem trans (h : plan.Extends awaiting next) (h' : next.Extends awaiting last) :
    plan.Extends awaiting last :=
  ⟨h.decisions.trans h'.decisions, h.pending.trans h'.pending, h'.accounted ∘ h.accounted⟩

theorem decide (plan : Plan) (decision : Decision) :
    plan.Extends awaiting (plan.decide decision) :=
  ⟨prefix_append _ _, prefix_refl _, (·.decide decision)⟩

theorem fail (plan : Plan) (texts : List String) : plan.Extends awaiting (plan.fail texts) :=
  ⟨prefix_refl _, prefix_refl _, fun h => { h with }⟩

theorem audit (plan : Plan) (event : AuditEvent) : plan.Extends awaiting (plan.audit event) :=
  ⟨prefix_refl _, prefix_refl _, fun h => { h with }⟩

/-- A loop whose every step adds to the plan adds to it. -/
theorem foldl {α : Type} {step : Plan → α → Plan}
    (hStep : ∀ (plan : Plan) (row : α), plan.Extends awaiting (step plan row)) (rows : List α)
    (plan : Plan) : plan.Extends awaiting (rows.foldl step plan) := by
  induction rows generalizing plan with
  | nil => exact refl plan
  | cons row rows ih => exact (hStep plan row).trans (ih _)

end Extends

end Plan

namespace Authorizer

/-- What a denied process gets. It is killed, at once unless the pass is a dry run or the
process has had its signal from an earlier pass; or it is left for now, because the decisions
before this one have spent the kills of the pass or have tried its PID already. -/
inductive Denied (a : Authorizer) (awaiting : Int → Nat → Bool) (plan : Plan)
    (view : ProcessView) (decision : Decision) : Prop
  | killed (hAction : decision.action = .kill)
      (hAttempt : a.dryRun = true ∨ awaiting view.process.pid view.info.startTime = true ∨
        ∃ request ∈ plan.pending, request.view = view)
  | spent (earlier : List Decision) (hPlace : earlier ++ [decision] <+: plan.decisions)
      (hAction : decision.action = .skip)
      (hReason : decision.reason = budgetExhausted)
      (hLive : a.dryRun = false)
      (hBudget : maxKillsPerEnforcementPass ≤ Plan.freshKills awaiting earlier)
  | targeted (earlier : List Decision) (hPlace : earlier ++ [decision] <+: plan.decisions)
      (hAction : decision.action = .skip)
      (hReason : decision.reason = "pid already targeted by enforcement")
      (hTried : Plan.Tried earlier view.process.pid)

/-- The decision that a verdict leads to. -/
def Settles (a : Authorizer) (awaiting : Int → Nat → Bool) (plan : Plan) (view : ProcessView) :
    Verdict → Decision → Prop
  | .allow allowed, decision => decision = allowed
  | .deny _, decision => a.Denied awaiting plan view decision ∧ About view decision
  | .unresolved (some reason) _, decision => decision = skipDecision view reason
  | .unresolved none _, _ => False

variable {a : Authorizer} {awaiting : Int → Nat → Bool}

variable {plan : Plan} {view : ProcessView} {decision : Decision}

theorem Denied.extend {later : Plan} (h : a.Denied awaiting plan view decision)
    (hLater : plan.Extends awaiting later) : a.Denied awaiting later view decision := by
  cases h with
  | killed hAction hAttempt =>
    refine .killed hAction (hAttempt.imp_right (Or.imp_right ?_))
    rintro ⟨request, hRequest, hView⟩
    exact ⟨request, hLater.pending.subset hRequest, hView⟩
  | spent earlier hPlace hAction hReason hLive hBudget =>
    exact .spent earlier (hPlace.trans hLater.decisions) hAction hReason hLive hBudget
  | targeted earlier hPlace hAction hReason hTried =>
    exact .targeted earlier (hPlace.trans hLater.decisions) hAction hReason hTried

theorem Settles.extend {later : Plan} {verdict : Verdict}
    (h : a.Settles awaiting plan view verdict decision) (hLater : plan.Extends awaiting later) :
    a.Settles awaiting later view verdict decision := by
  match verdict, h with
  | .allow _, h => exact h
  | .deny _, h => exact ⟨h.1.extend hLater, h.2⟩
  | .unresolved (some _) _, h => exact h

theorem killOnce_extends (a : Authorizer) (awaiting : Int → Nat → Bool) (view : ProcessView)
    (report : KillReport) (now : Time) (plan : Plan) :
    plan.Extends awaiting (a.killOnce awaiting view report now plan) := by
  unfold killOnce
  split_ifs with hTargeted
  · exact .decide _ _
  · obtain ⟨decision, requests, audits, hAbout, hStep, hKilled⟩ := a.kill_step awaiting view report
      now { plan with targeted := view.process.pid :: plan.targeted }
    rw [hKilled]
    refine ⟨prefix_append _ _, prefix_append _ _, fun hPlan => ⟨?_, ?_⟩⟩
    · refine forall_mem_cons.mpr ⟨⟨decision, mem_append_right _ mem_cons_self, ?_, ?_⟩,
        fun pid hMem => (hPlan.targeted pid hMem).mono (subset_append_left _ _)⟩
      · rw [hAbout.1]
      · cases hStep with
        | noted hKill => exact .inl hKill
        | asked hKill => exact .inl hKill
        | spent _ hReason => exact .inr hReason
    · rw [length_append, Plan.freshKills_append]
      refine Nat.add_le_add hPlan.pending ?_
      cases hStep with
      | noted => exact Nat.zero_le _
      | asked hKill hFresh => simp [Plan.freshKills, hKill, hAbout.1, hAbout.2, hFresh]
      | spent => exact Nat.zero_le _

/-- Where the plan is accounted for, an attempt to kill a process denies it. -/
theorem killOnce_denied (hPlan : plan.Accounted awaiting) (view : ProcessView)
    (report : KillReport) (now : Time) :
    ∃ decision,
      (a.killOnce awaiting view report now plan).decisions = plan.decisions ++ [decision] ∧
      a.Denied awaiting (a.killOnce awaiting view report now plan) view decision ∧
      About view decision := by
  unfold killOnce
  split_ifs with hTargeted
  · exact ⟨_, rfl, .targeted plan.decisions (prefix_refl _) rfl rfl (hPlan.targeted _ hTargeted),
      rfl, rfl⟩
  · obtain ⟨decision, requests, audits, hAbout, hStep, hKilled⟩ := a.kill_step awaiting view report
      now { plan with targeted := view.process.pid :: plan.targeted }
    rw [hKilled]
    refine ⟨decision, rfl, ?_, hAbout⟩
    cases hStep with
    | noted hKill hDone => exact .killed hKill (hDone.imp_right .inl)
    | asked hKill _ request hView =>
      exact .killed hKill (.inr (.inr ⟨request, mem_append_right _ mem_cons_self, hView⟩))
    | spent hSkip hReason hLive hBudget =>
      exact .spent plan.decisions (prefix_refl _) hSkip hReason hLive (hBudget.trans hPlan.pending)

variable {views : List ProcessView} {next : Plan} {now : Time}

theorem Steps.extends {decides : Decision → Prop} {kills : ProcessView → Prop}
    (h : a.Steps awaiting now decides kills plan next) : plan.Extends awaiting next := by
  induction h with
  | refl => exact .refl plan
  | tail _ hStep ih =>
    refine ih.trans ?_
    cases hStep with
    | decide h => exact .decide _ _
    | fail texts => exact .fail _ _
    | audit event => exact .audit _ _
    | killOnce h report => exact killOnce_extends a awaiting _ report now _

section Loops

variable {site : Site} {judge : Site → ProcessView → Verdict}

theorem judgeViews_extends (views : List ProcessView) (i : Nat) (plan : Plan) :
    plan.Extends awaiting (a.judgeViews awaiting site judge now i views plan) := by
  refine (@judgeViews_steps a awaiting now (fun _ => True) (fun _ => True) views site judge i
    (fun entry _ => ?_) plan).extends
  unfold Verdict.Owes
  split <;> trivial

/-- In a pass that is not cancelled, the scan of a GPU settles every process it judges, in
order, if no verdict ends the scan. -/
theorem judgeViews_settles (hRunning : a.Running)
    (awaiting : Int → Nat → Bool) (site : Site) (now : Time) (views : List ProcessView)
    (hJudge : ∀ view ∈ views, ∀ site errors, judge site view ≠ .unresolved none errors) (i : Nat)
    {plan : Plan} (hPlan : plan.Accounted awaiting) :
    ∃ block, (a.judgeViews awaiting site judge now i views plan).decisions =
        plan.decisions ++ block ∧
      List.Forall₂ (fun entry decision =>
        a.Settles awaiting (a.judgeViews awaiting site judge now i views plan) entry.1
          (judge (site ++ [entry.2]) entry.1) decision) (judged views i) block := by
  induction views generalizing i plan with
  | nil => exact ⟨[], (append_nil _).symm, .nil⟩
  | cons view views ih =>
    have hRestJudge : ∀ view ∈ views, ∀ site errors, judge site view ≠ .unresolved none errors :=
      fun other hOther => hJudge other (mem_cons_of_mem _ hOther)
    simp only [judgeViews, hRunning, judged, zipIdx_cons]
    by_cases hBypassed : view.bypassed = true
    · rw [filter_cons_of_neg (by simp [hBypassed])]
      simp only [hBypassed, if_true]
      exact ih hRestJudge (i + 1) hPlan
    · rw [filter_cons_of_pos (by simpa using hBypassed)]
      simp only [if_neg hBypassed]
      -- One decision is written here, and the rest of the loop adds the others to it.
      have hHere : ∀ here : Plan, plan.Extends awaiting here → ∀ decision,
          here.decisions = plan.decisions ++ [decision] →
          a.Settles awaiting here view (judge (site ++ [i]) view) decision →
          ∃ block, (a.judgeViews awaiting site judge now (i + 1) views here).decisions =
              plan.decisions ++ block ∧
            List.Forall₂ (fun entry decision => a.Settles awaiting
              (a.judgeViews awaiting site judge now (i + 1) views here) entry.1
              (judge (site ++ [entry.2]) entry.1) decision)
              ((view, i) :: judged views (i + 1)) block := by
        intro here hExtends decision hDecisions hSettles
        obtain ⟨block, hBlock, hRest⟩ := ih hRestJudge (i + 1) (hExtends.accounted hPlan)
        refine ⟨decision :: block, ?_, .cons (hSettles.extend (judgeViews_extends _ _ _)) hRest⟩
        rw [hBlock, hDecisions, append_assoc, singleton_append]
      cases hVerdict : judge (site ++ [i]) view with
      | allow allowed => exact hHere _ (.decide _ _) allowed rfl (by rw [hVerdict]; rfl)
      | deny report =>
        obtain ⟨decision, hDecisions, hDenied⟩ := killOnce_denied hPlan view report now
        exact hHere _ (killOnce_extends _ _ _ _ _ _) decision hDecisions
          (by rw [hVerdict]; exact hDenied)
      | unresolved skipReason errors =>
        cases skipReason with
        | none => exact absurd hVerdict (hJudge view mem_cons_self _ _)
        | some reason =>
          exact hHere _ ((Plan.Extends.decide _ _).trans (.fail _ _)) (skipDecision view reason) rfl
            (by rw [hVerdict]; rfl)

end Loops

section Scan

/-- Where the scan of a GPU makes its lookups. -/
def gpuSite (a : Authorizer) (state : State) (now : Time) (processes : List GPUProcess)
    (gpu : Int) : Site :=
  [1, (a.gpuOrder
    ((processes.filterMap (a.viewOf state now)).map (·.process.gpu)).dedup).idxOf gpu]

variable {state : State} {gpu : Int}

/-- The survey kills nothing. -/
theorem surveySample_untargeted {processes : List GPUProcess} {i : Nat} {read : List ProcessView}
    (h : a.surveySample state now i processes plan read = .ok (next, views)) :
    next.targeted = plan.targeted ∧ next.pending = plan.pending := by
  induction processes generalizing i plan read with
  | nil => cases h; exact ⟨rfl, rfl⟩
  | cons process processes ih =>
    unfold surveySample at h
    dsimp only at h
    repeat' split at h
    all_goals
      first
      | cases h
      | have hRest := ih h
        exact hRest

theorem surveySample_running (hRunning : a.Running) (state : State) (now : Time)
    (processes : List GPUProcess) :
    ∃ surveyed, a.surveySample state now 0 processes {} [] =
        .ok (surveyed, processes.filterMap (a.viewOf state now)) ∧
      AllowsBypassed (processes.filterMap (a.viewOf state now)) surveyed := by
  have hResult := surveySample_result (P := fun _ => True) (a := a) state now processes (by simp) 0
    {} [] (allowsBypassed_nil _)
  rw [nil_append] at hResult
  generalize a.surveySample state now 0 processes {} [] = result at hResult
  cases hResult with
  | cancelled _ hSite =>
    obtain ⟨site, hSite⟩ := hSite
    exact absurd (hRunning site) hSite
  | read _ hBypassed => exact ⟨_, rfl, hBypassed⟩

variable [Unicode]

theorem enforceGPUs_extends (hRunning : a.Running)
    (awaiting : Int → Nat → Bool) (state : State) (views : List ProcessView) (now : Time)
    (gpus : List Int) (i : Nat) (plan : Plan) :
    ∃ last, a.enforceGPUs awaiting state views now i gpus plan = .ok last ∧
      plan.Extends awaiting last := by
  induction gpus generalizing i plan with
  | nil => exact ⟨plan, rfl, .refl plan⟩
  | cons gpu gpus ih =>
    simp only [enforceGPUs, hRunning]
    obtain ⟨last, hLast, hExtends⟩ := ih (i + 1)
      (a.enforceGPU awaiting [1, i] state gpu (viewsOnGPU views gpu) now plan)
    exact ⟨last, hLast, (enforceGPU_scans plan).extends.trans hExtends⟩

/-- The loop over the GPUs comes to each of them with some plan and keeps what the scan of
the GPU adds to it. -/
theorem enforceGPUs_visits (hRunning : a.Running) (awaiting : Int → Nat → Bool)
    (state : State) (views : List ProcessView) (now : Time) {gpus : List Int} {k : Nat}
    (hGPU : gpus[k]? = some gpu) (i : Nat) {plan : Plan} (hPlan : plan.Accounted awaiting) :
    ∃ before last, before.Accounted awaiting ∧
      a.enforceGPUs awaiting state views now i gpus plan = .ok last ∧
      (a.enforceGPU awaiting [1, i + k] state gpu (viewsOnGPU views gpu) now before).Extends
        awaiting last := by
  induction gpus generalizing k i plan with
  | nil => cases hGPU
  | cons first gpus ih =>
    simp only [enforceGPUs, hRunning]
    cases k with
    | zero =>
      obtain rfl : first = gpu := by simpa using hGPU
      obtain ⟨last, hLast, hExtends⟩ := enforceGPUs_extends hRunning awaiting state
        views now gpus (i + 1)
        (a.enforceGPU awaiting [1, i] state first (viewsOnGPU views first) now plan)
      exact ⟨plan, last, hPlan, hLast, hExtends⟩
    | succ k =>
      obtain ⟨before, last, hBefore, hLast, hExtends⟩ := @ih k (by simpa using hGPU) (i + 1)
        (a.enforceGPU awaiting [1, i] state first (viewsOnGPU views first) now plan)
        ((enforceGPU_scans plan).extends.accounted hPlan)
      refine ⟨before, last, hBefore, hLast, ?_⟩
      rwa [Nat.add_assoc, Nat.add_comm 1 k] at hExtends

theorem releaseClaims_extends (awaiting : Int → Nat → Bool) (claims : List SoftClaim) (i : Nat)
    (plan : Plan) :
    plan.Extends awaiting (a.releaseClaims state views now i claims plan) :=
  (@releaseClaims_scans a awaiting now views (fun _ => True) state _ claims i
    (fun _ _ _ _ => trivial) plan).extends

/-- A pass that is not cancelled surveys the sample, scans the GPUs and then releases claims. -/
theorem enforce_running (hRunning : a.Running) (awaiting : Int → Nat → Bool) (state : State)
    (now : Time) (processes : List GPUProcess) :
    ∃ surveyed last, AllowsBypassed (processes.filterMap (a.viewOf state now)) surveyed ∧
      surveyed.Extends awaiting last ∧ a.enforce awaiting state processes now =
        a.releaseClaims state (processes.filterMap (a.viewOf state now)) now 0 state.softClaims
          last := by
  obtain ⟨surveyed, hSurvey, hAllows⟩ := surveySample_running hRunning state now processes
  obtain ⟨last, hLast, hExtends⟩ := enforceGPUs_extends hRunning awaiting state
    (processes.filterMap (a.viewOf state now)) now
    (a.gpuOrder ((processes.filterMap (a.viewOf state now)).map (·.process.gpu)).dedup) 0 surveyed
  refine ⟨surveyed, last, hAllows, hExtends, ?_⟩
  simp only [enforce, hSurvey, hLast]

/-- In a pass that is not cancelled, what the scan of a GPU adds to its plan is in the plan
of the whole pass. -/
theorem enforce_visits (hRunning : a.Running) (awaiting : Int → Nat → Bool)
    (state : State) (now : Time) (processes : List GPUProcess)
    (hGPU : a.sampledViews state now processes gpu ≠ []) :
    ∃ before, before.Accounted awaiting ∧
      (a.enforceGPU awaiting (a.gpuSite state now processes gpu) state gpu
        (a.sampledViews state now processes gpu) now before).Extends awaiting
        (a.enforce awaiting state processes now) := by
  obtain ⟨surveyed, hSurvey, _⟩ := surveySample_running hRunning state now processes
  obtain ⟨view, hView⟩ := exists_mem_of_ne_nil _ hGPU
  obtain ⟨hSampled, hHere⟩ := mem_filter.mp hView
  have hListed : gpu ∈ a.gpuOrder
      ((processes.filterMap (a.viewOf state now)).map (·.process.gpu)).dedup := by
    rw [(a.gpuOrder_perm _).mem_iff, mem_dedup]
    exact mem_map.mpr ⟨view, hSampled, by simpa using hHere⟩
  have hSurveyed : surveyed.Accounted awaiting := by
    obtain ⟨hTargeted, hPending⟩ := surveySample_untargeted hSurvey
    exact ⟨by simp [hTargeted], by simp [hPending]⟩
  obtain ⟨before, last, hBefore, hLast, hExtends⟩ := enforceGPUs_visits hRunning awaiting state
    (processes.filterMap (a.viewOf state now)) now (getElem?_idxOf hListed) 0 hSurveyed
  refine ⟨before, hBefore, ?_⟩
  simp only [enforce, hSurvey, hLast]
  rw [Nat.zero_add] at hExtends
  exact hExtends.trans (releaseClaims_extends _ _ _ _)

end Scan

end Authorizer

end GPUardian
