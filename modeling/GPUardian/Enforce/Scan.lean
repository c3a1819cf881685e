import GPUardian.Enforce.Enforce
import Mathlib.Logic.Relation

/-! What an enforcement scan does to its plan. It writes decisions, errors and audits and asks for
kills, and everything that it decides comes from the survey of the sample, from the scan of a GPU or
from the release of a claim. What is kept by each of these steps is kept by the scan. -/
namespace GPUardian

open GoStrings List Relation

namespace Authorizer

/-- A scan writes a decision, an error or an audit, or has a process killed. -/
inductive Step (a : Authorizer) (awaiting : Int → Nat → Bool) (now : Time)
    (decides : Decision → Prop) (kills : ProcessView → Prop) : Plan → Plan → Prop
  | decide (plan : Plan) {decision : Decision} (h : decides decision) :
      Step a awaiting now decides kills plan (plan.decide decision)
  | fail (plan : Plan) (texts : List String) :
      Step a awaiting now decides kills plan (plan.fail texts)
  | audit (plan : Plan) (event : AuditEvent) :
      Step a awaiting now decides kills plan (plan.audit event)
  | killOnce (plan : Plan) {view : ProcessView} (h : kills view) (report : KillReport) :
      Step a awaiting now decides kills plan (a.killOnce awaiting view report now plan)

abbrev Steps (a : Authorizer) (awaiting : Int → Nat → Bool) (now : Time)
    (decides : Decision → Prop) (kills : ProcessView → Prop) : Plan → Plan → Prop :=
  ReflTransGen (a.Step awaiting now decides kills)

variable {a : Authorizer} {awaiting : Int → Nat → Bool} {now : Time} {decides : Decision → Prop}
  {kills : ProcessView → Prop} {plan next last : Plan} {view : ProcessView} {decision : Decision}
  {views : List ProcessView} {site : Site} {P : Decision → Prop}

theorem Steps.foldl {α : Type} {step : Plan → α → Plan} {rows : List α}
    (hStep : ∀ plan, ∀ row ∈ rows, a.Steps awaiting now decides kills plan (step plan row))
    (plan : Plan) : a.Steps awaiting now decides kills plan (rows.foldl step plan) :=
  (Interleaving.foldl_relates (I := fun _ => True) (fun _ => .refl) (fun _ _ _ => .trans)
    (fun plan row hRow _ => ⟨hStep plan row hRow, trivial⟩) trivial).1

/-- The planner keeps its promise about kills if it decides on none but those that it asks for. -/
theorem Steps.sound (h : a.Steps awaiting now decides kills plan next) (hDry : a.dryRun = false)
    (hDecides : ∀ decision, decides decision → decision.action ≠ .kill)
    (hKills : ∀ view, kills view → view.Verified) (hPlan : plan.Sound awaiting) :
    next.Sound awaiting := by
  induction h with
  | refl => exact hPlan
  | tail _ hStep ih =>
    cases hStep with
    | decide h => exact ih.decide (hDecides _ h)
    | fail texts => exact ih.fail texts
    | audit event => exact ih.audit event
    | killOnce h report => exact ih.killOnce hDry (hKills _ h) report now

section Loops

/-- The processes that a scan of a GPU judges, with their places. -/
def judged (views : List ProcessView) (i : Nat) : List (ProcessView × Nat) :=
  (views.zipIdx i).filter (!·.1.bypassed)

theorem mem_judged_cons {i : Nat} {entry : ProcessView × Nat} (h : entry ∈ judged views (i + 1)) :
    entry ∈ judged (view :: views) i := by
  rw [judged, zipIdx_cons]
  exact mem_filter.mpr ⟨mem_cons_of_mem _ (mem_filter.mp h).1,
    (mem_filter.mp h).2⟩

theorem mem_judged_head (h : ¬ view.bypassed = true) (views : List ProcessView) (i : Nat) :
    (view, i) ∈ judged (view :: views) i := by
  rw [judged, zipIdx_cons]
  exact mem_filter.mpr ⟨mem_cons_self, by simpa using h⟩

theorem exists_entry (h : view ∈ views) (hOpen : view.bypassed = false) (i : Nat) :
    ∃ entry ∈ judged views i, entry.1 = view := by
  obtain ⟨j, hj⟩ := getElem?_of_mem h
  refine ⟨(view, i + j), mem_filter.mpr ⟨?_, by simpa using hOpen⟩, rfl⟩
  exact mem_zipIdx_iff_le_and_getElem?_sub.mpr ⟨by simp, by simpa using hj⟩

/-- The process of an entry is in the sample and not bypassed. -/
theorem open_of_judged {entry : ProcessView × Nat} (h : entry ∈ judged views 0) :
    entry.1 ∈ views ∧ entry.1.bypassed = false := by
  obtain ⟨hMem, hOpen⟩ := mem_filter.mp h
  exact ⟨fst_mem_of_mem_zipIdx hMem, by simpa using hOpen⟩

/-- What a verdict has a scan do. -/
def Verdict.Owes (decides : Decision → Prop) (kills : ProcessView → Prop) (view : ProcessView) :
    Verdict → Prop
  | .allow decision => decides decision
  | .deny _ => kills view
  | .unresolved (some reason) _ => decides (skipDecision view reason)
  | .unresolved none _ => True

theorem judgeViews_steps {judge : Site → ProcessView → Verdict} (i : Nat)
    (hJudge : ∀ entry ∈ judged views i,
      Verdict.Owes decides kills entry.1 (judge (site ++ [entry.2]) entry.1)) (plan : Plan) :
    a.Steps awaiting now decides kills plan (a.judgeViews awaiting site judge now i views plan) := by
  induction views generalizing i plan with
  | nil => exact .refl
  | cons view views ih =>
    have hRest := ih (i + 1) fun entry hEntry => hJudge entry (mem_judged_cons hEntry)
    unfold judgeViews
    split
    · exact .single (.fail _ _)
    · split
      · exact hRest plan
      · rename_i hBypassed
        have hHere := hJudge (view, i) (mem_judged_head hBypassed views i)
        dsimp only at hHere
        split
        · rename_i hVerdict
          rw [hVerdict] at hHere
          exact .head (.decide _ hHere) (hRest _)
        · rename_i hVerdict
          rw [hVerdict] at hHere
          exact .head (.killOnce _ hHere _) (hRest _)
        · rename_i hVerdict
          rw [hVerdict] at hHere
          exact .head (.decide _ hHere) (.head (.fail _ _) (hRest _))
        · exact .single (.fail _ _)

end Loops

section Sources

/-- Whether the process is killed or skipped, the decision is of the kind. -/
def Denies (P : Decision → Prop) (view : ProcessView) : Prop :=
  ∀ decision, About view decision → decision.action = .kill ∨ decision.action = .skip → P decision

/-- The later plan has grown by decisions of a kind, and every kill that it has to carry out
was decided among them. -/
def Grew (P : Decision → Prop) (before after : Plan) : Prop :=
  ∃ block requests, after.decisions = before.decisions ++ block ∧
    after.pending = before.pending ++ requests ∧ (∀ decision ∈ block, P decision) ∧
    ∀ request ∈ requests, ∃ decision ∈ block, decision.action = .kill ∧ About request.view decision

namespace Grew

theorem refl (P : Decision → Prop) (plan : Plan) : Grew P plan plan :=
  ⟨[], [], by simp, by simp, by simp, by simp⟩

theorem trans (h : Grew P plan next) (h' : Grew P next last) : Grew P plan last := by
  obtain ⟨block, requests, hDecisions, hPending, hBlock, hRequests⟩ := h
  obtain ⟨more, others, hDecisions', hPending', hMore, hOthers⟩ := h'
  refine ⟨block ++ more, requests ++ others, by simp [hDecisions', hDecisions],
    by simp [hPending', hPending], ?_, ?_⟩
  · intro decision hDecision
    rcases mem_append.mp hDecision with hOld | hNew
    · exact hBlock decision hOld
    · exact hMore decision hNew
  · intro request hRequest
    rcases mem_append.mp hRequest with hOld | hNew
    · obtain ⟨decision, hMem, hKill⟩ := hRequests request hOld
      exact ⟨decision, mem_append_left _ hMem, hKill⟩
    · obtain ⟨decision, hMem, hKill⟩ := hOthers request hNew
      exact ⟨decision, mem_append_right _ hMem, hKill⟩

theorem decide (plan : Plan) (h : P decision) : Grew P plan (plan.decide decision) :=
  ⟨[decision], [], rfl, by simp [Plan.decide], by simpa using h, by simp⟩

/-- A process that is to be killed is killed or skipped. -/
theorem killOnce (h : Denies P view) (report : KillReport) (now : Time) (plan : Plan) :
    Grew P plan (a.killOnce awaiting view report now plan) := by
  unfold Authorizer.killOnce
  split
  · exact decide plan (h _ ⟨rfl, rfl⟩ (.inr rfl))
  obtain ⟨decision, requests, audits, hAbout, hStep, hPlan⟩ := a.kill_step awaiting view report now
    { plan with targeted := view.process.pid :: plan.targeted }
  rw [hPlan]
  refine ⟨[decision], requests, rfl, rfl, forall_mem_singleton.mpr (h decision hAbout ?_), ?_⟩
  all_goals cases hStep with
  | noted hKill => first | exact .inl hKill | exact fun _ hNone => absurd hNone not_mem_nil
  | asked hKill hFresh request hView =>
    first
    | exact .inl hKill
    | exact forall_mem_singleton.mpr ⟨decision, mem_singleton.mpr rfl, hKill, hView ▸ hAbout⟩
  | spent hSkip => first | exact .inr hSkip | exact fun _ hNone => absurd hNone not_mem_nil

theorem imp {Q : Decision → Prop} (hImp : ∀ decision, P decision → Q decision) (h : Grew P plan next) :
    Grew Q plan next := by
  obtain ⟨block, requests, hDecisions, hPending, hBlock, hRequests⟩ := h
  exact ⟨block, requests, hDecisions, hPending,
    fun decision hMem => hImp decision (hBlock decision hMem), hRequests⟩

theorem and {Q : Decision → Prop} (h : Grew P plan next) (h' : Grew Q plan next) :
    Grew (fun decision => P decision ∧ Q decision) plan next := by
  obtain ⟨block, requests, hDecisions, hPending, hBlock, hRequests⟩ := h
  obtain ⟨same, _, hSame, _, hOther, _⟩ := h'
  obtain rfl : block = same := append_cancel_left (hDecisions.symm.trans hSame)
  exact ⟨block, requests, hDecisions, hPending,
    fun decision hMem => ⟨hBlock decision hMem, hOther decision hMem⟩, hRequests⟩

/-- A plan that grew without kills keeps its promise about them. -/
theorem sound (h : Grew P plan next) (hP : ∀ decision, P decision → decision.action ≠ .kill)
    (hPlan : plan.Sound awaiting) : next.Sound awaiting := by
  obtain ⟨block, requests, hDecisions, hPending, hBlock, hRequests⟩ := h
  have hNone : requests = [] := eq_nil_iff_forall_not_mem.mpr fun request hMem => by
    obtain ⟨decision, hDecision, hKill, _⟩ := hRequests request hMem
    exact hP decision (hBlock decision hDecision) hKill
  rw [hNone, append_nil] at hPending
  refine ⟨hPending ▸ hPlan.verified, hPending ▸ hPlan.fresh, fun decision hMem hKill => ?_⟩
  rw [hDecisions, mem_append] at hMem
  rw [hPending]
  rcases hMem with hOld | hNew
  · exact hPlan.decided decision hOld hKill
  · exact absurd hKill (hP decision (hBlock decision hNew))

/-- All decisions of a plan that grew from nothing are of the kind. -/
theorem decided (h : Grew P {} plan) : ∀ decision ∈ plan.decisions, P decision := by
  obtain ⟨block, _, hDecisions, _, hBlock, _⟩ := h
  rw [show plan.decisions = block from hDecisions]
  exact hBlock

/-- Every kill of such a plan was decided. -/
theorem requested (h : Grew P {} plan) : ∀ request ∈ plan.pending,
    ∃ decision ∈ plan.decisions, decision.action = .kill ∧ About request.view decision := by
  obtain ⟨block, requests, hDecisions, hPending, _, hRequests⟩ := h
  rw [show plan.decisions = block from hDecisions, show plan.pending = requests from hPending]
  exact hRequests

end Grew

/-- A scan in which everything that is decided is of a kind. -/
abbrev Scans (a : Authorizer) (awaiting : Int → Nat → Bool) (now : Time) (P : Decision → Prop) :
    Plan → Plan → Prop :=
  a.Steps awaiting now (fun decision => P decision ∧ decision.action ≠ .kill) (Denies P)

theorem Scans.grew (h : a.Scans awaiting now P plan next) : Grew P plan next := by
  induction h with
  | refl => exact .refl P plan
  | tail _ hStep ih =>
    refine ih.trans ?_
    cases hStep with
    | decide h => exact .decide _ h.1
    | fail texts => exact .refl P _
    | audit event => exact .refl P _
    | killOnce h report => exact .killOnce h report now _

/-- A decision that a verdict about a process may lead to. -/
def Verdict.Leads (view : ProcessView) : Verdict → Decision → Prop
  | .allow allowed, decision => decision = allowed
  | .deny _, decision =>
    About view decision ∧ (decision.action = .kill ∨ decision.action = .skip)
  | .unresolved (some reason) _, decision => decision = skipDecision view reason
  | .unresolved none _, _ => False

/-- A process is allowed by a decision about itself. -/
def Verdict.Allows (view : ProcessView) (verdict : Verdict) : Prop :=
  ∀ decision, verdict = .allow decision → About view decision ∧ decision.action = .allow

theorem Verdict.owes {verdict : Verdict} (hAllows : Verdict.Allows view verdict)
    (h : ∀ decision, Verdict.Leads view verdict decision → P decision) :
    Verdict.Owes (fun decision => P decision ∧ decision.action ≠ .kill) (Denies P) view verdict := by
  match verdict with
  | .allow allowed => exact ⟨h allowed rfl, by rw [(hAllows allowed rfl).2]; nofun⟩
  | .deny _ => exact fun decision hAbout hAction => h decision ⟨hAbout, hAction⟩
  | .unresolved (some _) _ => exact ⟨h _ rfl, nofun⟩
  | .unresolved none _ => trivial

end Sources

section Scan

/-- The view of a sampled process, if it uses the GPU and can be read. -/
def viewOf (a : Authorizer) (state : State) (now : Time) (process : GPUProcess) :
    Option ProcessView :=
  if usesGPUResources process then
    a.proc.bind fun reader => (reader.info process.pid).toOption.map fun info =>
      { process := process, info := info, bypassed := bypassMatch state.bypasses info now a.bootID }
  else none

/-- The processes of a sample that are judged on a GPU or bypassed there. -/
def sampledViews (a : Authorizer) (state : State) (now : Time) (processes : List GPUProcess)
    (gpu : Int) : List ProcessView :=
  viewsOnGPU (processes.filterMap (a.viewOf state now)) gpu

variable {state : State}

theorem viewOf_some {process : GPUProcess} (h : a.viewOf state now process = some view) :
    view.process = process ∧
      ∃ reader, a.proc = some reader ∧ reader.info process.pid = .ok view.info := by
  unfold viewOf at h
  split at h
  · obtain ⟨reader, hProc, hRead⟩ := Option.bind_eq_some_iff.mp h
    obtain ⟨info, hInfo, rfl⟩ := Option.map_eq_some_iff.mp hRead
    refine ⟨rfl, reader, hProc, ?_⟩
    cases hResult : reader.info process.pid with
    | error err => simp [hResult, Except.toOption] at hInfo
    | ok found => simpa [hResult, Except.toOption] using hInfo
  · cases h

variable {gpu : Int}

theorem mem_sampledViews {processes : List GPUProcess}
    (h : view ∈ a.sampledViews state now processes gpu) :
    a.viewOf state now view.process = some view ∧ view.process.gpu = gpu := by
  obtain ⟨hSampled, hGPU⟩ := mem_filter.mp h
  obtain ⟨process, _, hView⟩ := mem_filterMap.mp hSampled
  exact ⟨(viewOf_some hView).1 ▸ hView, by simpa using hGPU⟩

/-- What the survey may write about a sampled process. -/
def Surveys (a : Authorizer) (state : State) (now : Time) (process : GPUProcess)
    (decision : Decision) : Prop :=
  (a.viewOf state now process = none ∧
      ∃ reason, decision = { process := process, action := .skip, reason := reason }) ∨
    ∃ info, a.viewOf state now process =
        some { process := process, info := info, bypassed := true } ∧
      decision = { process := process, info := info, action := .allow, reason := "bypass" }

/-- Where a bypassed process is in the views, its decision is in the plan. -/
def AllowsBypassed (views : List ProcessView) (plan : Plan) : Prop :=
  ∀ view ∈ views, view.bypassed = true →
    ∃ decision ∈ plan.decisions, About view decision ∧ decision.action = .allow

theorem Grew.mem (h : Grew P plan next) (hMem : decision ∈ plan.decisions) :
    decision ∈ next.decisions := by
  obtain ⟨block, _, hDecisions, _⟩ := h
  rw [hDecisions]
  exact mem_append_left _ hMem

/-- How a survey ends: early, which only a cancelled pass does, or with all views. -/
inductive SurveyResult (a : Authorizer) (P : Decision → Prop) (plan : Plan)
    (views : List ProcessView) : Except Plan (Plan × List ProcessView) → Prop
  | cancelled {last : Plan} (hGrew : Grew P plan last) (hSite : ∃ site, a.ctxErr site ≠ none) :
      SurveyResult a P plan views (.error last)
  | read {last : Plan} (hGrew : Grew P plan last) (hBypassed : AllowsBypassed views last) :
      SurveyResult a P plan views (.ok (last, views))

theorem SurveyResult.after {result : Except Plan (Plan × List ProcessView)}
    (hNext : Grew P plan next) (h : SurveyResult a P next views result) :
    SurveyResult a P plan views result := by
  cases h with
  | cancelled hGrew hSite => exact .cancelled (hNext.trans hGrew) hSite
  | read hGrew hBypassed => exact .read (hNext.trans hGrew) hBypassed

theorem AllowsBypassed.grow (h : AllowsBypassed views plan) (hNext : Grew P plan next) :
    AllowsBypassed views next := by
  intro view hView hBypassed
  obtain ⟨decision, hMem, hAllow⟩ := h view hView hBypassed
  exact ⟨decision, hNext.mem hMem, hAllow⟩

/-- The survey has a view of every process that uses its GPU and can be read. -/
theorem surveySample_result (state : State) (now : Time) (processes : List GPUProcess)
    (hP : ∀ process ∈ processes, ∀ decision, a.Surveys state now process decision → P decision)
    (i : Nat) (plan : Plan) (views : List ProcessView) (hViews : AllowsBypassed views plan) :
    SurveyResult a P plan (views ++ processes.filterMap (a.viewOf state now))
      (a.surveySample state now i processes plan views) := by
  induction processes generalizing i plan views with
  | nil => simpa [surveySample] using SurveyResult.read (a := a) (.refl P plan) hViews
  | cons process processes ih =>
    have hRest := ih fun other hOther => hP other (mem_cons_of_mem _ hOther)
    have hHere := hP process mem_cons_self
    -- A process without a view is skipped, and the survey goes on with the others.
    have hSkipped : ∀ reason, a.viewOf state now process = none →
        SurveyResult a P plan (views ++ (process :: processes).filterMap (a.viewOf state now))
          (a.surveySample state now (i + 1) processes
            (plan.decide { process := process, action := .skip, reason := reason }) views) := by
      intro reason hNone
      have hGrew := Grew.decide plan (hHere _ (.inl ⟨hNone, reason, rfl⟩))
      rw [filterMap_cons_none hNone]
      exact .after hGrew (hRest (i + 1) _ views (hViews.grow hGrew))
    unfold surveySample
    split
    · rename_i text hText
      exact .cancelled (.refl P plan) ⟨_, by rw [hText]; simp⟩
    · dsimp only
      split
      · rename_i hUses
        have hUses : usesGPUResources process = false := by simpa using hUses
        exact hSkipped _ (by simp [viewOf, hUses])
      · rename_i hUses
        have hUses : usesGPUResources process = true := by simpa using hUses
        split
        · rename_i hProc
          exact hSkipped _ (by simp [viewOf, hProc])
        · rename_i reader hProc
          split
          · rename_i err hInfo
            exact hSkipped _ (by simp [viewOf, hProc, hInfo, Except.toOption])
          · rename_i info hInfo
            have hView : a.viewOf state now process = some
                { process := process, info := info
                  bypassed := bypassMatch state.bypasses info now a.bootID } := by
              simp [viewOf, hUses, hProc, hInfo, Except.toOption]
            rw [filterMap_cons_some hView, ← singleton_append, ← append_assoc]
            split
            · rename_i hBypass
              rw [hBypass] at hView ⊢
              have hGrew := Grew.decide plan (hHere _ (.inr ⟨info, hView, rfl⟩))
              refine .after hGrew (hRest (i + 1) _ _ (forall_mem_concat.mpr ⟨hViews.grow hGrew, fun _ => ?_⟩))
              exact ⟨_, mem_append_right _ mem_cons_self, ⟨rfl, rfl⟩, rfl⟩
            · rename_i hBypass
              rw [Bool.eq_false_iff.mpr hBypass]
              exact hRest (i + 1) _ _ (forall_mem_concat.mpr ⟨hViews, nofun⟩)

theorem allowsBypassed_nil (plan : Plan) : AllowsBypassed [] plan :=
  fun _ hMem => absurd hMem not_mem_nil

theorem releaseClaims_scans [Unicode] {claims : List SoftClaim} (i : Nat)
    (hP : ∀ k claim, claims[k]? = some claim →
      a.claimHasMatchingProcess [2, i + k] state claim (viewsOnGPU views claim.gpu) now =
        .ok false →
      P { action := .releaseClaim, claimID := claim.id
          reason := "claimed GPU has no matching process" }) (plan : Plan) :
    a.Scans awaiting now P plan (a.releaseClaims state views now i claims plan) := by
  induction claims generalizing i plan with
  | nil => exact .refl
  | cons claim claims ih =>
    have hRest := ih (i + 1) fun k other hOther hAbsent =>
      hP (k + 1) other (by simpa using hOther) (by rwa [Nat.add_assoc, Nat.add_comm 1 k] at hAbsent)
    unfold releaseClaims
    split
    · exact .single (.fail _ _)
    · split
      · exact .head (.fail _ _) (hRest _)
      · exact hRest _
      · rename_i hAbsent
        exact .head (.decide _ ⟨hP 0 claim rfl hAbsent, nofun⟩) (.head (.audit _ _) (hRest _))

/-- What the scan of each GPU keeps, the loop over the GPUs keeps. -/
theorem enforceGPUs_keeps [Unicode] {I : Plan → Prop} {gpus : List Int} (i : Nat)
    (hFail : ∀ plan texts, I plan → I (plan.fail texts))
    (hGPU : ∀ k gpu plan, gpus[k]? = some gpu → I plan →
      I (a.enforceGPU awaiting [1, i + k] state gpu (viewsOnGPU views gpu) now plan)) (h : I plan) :
    Finished I (a.enforceGPUs awaiting state views now i gpus plan) := by
  induction gpus generalizing i plan with
  | nil => exact h
  | cons gpu gpus ih =>
    unfold enforceGPUs
    split
    · exact hFail _ _ h
    · refine ih (i + 1) (fun k other plan hOther => ?_) (hGPU 0 gpu plan rfl h)
      have hNext := hGPU (k + 1) other plan (by simpa using hOther)
      rwa [Nat.add_comm k 1, ← Nat.add_assoc] at hNext

/-- A property of plans that holds after the survey and that the scans of the GPUs and the releases
keep holds of the plan of a pass, cancelled or not. -/
theorem enforce_keeps_all [Unicode] {I : Plan → Prop} {processes : List GPUProcess}
    (hFail : ∀ plan texts, I plan → I (plan.fail texts))
    (hSurvey : ∀ plan, Grew (fun decision => ∃ process ∈ processes,
      a.Surveys state now process decision) {} plan → I plan)
    (hGPU : ∀ k gpu plan, (a.gpuOrder ((processes.filterMap (a.viewOf state now)).map
        (·.process.gpu)).dedup)[k]? = some gpu → I plan →
      I (a.enforceGPU awaiting [1, k] state gpu (a.sampledViews state now processes gpu) now plan))
    (hRelease : ∀ plan, I plan → I (a.releaseClaims state (processes.filterMap (a.viewOf state now))
      now 0 state.softClaims plan)) : I (a.enforce awaiting state processes now) := by
  have hResult := surveySample_result (a := a) (P := fun decision => ∃ process ∈ processes,
    a.Surveys state now process decision) state now processes
    (fun process hMem decision h => ⟨process, hMem, h⟩) 0 {} [] (allowsBypassed_nil _)
  rw [nil_append] at hResult
  unfold enforce
  generalize a.surveySample state now 0 processes {} [] = result at hResult ⊢
  cases hResult with
  | cancelled hGrew _ => exact hSurvey _ hGrew
  | @read last hGrew _ =>
    have hScan := @enforceGPUs_keeps a awaiting now last _ state _ I _ 0 hFail
      (fun k gpu plan => by rw [Nat.zero_add]; exact hGPU k gpu plan) (hSurvey last hGrew)
    dsimp only
    split
    · rename_i early hEarly
      rwa [hEarly] at hScan
    · rename_i scanned hDone
      rw [hDone] at hScan
      exact hRelease scanned hScan

end Scan

section Origins

variable [Unicode]

/-- The scan of a GPU writes one of these. -/
inductive Source (a : Authorizer) (state : State) (gpu : Int) (now : Time) (site : Site)
    (views : List ProcessView) : Decision → Prop
  | hard {entry decision}
      (hReserved : activeReservationsForGPU state.reservations gpu now ≠ [])
      (hEntry : entry ∈ judged views 0)
      (hLeads : Verdict.Leads entry.1 (a.judgeHard state gpu
        (activeReservationsForGPU state.reservations gpu now) now (site ++ [entry.2]) entry.1)
        decision) : Source a state gpu now site views decision
  | lease {entry decision}
      (hFree : activeReservationsForGPU state.reservations gpu now = [])
      (hLeased : activeLeasesForGPU state.leases gpu now ≠ [])
      (hEntry : entry ∈ judged views 0)
      (hLeads : Verdict.Leads entry.1 (a.judgeLegacyLeases gpu
        (activeLeasesForGPU state.leases gpu now) now (site ++ [entry.2]) entry.1) decision) :
      Source a state gpu now site views decision
  | claimed {claim more entry decision}
      (hClaim : activeSoftClaimsForGPU state gpu now = claim :: more) (hEntry : entry ∈ judged views 0)
      (hLeads : Verdict.Leads entry.1 (a.judgeClaimed state gpu claim now
        (site ++ [1] ++ [entry.2]) entry.1) decision) : Source a state gpu now site views decision
  | disappeared {claim more entry}
      (hClaim : activeSoftClaimsForGPU state gpu now = claim :: more)
      (hAbsent : a.claimHasMatchingProcess (site ++ [0]) state claim views now = .ok false)
      (hEntry : entry ∈ judged views 0) :
      Source a state gpu now site views
        (skipDecision entry.1 "claimed runtime disappeared; releasing claim")
  | idle {found entry} (hUnclaimed : activeSoftClaimsForGPU state gpu now = [])
      (hFound : a.claimants (site ++ [2]) state now 0 {} views = .ok found)
      (hNobody : found.authorized = []) (hEntry : entry ∈ judged views 0) :
      Source a state gpu now site views
        (skipDecision entry.1 "gpu has no active claimed authorization")
  | claim {found first more} {decision : Decision}
      (hUnclaimed : activeSoftClaimsForGPU state gpu now = [])
      (hFound : a.claimants (site ++ [2]) state now 0 {} views = .ok found)
      (hFirst : found.authorized = first :: more) (hAction : decision.action = .claim)
      (hClaim : decision.claim = setSoftClaimRuntimeIdentity
        { gpu := gpu, tokenHash := first.2.tokenHash, authorizationID := first.2.id
          holder := first.2.holder, createdAt := now, updatedAt := now } first.2 first.1.info) :
      Source a state gpu now site views decision
  | shares {found first more entry authorization}
      (hUnclaimed : activeSoftClaimsForGPU state gpu now = [])
      (hFound : a.claimants (site ++ [2]) state now 0 {} views = .ok found)
      (hFirst : found.authorized = first :: more) (hEntry : entry ∈ judged views 0)
      (hMatch : a.matchAnyAuthorization (site ++ [2] ++ [entry.2]) state entry.1.info none
        tokenModeClaimed now = .ok (some authorization))
      (hToken : authorization.tokenHash = first.2.tokenHash) :
      Source a state gpu now site views (allowDecision entry.1 "claimed" authorization "")
  | rival {found first more entry answer} {decision : Decision}
      (hUnclaimed : activeSoftClaimsForGPU state gpu now = [])
      (hFound : a.claimants (site ++ [2]) state now 0 {} views = .ok found)
      (hFirst : found.authorized = first :: more) (hEntry : entry ∈ judged views 0)
      (hMatch : a.matchAnyAuthorization (site ++ [2] ++ [entry.2]) state entry.1.info none
        tokenModeClaimed now = .ok answer)
      (hToken : ∀ authorization ∈ answer, authorization.tokenHash ≠ first.2.tokenHash)
      (hAbout : About entry.1 decision)
      (hAction : decision.action = .kill ∨ decision.action = .skip) :
      Source a state gpu now site views decision

variable {state : State} {gpu : Int} {now : Time} {site : Site} {views : List ProcessView}

/-- What the claimants of a GPU were asked. -/
structure Claimants.Asked (a : Authorizer) (site : Site) (state : State) (now : Time)
    (entries : List (ProcessView × Nat)) (found : Claimants) : Prop where
  authorized : ∀ pair ∈ found.authorized, ∃ entry ∈ entries, entry.1 = pair.1 ∧
    a.matchAnyAuthorization (site ++ [entry.2]) state pair.1.info none tokenModeClaimed now =
      .ok (some pair.2)
  unauthorized : ∀ view ∈ found.unauthorized, ∃ entry ∈ entries, entry.1 = view ∧
    a.matchAnyAuthorization (site ++ [entry.2]) state view.info none tokenModeClaimed now =
      .ok none

theorem claimants_asked {entries : List (ProcessView × Nat)} (i : Nat)
    (hEntries : ∀ entry ∈ judged views i, entry ∈ entries) {found result : Claimants}
    (hFound : found.Asked a site state now entries)
    (h : a.claimants site state now i found views = .ok result) :
    result.Asked a site state now entries := by
  induction views generalizing i found with
  | nil =>
    cases h
    exact hFound
  | cons view views ih =>
    have hRest : ∀ entry ∈ judged views (i + 1), entry ∈ entries :=
      fun entry hEntry => hEntries entry (mem_judged_cons hEntry)
    unfold claimants at h
    split at h
    · cases h
    · split at h
      · exact ih (i + 1) hRest hFound h
      · rename_i hBypassed
        have hHere := hEntries (view, i) (mem_judged_head hBypassed views i)
        split at h
        · cases h
        · rename_i authorization hMatch
          refine ih (i + 1) hRest ⟨?_, ?_⟩ h
          · exact forall_mem_concat.mpr ⟨hFound.authorized, (view, i), hHere, rfl, hMatch⟩
          · exact hFound.unauthorized
        · rename_i hMatch
          refine ih (i + 1) hRest ⟨?_, ?_⟩ h
          · exact hFound.authorized
          · exact forall_mem_concat.mpr ⟨hFound.unauthorized, (view, i), hHere, rfl, hMatch⟩

/-- What is written when a GPU gets its claim. -/
theorem settleClaim_scans {found : Claimants} {first : ProcessView × Authorization}
    {more : List (ProcessView × Authorization)}
    (hUnclaimed : activeSoftClaimsForGPU state gpu now = [])
    (hFound : a.claimants (site ++ [2]) state now 0 {} views = .ok found)
    (hFirst : found.authorized = first :: more) (plan : Plan) :
    a.Scans awaiting now (a.Source state gpu now site views) plan
      (a.settleClaim awaiting gpu first found now plan) := by
  have hAsked : found.Asked a (site ++ [2]) state now (judged views 0) :=
    claimants_asked 0 (fun _ hEntry => hEntry) ⟨by simp, by simp⟩ hFound
  unfold settleClaim
  refine .trans ?_ (Steps.foldl (fun plan view hView => ?_) _)
  · refine .trans ?_ (Steps.foldl (fun plan pair hPair => ?_) _)
    · exact .head (.decide _ ⟨.claim hUnclaimed hFound hFirst rfl rfl, by nofun⟩)
        (.single (.audit _ _))
    · obtain ⟨⟨view, j⟩, hEntry, hView, hMatch⟩ := hAsked.authorized pair hPair
      obtain ⟨_, authorization⟩ := pair
      obtain rfl : view = _ := hView
      dsimp only
      split
      · rename_i hToken
        exact .single (.decide _ ⟨.shares hUnclaimed hFound hFirst hEntry hMatch hToken, nofun⟩)
      · rename_i hToken
        refine .single (.killOnce _ (fun decision hAbout hAction => ?_) _)
        exact .rival hUnclaimed hFound hFirst hEntry hMatch (by simpa using hToken) hAbout hAction
  · obtain ⟨entry, hEntry, rfl, hMatch⟩ := hAsked.unauthorized view hView
    refine .single (.killOnce _ (fun decision hAbout hAction => ?_) _)
    exact .rival hUnclaimed hFound hFirst hEntry hMatch (by simp) hAbout hAction

theorem judgeHard_allows {reservations : List Reservation} (site : Site) (view : ProcessView) :
    Verdict.Allows view (a.judgeHard state gpu reservations now site view) := by
  intro decision h
  unfold judgeHard at h
  dsimp only at h
  split at h <;> cases h
  exact ⟨⟨rfl, rfl⟩, rfl⟩

theorem judgeLegacyLeases_allows {leases : List Lease} (site : Site) (view : ProcessView) :
    Verdict.Allows view (a.judgeLegacyLeases gpu leases now site view) := by
  intro decision h
  unfold judgeLegacyLeases at h
  dsimp only at h
  split at h <;> cases h
  exact ⟨⟨rfl, rfl⟩, rfl⟩

theorem judgeClaimed_allows {claim : SoftClaim} (site : Site) (view : ProcessView) :
    Verdict.Allows view (a.judgeClaimed state gpu claim now site view) := by
  intro decision h
  unfold judgeClaimed at h
  split at h <;> cases h
  exact ⟨⟨rfl, rfl⟩, rfl⟩

theorem enforceSoft_scans (plan : Plan) :
    a.Scans awaiting now (a.Source state gpu now site views) plan
      (a.enforceSoft awaiting site state gpu views now plan) := by
  unfold enforceSoft
  split
  · rename_i claim more hClaim
    split
    · exact .single (.fail _ _)
    · exact judgeViews_steps 0 (fun entry hEntry =>
        Verdict.owes (judgeClaimed_allows _ _) fun decision => .claimed hClaim hEntry) plan
    · rename_i hAbsent
      refine Steps.foldl (fun plan view hView => .single (.decide _ ⟨?_, nofun⟩)) plan
      obtain ⟨hMem, hOpen⟩ := mem_filter.mp hView
      obtain ⟨entry, hEntry, rfl⟩ := exists_entry hMem (by simpa using hOpen) 0
      exact .disappeared hClaim hAbsent hEntry
  · rename_i hUnclaimed
    split
    · exact .single (.fail _ _)
    · rename_i found hFound
      split
      · rename_i hNobody
        refine Steps.foldl (fun plan view hView => .single (.decide _ ⟨?_, nofun⟩)) plan
        have hAsked : found.Asked a (site ++ [2]) state now (judged views 0) :=
          claimants_asked 0 (fun _ hEntry => hEntry) ⟨by simp, by simp⟩ hFound
        obtain ⟨entry, hEntry, rfl, _⟩ := hAsked.unauthorized view hView
        exact .idle hUnclaimed hFound hNobody hEntry
      · rename_i first more hFirst
        exact settleClaim_scans hUnclaimed hFound hFirst plan

/-- The scan of a GPU writes nothing but what the sources list. -/
theorem enforceGPU_scans (plan : Plan) :
    a.Scans awaiting now (a.Source state gpu now site views) plan
      (a.enforceGPU awaiting site state gpu views now plan) := by
  unfold enforceGPU
  dsimp only
  split_ifs with hReserved hLeased
  · exact judgeViews_steps 0 (fun entry hEntry =>
      Verdict.owes (judgeHard_allows _ _) fun decision => .hard hReserved hEntry) plan
  · exact judgeViews_steps 0 (fun entry hEntry => Verdict.owes (judgeLegacyLeases_allows _ _)
      fun decision => .lease (not_not.mp hReserved) hLeased hEntry) plan
  · exact enforceSoft_scans plan

theorem enforceGPU_source (plan : Plan) :
    Grew (a.Source state gpu now site views) plan
      (a.enforceGPU awaiting site state gpu views now plan) :=
  (enforceGPU_scans plan).grew

omit [Unicode] in
theorem action_ne (h : decision.action = .kill ∨ decision.action = .skip) :
    decision.action ≠ .allow ∧ decision.action ≠ .claim ∧ decision.action ≠ .releaseClaim := by
  rcases h with h | h
  · simp [h]
  · simp [h]

omit [Unicode] in
/-- A verdict leads to an answer about its own process. -/
theorem Verdict.Leads.answers {verdict : Verdict} (hAllows : Verdict.Allows view verdict)
    (h : Verdict.Leads view verdict decision) :
    About view decision ∧ decision.action ≠ .claim ∧ decision.action ≠ .releaseClaim := by
  match verdict, h with
  | .allow allowed, h =>
    obtain ⟨hAbout, hAction⟩ := hAllows allowed rfl
    exact h ▸ ⟨hAbout, by simp [hAction]⟩
  | .deny _, h => exact ⟨h.1, (action_ne h.2).2⟩
  | .unresolved (some _) _, h =>
    rw [show decision = _ from h]
    exact ⟨⟨rfl, rfl⟩, by simp [skipDecision]⟩

/-- A decision of the scan of a GPU is the claim of its first claimant, or it is about a
process there that is not bypassed. -/
theorem Source.cases (h : a.Source state gpu now site views decision) :
    (decision.action = .claim ∧ ∃ found first more,
      activeSoftClaimsForGPU state gpu now = [] ∧
      a.claimants (site ++ [2]) state now 0 {} views = .ok found ∧
      found.authorized = first :: more ∧
      decision.claim = setSoftClaimRuntimeIdentity
        { gpu := gpu, tokenHash := first.2.tokenHash, authorizationID := first.2.id
          holder := first.2.holder, createdAt := now, updatedAt := now } first.2 first.1.info) ∨
    ((∃ view ∈ views, view.bypassed = false ∧ About view decision) ∧
      decision.action ≠ .claim ∧ decision.action ≠ .releaseClaim) := by
  have hOf : ∀ entry ∈ judged views 0, About entry.1 decision →
      ∃ view ∈ views, view.bypassed = false ∧ About view decision := by
    intro entry hEntry hAbout
    obtain ⟨hMem, hOpen⟩ := mem_filter.mp hEntry
    exact ⟨entry.1, fst_mem_of_mem_zipIdx hMem, by simpa using hOpen, hAbout⟩
  cases h with
  | hard _ hEntry hLeads =>
    obtain ⟨hAbout, hAction⟩ := hLeads.answers (judgeHard_allows _ _)
    exact .inr ⟨hOf _ hEntry hAbout, hAction⟩
  | lease _ _ hEntry hLeads =>
    obtain ⟨hAbout, hAction⟩ := hLeads.answers (judgeLegacyLeases_allows _ _)
    exact .inr ⟨hOf _ hEntry hAbout, hAction⟩
  | claimed _ hEntry hLeads =>
    obtain ⟨hAbout, hAction⟩ := hLeads.answers (judgeClaimed_allows _ _)
    exact .inr ⟨hOf _ hEntry hAbout, hAction⟩
  | disappeared _ _ hEntry => exact .inr ⟨hOf _ hEntry ⟨rfl, rfl⟩, nofun, nofun⟩
  | idle _ _ _ hEntry => exact .inr ⟨hOf _ hEntry ⟨rfl, rfl⟩, nofun, nofun⟩
  | @claim found first more _ hUnclaimed hFound hFirst hAction hClaim =>
    exact .inl ⟨hAction, found, first, more, hUnclaimed, hFound, hFirst, hClaim⟩
  | shares _ _ _ hEntry _ _ => exact .inr ⟨hOf _ hEntry ⟨rfl, rfl⟩, nofun, nofun⟩
  | rival _ _ _ hEntry _ _ hAbout hAction =>
    exact .inr ⟨hOf _ hEntry hAbout, (action_ne hAction).2⟩

/-- Every decision of a pass, cancelled or not, comes from the survey, from the scan of a
GPU or from the release of a claim, and every kill of the pass was decided. -/
theorem enforce_grew (awaiting : Int → Nat → Bool) (state : State) (now : Time)
    (processes : List GPUProcess)
    (hSurvey : ∀ process ∈ processes, ∀ decision, a.Surveys state now process decision →
      P decision)
    (hGPU : ∀ k gpu plan, (a.gpuOrder ((processes.filterMap (a.viewOf state now)).map
        (·.process.gpu)).dedup)[k]? = some gpu →
      Grew P plan (a.enforceGPU awaiting [1, k] state gpu (a.sampledViews state now processes gpu)
        now plan))
    (hRelease : ∀ k claim, state.softClaims[k]? = some claim →
      a.claimHasMatchingProcess [2, k] state claim (a.sampledViews state now processes claim.gpu)
        now = .ok false →
      P { action := .releaseClaim, claimID := claim.id
          reason := "claimed GPU has no matching process" }) :
    Grew P {} (a.enforce awaiting state processes now) := by
  refine enforce_keeps_all (fun _ _ => id) (fun plan h => h.imp ?_)
    (fun k gpu plan hHere h => h.trans (hGPU k gpu plan hHere)) fun plan h => h.trans ?_
  · rintro decision ⟨process, hMem, h⟩
    exact hSurvey process hMem decision h
  · refine Scans.grew (@releaseClaims_scans a awaiting _ _ _ _ _ _ 0 (fun k claim hClaim => ?_) plan)
    rw [Nat.zero_add]
    exact hRelease k claim hClaim

/-- The plan of an enforcement scan keeps its promise about kills. -/
theorem enforce_sound (hDry : a.dryRun = false) (state : State) (processes : List GPUProcess)
    (now : Time) : (a.enforce awaiting state processes now).Sound awaiting := by
  refine enforce_keeps_all (fun _ texts h => h.fail texts) (fun plan h => ?_)
    (fun k gpu plan _ h => ?_) fun plan h => ?_
  · refine h.sound (fun decision => ?_) .empty
    rintro ⟨process, _, ⟨_, reason, rfl⟩ | ⟨info, _, rfl⟩⟩
    · nofun
    · nofun
  · refine (enforceGPU_scans plan).sound hDry (fun _ h => h.2) (fun view hDenies => ?_) h
    -- whoever is denied on the GPU has been read in the survey
    rcases (hDenies (skipDecision view "") ⟨rfl, rfl⟩ (.inr rfl)).cases with
      ⟨hClaim, _⟩ | ⟨⟨near, hNear, _, hProcess, hInfo⟩, _⟩
    · cases hClaim
    · obtain ⟨_, reader, _, hRead⟩ := viewOf_some (mem_sampledViews hNear).1
      rw [ProcessView.Verified, show view.info = _ from hInfo, show view.process = _ from hProcess]
      exact reader.info_pid _ _ hRead
  · refine (releaseClaims_scans (P := (·.action = .releaseClaim)) 0 (fun _ _ _ _ => rfl) plan).sound
      hDry (fun _ h => h.2) (fun view hDenies => ?_) h
    cases hDenies (skipDecision view "") ⟨rfl, rfl⟩ (.inr rfl)

end Origins

end Authorizer

end GPUardian
