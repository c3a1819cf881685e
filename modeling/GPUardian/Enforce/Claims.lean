import GPUardian.Enforce.Growth
import GPUardian.Store.Scopes

/-! The pass that claims a GPU and the pass after it. The first asks for each process which
authorization comes first in the store, and compares its token with that of the first
claimant; the second asks for each process whether any authorization of the claim's token
matches. The two agree unless a process matches authorizations of several tokens. -/
namespace GPUardian

open GoStrings List Option

namespace Authorizer

section Matching

variable [Unicode]

/-- Whether a scope covers a process, where the lookups answer. -/
def covers (a : Authorizer) (row : Authorization) (info : ProcInfo) : Bool :=
  (a.authorizationScopeMatchesForEviction [] row info).toOption.getD false

/-- The first authorization in the store of a claim or managed key that covers a process. -/
def firstMatch (a : Authorizer) (state : State) (tokenFilter : Option (String → Bool))
    (now : Time) (info : ProcInfo) : Option Authorization :=
  state.authorizations.find? fun row =>
    (eligibleToken state.tokens tokenFilter tokenModeClaimed now row).isSome && a.covers row info

/-- A match is reported with the mode of its token. -/
def reported (state : State) (tokenFilter : Option (String → Bool)) (now : Time)
    (row : Authorization) : Authorization :=
  { row with
    tokenMode := ((eligibleToken state.tokens tokenFilter tokenModeClaimed now row).map
      (normalizeTokenMode ·.mode)).getD "" }

/-- An authorization of the token covers the process. -/
def Belongs (a : Authorizer) (state : State) (now : Time) (hash : String) (info : ProcInfo) : Prop :=
  ∃ row ∈ state.authorizations,
    (eligibleToken state.tokens none tokenModeClaimed now row).isSome = true ∧
      a.covers row info = true ∧ row.tokenHash = hash

variable {a : Authorizer} {state : State} {now : Time} {info : ProcInfo}

theorem Reliable.scope_eq (h : a.Reliable) (hUID : 0 ≤ info.uid) (row : Authorization)
    (site : Site) :
    a.authorizationScopeMatchesForEviction site row info = .ok (a.covers row info) := by
  obtain ⟨found, hFound⟩ := h.scope row hUID
  rw [covers, hFound site, hFound []]
  rfl

theorem matchAuthorizations_eq (hRunning : a.Running) (hReliable : a.Reliable)
    (hUID : 0 ≤ info.uid) (tokenFilter : Option (String → Bool)) (site : Site) (i : Nat)
    (rows : List Authorization) :
    a.matchAuthorizations site state.tokens info tokenFilter tokenModeClaimed now i [] rows =
      .ok ((rows.find? fun row => (eligibleToken state.tokens tokenFilter tokenModeClaimed now
        row).isSome && a.covers row info).map (reported state tokenFilter now)) := by
  induction rows generalizing i with
  | nil => rfl
  | cons row rows ih =>
    simp only [matchAuthorizations, hRunning, scopeMatches_tokenMode,
      hReliable.scope_eq hUID row (site ++ [i])]
    cases hToken : eligibleToken state.tokens tokenFilter tokenModeClaimed now row with
    | none => simp [hToken, ih]
    | some token =>
      cases hCovers : a.covers row info with
      | true => simp [hToken, hCovers, reported]
      | false => simp [hToken, hCovers, ih]

theorem matchAnyAuthorization_eq (hRunning : a.Running) (hReliable : a.Reliable)
    (hUID : 0 ≤ info.uid) (state : State) (now : Time) (tokenFilter : Option (String → Bool))
    (site : Site) :
    a.matchAnyAuthorization site state info tokenFilter tokenModeClaimed now =
      .ok ((a.firstMatch state tokenFilter now info).map (reported state tokenFilter now)) :=
  matchAuthorizations_eq hRunning hReliable hUID tokenFilter site 0 state.authorizations

theorem eligibleToken_filter (tokens : List Token) (tokenMode hash : String) (row : Authorization) :
    (eligibleToken tokens (some (· == hash)) tokenMode now row).isSome =
      ((eligibleToken tokens none tokenMode now row).isSome && row.tokenHash == hash) := by
  unfold eligibleToken
  cases hHash : row.tokenHash == hash with
  | true => simp [hHash]
  | false => simp [hHash]

theorem firstMatch_filter_isSome (hash : String) :
    (a.firstMatch state (some (· == hash)) now info).isSome = true ↔
      a.Belongs state now hash info := by
  simp only [firstMatch, List.find?_isSome, eligibleToken_filter, Belongs, Bool.and_eq_true,
    beq_iff_eq]
  constructor
  · rintro ⟨row, hRow, ⟨hEligible, hHash⟩, hCovers⟩
    exact ⟨row, hRow, hEligible, hCovers, hHash⟩
  · rintro ⟨row, hRow, hEligible, hCovers, hHash⟩
    exact ⟨row, hRow, ⟨hEligible, hHash⟩, hCovers⟩

theorem firstMatch_belongs {row : Authorization} (h : a.firstMatch state none now info = some row) :
    a.Belongs state now row.tokenHash info := by
  have hMatch := find?_some h
  rw [Bool.and_eq_true] at hMatch
  exact ⟨row, mem_of_find?_eq_some h, hMatch.1, hMatch.2, rfl⟩

end Matching

/-- The pass allows the process. -/
def Allowed (plan : Plan) (view : ProcessView) : Prop :=
  ∃ decision ∈ plan.decisions, About view decision ∧ decision.action = .allow

/-- The pass wants the process killed, now or as soon as it may. -/
def Condemned (a : Authorizer) (awaiting : Int → Nat → Bool) (plan : Plan) (view : ProcessView) :
    Prop :=
  ∃ decision ∈ plan.decisions, About view decision ∧ a.Denied awaiting plan view decision

/-- The pass allows a process that meets the specification, and wants any other killed. -/
def Classifies (a : Authorizer) (awaiting : Int → Nat → Bool) (plan : Plan) (view : ProcessView)
    (spec : Prop) : Prop :=
  (Allowed plan view ↔ spec) ∧ (a.Condemned awaiting plan view ↔ ¬ spec)

variable {view : ProcessView}

section Classification

variable {a : Authorizer} {awaiting : Int → Nat → Bool} {state : State} {now : Time}
  {processes : List GPUProcess} {gpu : Int}

/-- A decision is about one sampled process at most. -/
theorem About.unique {other : ProcessView} {decision : Decision}
    (hView : a.viewOf state now view.process = some view)
    (hOther : a.viewOf state now other.process = some other) (h : About view decision)
    (h' : About other decision) : view = other := by
  rw [← h.1, h'.1, hOther] at hView
  exact (some.inj hView).symm

/-- What a decision may say about the processes of a GPU, if those that meet the
specification are to be allowed and the others are not. -/
def Judges (a : Authorizer) (state : State) (now : Time) (processes : List GPUProcess) (gpu : Int)
    (spec : ProcessView → Prop) (decision : Decision) : Prop :=
  ∀ view ∈ a.sampledViews state now processes gpu, About view decision →
    (decision.action = .allow → spec view) ∧
      (decision.action = .kill ∨ decision.action = .skip → ¬ spec view)

variable [Unicode]

/-- The other GPUs have no say about a process, and the survey allows only the bypassed. -/
theorem enforce_judges {spec : ProcessView → Prop}
    (hBypassed : ∀ view, view.bypassed = true → spec view)
    (hHere : ∀ site decision,
      a.Source state gpu now site (a.sampledViews state now processes gpu) decision →
      a.Judges state now processes gpu spec decision) :
    ∀ decision ∈ (a.enforce awaiting state processes now).decisions,
      a.Judges state now processes gpu spec decision := by
  have hGrew : Grew (a.Judges state now processes gpu spec) {}
      (a.enforce awaiting state processes now) := by
    refine enforce_grew awaiting state now processes ?_ ?_ ?_
    · rintro process _ decision (⟨hNone, reason, rfl⟩ | ⟨info, hView, rfl⟩) view hMem hAbout
      · have hSome := (mem_sampledViews hMem).1
        rw [← hAbout.1, hNone] at hSome
        cases hSome
      · refine ⟨fun _ => hBypassed view ?_, by simp⟩
        have hSome := (mem_sampledViews hMem).1
        rw [← hAbout.1, hView] at hSome
        rw [← some.inj hSome]
    · intro k other plan hOther
      refine (enforceGPU_source plan).imp fun decision hSource => ?_
      by_cases hSame : other = gpu
      · subst hSame
        exact hHere _ decision hSource
      · intro view hMem hAbout
        rcases hSource.cases with ⟨hClaim, _⟩ | ⟨⟨near, hNear, _, hNearAbout⟩, _⟩
        · simp [hClaim]
        · refine absurd ?_ hSame
          rw [← (mem_sampledViews hNear).2, ← (mem_sampledViews hMem).2, ← hNearAbout.1, hAbout.1]
    · intro k claim _ _ view _ _
      simp
  exact hGrew.decided

theorem enforce_allows_bypassed (hRunning : a.Running)
    (hView : view ∈ a.sampledViews state now processes gpu) (hBypassed : view.bypassed = true) :
    Allowed (a.enforce awaiting state processes now) view := by
  obtain ⟨surveyed, last, hAllows, hExtends, hPass⟩ :=
    enforce_running hRunning awaiting state now processes
  obtain ⟨decision, hMem, hDecision⟩ := hAllows view (mem_filter.mp hView).1 hBypassed
  refine ⟨decision, ?_, hDecision⟩
  rw [hPass]
  exact (hExtends.trans (releaseClaims_extends _ _ _ _)).decisions.subset hMem

/-- The decisions about the processes of a GPU are those of a specification: each process has
one, and none has another. -/
theorem enforce_classifies (hRunning : a.Running) {spec : ProcessView → Prop}
    (hBypassed : ∀ view, view.bypassed = true → spec view)
    (hHere : ∀ site decision,
      a.Source state gpu now site (a.sampledViews state now processes gpu) decision →
      a.Judges state now processes gpu spec decision)
    (hEach : ∀ view ∈ a.sampledViews state now processes gpu, view.bypassed = false →
      ∃ decision ∈ (a.enforce awaiting state processes now).decisions, About view decision ∧
        ((spec view ∧ decision.action = .allow) ∨
          (¬ spec view ∧ a.Denied awaiting (a.enforce awaiting state processes now) view decision)))
    (hView : view ∈ a.sampledViews state now processes gpu) :
    a.Classifies awaiting (a.enforce awaiting state processes now) view (spec view) := by
  have hJudges : ∀ decision ∈ (a.enforce awaiting state processes now).decisions,
      a.Judges state now processes gpu spec decision := enforce_judges hBypassed hHere
  have hAllowed : Allowed (a.enforce awaiting state processes now) view → spec view := by
    rintro ⟨decision, hMem, hAbout, hAction⟩
    exact (hJudges decision hMem view hView hAbout).1 hAction
  have hCondemned : a.Condemned awaiting (a.enforce awaiting state processes now) view →
      ¬ spec view := by
    rintro ⟨decision, hMem, hAbout, hDenied⟩
    refine (hJudges decision hMem view hView hAbout).2 ?_
    cases hDenied with
    | killed hAction _ => exact .inl hAction
    | spent _ _ hAction => exact .inr hAction
    | targeted _ _ hAction => exact .inr hAction
  cases hOpen : view.bypassed with
  | true =>
    have hSpec := hBypassed view hOpen
    exact ⟨⟨fun _ => hSpec, fun _ => enforce_allows_bypassed hRunning hView hOpen⟩,
      hCondemned, fun hNot => absurd hSpec hNot⟩
  | false =>
    obtain ⟨decision, hMem, hAbout, hCase⟩ := hEach view hView hOpen
    rcases hCase with ⟨hSpec, hAction⟩ | ⟨hNot, hDenied⟩
    · exact ⟨⟨hAllowed, fun _ => ⟨decision, hMem, hAbout, hAction⟩⟩, hCondemned,
        fun hNot => absurd hSpec hNot⟩
    · exact ⟨⟨hAllowed, fun hSpec => absurd hSpec hNot⟩, hCondemned,
        fun _ => ⟨decision, hMem, hAbout, hDenied⟩⟩

end Classification

section Soft

variable [Unicode]

/-- The claimants of a GPU, where the lookups answer. -/
def claimantsOf (a : Authorizer) (state : State) (now : Time) (views : List ProcessView) :
    Claimants where
  authorized := (views.filter (!·.bypassed)).filterMap fun view =>
    (a.firstMatch state none now view.info).map fun row => (view, reported state none now row)
  unauthorized := (views.filter (!·.bypassed)).filter fun view =>
    (a.firstMatch state none now view.info).isNone

/-- The views are of processes whose user is known, as every successful lookup needs it. -/
def Identified (views : List ProcessView) : Prop := ∀ view ∈ views, 0 ≤ view.info.uid

variable {a : Authorizer} {awaiting : Int → Nat → Bool} {state : State} {now : Time}
  {views : List ProcessView}

omit [Unicode] in
theorem Reliable.identified (h : a.Reliable) (state : State) (now : Time)
    (processes : List GPUProcess) (gpu : Int) :
    Identified (a.sampledViews state now processes gpu) := by
  intro view hView
  obtain ⟨_, reader, hProc, hInfo⟩ := viewOf_some (mem_sampledViews hView).1
  exact h.read_uid reader _ _ hProc hInfo

/-- In the pass that claims the GPU, a process is allowed if its first authorization has the
token of the claim. -/
def SharesClaim (a : Authorizer) (state : State) (now : Time) (hash : String)
    (view : ProcessView) : Prop :=
  view.bypassed = true ∨ ∃ row, a.firstMatch state none now view.info = some row ∧
    row.tokenHash = hash

/-- In the passes after it, a process is allowed if any authorization of the token covers
it. -/
def JoinsClaim (a : Authorizer) (state : State) (now : Time) (hash : String)
    (view : ProcessView) : Prop :=
  view.bypassed = true ∨ a.Belongs state now hash view.info

variable {hash : String}

theorem SharesClaim.joins (h : a.SharesClaim state now hash view) :
    a.JoinsClaim state now hash view := by
  rcases h with hBypassed | ⟨row, hFirst, rfl⟩
  · exact .inl hBypassed
  · exact .inr (firstMatch_belongs hFirst)

/-- The decision that the pass which claims the GPU owes a process. -/
def Owed (a : Authorizer) (awaiting : Int → Nat → Bool) (plan : Plan) (allowed : Prop)
    (view : ProcessView) (decision : Decision) : Prop :=
  About view decision ∧ ((allowed ∧ decision.action = .allow) ∨
    (¬ allowed ∧ a.Denied awaiting plan view decision))

omit [Unicode] in
theorem Owed.extend {plan later : Plan} {allowed : Prop} {decision : Decision}
    (h : a.Owed awaiting plan allowed view decision) (hLater : plan.Extends awaiting later) :
    a.Owed awaiting later allowed view decision :=
  ⟨h.1, h.2.imp_right fun ⟨hNot, hDenied⟩ => ⟨hNot, hDenied.extend hLater⟩⟩

omit [Unicode] in
theorem killOnce_owed {plan : Plan} (hPlan : plan.Accounted awaiting) (view : ProcessView)
    (report : KillReport) (now : Time) :
    ∃ decision ∈ (a.killOnce awaiting view report now plan).decisions,
      a.Owed awaiting (a.killOnce awaiting view report now plan) False view decision := by
  obtain ⟨decision, hDecisions, hDenied, hAbout⟩ := @killOnce_denied a _ _ hPlan view report now
  refine ⟨decision, ?_, hAbout, .inr ⟨id, hDenied⟩⟩
  rw [hDecisions]
  exact mem_append_right _ mem_cons_self

omit [Unicode] in
/-- Each row of a loop gets its decision, and what comes later does not take it back. -/
theorem foldl_owed {α : Type} {step : Plan → α → Plan} {allowed : α → Prop}
    {process : α → ProcessView}
    (hStep : ∀ plan row, plan.Extends awaiting (step plan row) ∧ (plan.Accounted awaiting →
      ∃ decision ∈ (step plan row).decisions,
        a.Owed awaiting (step plan row) (allowed row) (process row) decision))
    (rows : List α) {plan last : Plan} (hPlan : plan.Accounted awaiting)
    (hLast : (rows.foldl step plan).Extends awaiting last) :
    ∀ row ∈ rows, ∃ decision ∈ last.decisions,
      a.Owed awaiting last (allowed row) (process row) decision := by
  induction rows generalizing plan with
  | nil => exact fun _ hMem => absurd hMem not_mem_nil
  | cons first rows ih =>
    intro row hRow
    rcases mem_cons.mp hRow with rfl | hRest
    · obtain ⟨decision, hMem, hOwed⟩ := (hStep plan row).2 hPlan
      have hExtends := (Plan.Extends.foldl (fun plan row => (hStep plan row).1) rows
        (step plan row)).trans hLast
      exact ⟨decision, hExtends.decisions.subset hMem, hOwed.extend hExtends⟩
    · exact ih ((hStep plan first).1.accounted hPlan) hLast row hRest

omit [Unicode] in
/-- The other claimants are judged by the token of the first. -/
theorem settleClaim_owed {gpu : Int} (first : ProcessView × Authorization) (found : Claimants)
    {plan last : Plan} (hPlan : plan.Accounted awaiting)
    (hLast : (a.settleClaim awaiting gpu first found now plan).Extends awaiting last) :
    (∀ pair ∈ found.authorized, ∃ decision ∈ last.decisions,
      a.Owed awaiting last (pair.2.tokenHash = first.2.tokenHash) pair.1 decision) ∧
    ∀ view ∈ found.unauthorized, ∃ decision ∈ last.decisions,
      a.Owed awaiting last False view decision := by
  unfold settleClaim at hLast
  dsimp only at hLast
  have hClaimed := fun decision event =>
    ((Plan.Extends.decide plan decision).trans (.audit _ event)).accounted hPlan
  constructor
  · -- The second loop adds to what the first has written.
    refine foldl_owed (fun plan pair => ?_) found.authorized (hClaimed _ _)
      ((Plan.Extends.foldl (fun plan view => killOnce_extends _ _ _ _ _ _) _ _).trans hLast)
    by_cases hToken : pair.2.tokenHash = first.2.tokenHash
    · simp only [if_pos hToken]
      exact ⟨.decide _ _, fun _ => ⟨_, mem_append_right _ mem_cons_self, ⟨rfl, rfl⟩,
        .inl ⟨hToken, rfl⟩⟩⟩
    · simp only [if_neg hToken]
      refine ⟨killOnce_extends _ _ _ _ _ _, fun hHere => ?_⟩
      obtain ⟨decision, hMem, hAbout, hOwed⟩ := killOnce_owed hHere pair.1 _ now
      exact ⟨decision, hMem, hAbout, .inr ⟨hToken, (hOwed.resolve_left (·.1)).2⟩⟩
  · refine foldl_owed (fun plan view => ⟨killOnce_extends _ _ _ _ _ _, fun hHere =>
      killOnce_owed hHere view _ now⟩) found.unauthorized
      ((Plan.Extends.foldl (fun plan pair => ?_) _ _).accounted (hClaimed _ _)) hLast
    split_ifs
    · exact .decide _ _
    · exact killOnce_extends _ _ _ _ _ _

variable {processes : List GPUProcess} {gpu : Int}

theorem sharesClaim_of_open (hOpen : view.bypassed = false) :
    a.SharesClaim state now hash view ↔
      ∃ row, a.firstMatch state none now view.info = some row ∧ row.tokenHash = hash := by
  simp [SharesClaim, hOpen]

/-- Where a process shares the claim depends on the first authorization that is found. -/
theorem found_hash_iff {answer : Option Authorization} {info : ProcInfo}
    (h : answer = (a.firstMatch state none now info).map (reported state none now)) :
    (∃ authorization ∈ answer, authorization.tokenHash = hash) ↔
      ∃ row, a.firstMatch state none now info = some row ∧ row.tokenHash = hash := by
  subst h
  cases a.firstMatch state none now info with
  | none => simp
  | some row => simp [reported]

section Reliable

variable (hRunning : a.Running) (hReliable : a.Reliable)

include hRunning hReliable

theorem claimants_eq (hViews : Identified views) (site : Site) (i : Nat) (found : Claimants) :
    a.claimants site state now i found views = .ok
      { authorized := found.authorized ++ (a.claimantsOf state now views).authorized
        unauthorized := found.unauthorized ++ (a.claimantsOf state now views).unauthorized } := by
  induction views generalizing i found with
  | nil => simp [claimants, claimantsOf]
  | cons view views ih =>
    have hRest := ih fun other hOther => hViews other (mem_cons_of_mem _ hOther)
    have hMatch := matchAnyAuthorization_eq hRunning hReliable (hViews view mem_cons_self)
      state now none (site ++ [i])
    simp only [claimants, hRunning, hMatch]
    cases hBypassed : view.bypassed with
    | true => simp [hRest, claimantsOf, hBypassed]
    | false =>
      cases hFirst : a.firstMatch state none now view.info with
      | none => simp [hRest, claimantsOf, hBypassed, hFirst]
      | some row => simp [hRest, claimantsOf, hBypassed, hFirst]

/-- A pass over a GPU without reservation, lease or claim allows those who share the claim of
its first claimant, and wants all others killed. -/
theorem claiming_classifies
    (hFree : activeReservationsForGPU state.reservations gpu now = [])
    (hUnleased : activeLeasesForGPU state.leases gpu now = [])
    (hUnclaimed : activeSoftClaimsForGPU state gpu now = []) {first : ProcessView × Authorization}
    {more : List (ProcessView × Authorization)}
    (hFirst : (a.claimantsOf state now (a.sampledViews state now processes gpu)).authorized =
      first :: more) (hView : view ∈ a.sampledViews state now processes gpu) :
    a.Classifies awaiting (a.enforce awaiting state processes now) view
      (a.SharesClaim state now first.2.tokenHash view) := by
  have hKnown := hReliable.identified state now processes gpu
  have hAsk : ∀ site, a.claimants site state now 0 {} (a.sampledViews state now processes gpu) =
      .ok (a.claimantsOf state now (a.sampledViews state now processes gpu)) := fun site => by
    rw [claimants_eq hRunning hReliable hKnown site 0 {}]
    rfl
  refine enforce_classifies hRunning (fun _ => .inl) ?_ ?_ hView
  · intro site decision hSource view hMem hAbout
    -- What the claimants say about the entry of a decision, they say about its process.
    have hEntry : ∀ entry ∈ judged (a.sampledViews state now processes gpu) 0,
        About entry.1 decision → entry.1 = view ∧ view.bypassed = false := by
      intro entry hEntry hEntryAbout
      obtain ⟨hEntryMem, hOpen⟩ := open_of_judged hEntry
      have hSame := About.unique (mem_sampledViews hEntryMem).1 (mem_sampledViews hMem).1
        hEntryAbout hAbout
      exact ⟨hSame, hSame ▸ hOpen⟩
    cases hSource with
    | hard hReserved _ _ => exact absurd hFree hReserved
    | lease _ hLeased _ _ => exact absurd hUnleased hLeased
    | claimed hClaim _ _ => rw [hUnclaimed] at hClaim; cases hClaim
    | disappeared hClaim _ _ => rw [hUnclaimed] at hClaim; cases hClaim
    | idle _ hFound hNobody _ =>
      rw [hAsk] at hFound
      cases hFound
      rw [hFirst] at hNobody
      cases hNobody
    | claim _ _ _ hAction _ => simp [hAction]
    | @shares found owner others entry authorization _ hFound hOwner hMem' hMatch hToken =>
      rw [hAsk] at hFound
      cases hFound
      obtain ⟨rfl, _⟩ := cons.inj (hFirst.symm.trans hOwner)
      obtain ⟨rfl, hOpen⟩ := hEntry entry hMem' ⟨rfl, rfl⟩
      rw [matchAnyAuthorization_eq hRunning hReliable (hKnown _ hMem)] at hMatch
      refine ⟨fun _ => (sharesClaim_of_open hOpen).mpr ?_, by simp [allowDecision]⟩
      exact (found_hash_iff (Except.ok.inj hMatch).symm).mp ⟨authorization, rfl, hToken⟩
    | @rival found owner others entry answer _ _ hFound hOwner hMem' hMatch hToken hAbout' hAction =>
      rw [hAsk] at hFound
      cases hFound
      obtain ⟨rfl, _⟩ := cons.inj (hFirst.symm.trans hOwner)
      obtain ⟨rfl, hOpen⟩ := hEntry entry hMem' hAbout'
      rw [matchAnyAuthorization_eq hRunning hReliable (hKnown _ hMem)] at hMatch
      refine ⟨fun hAllow => absurd hAllow (action_ne hAction).1, fun _ hShares => ?_⟩
      obtain ⟨authorization, hFound, hSame⟩ :=
        (found_hash_iff (Except.ok.inj hMatch).symm).mpr ((sharesClaim_of_open hOpen).mp hShares)
      exact hToken authorization hFound hSame
  · intro view hMem hOpen
    obtain ⟨before, hBefore, hExtends⟩ := enforce_visits hRunning awaiting state now processes
      (ne_nil_of_mem hMem)
    simp only [enforceGPU, hFree, hUnleased, ne_eq, not_true_eq_false, if_false, enforceSoft,
      hUnclaimed, hAsk, hFirst] at hExtends
    obtain ⟨hAuthorized, hUnauthorized⟩ := settleClaim_owed first _ hBefore hExtends
    have hListed : view ∈ (a.sampledViews state now processes gpu).filter (!·.bypassed) :=
      mem_filter.mpr ⟨hMem, by simpa using hOpen⟩
    cases hMatch : a.firstMatch state none now view.info with
    | none =>
      obtain ⟨decision, hDecision, hAbout, hOwed⟩ := hUnauthorized view
        (mem_filter.mpr ⟨hListed, by simp [hMatch]⟩)
      refine ⟨decision, hDecision, hAbout, .inr ⟨?_, (hOwed.resolve_left (·.1)).2⟩⟩
      simp [sharesClaim_of_open hOpen, hMatch]
    | some row =>
      obtain ⟨decision, hDecision, hAbout, hOwed⟩ := hAuthorized
        (view, reported state none now row)
        (mem_filterMap.mpr ⟨view, hListed, by simp [hMatch]⟩)
      have hIff : a.SharesClaim state now first.2.tokenHash view ↔
          (reported state none now row).tokenHash = first.2.tokenHash := by
        simp [sharesClaim_of_open hOpen, hMatch, reported]
      rw [hIff]
      exact ⟨decision, hDecision, hAbout, hOwed⟩

theorem claimMatchingViews_present {claim : SoftClaim} (hViews : Identified views) (hView : view ∈ views)
    (hOpen : view.bypassed = false) (hRuntime : softClaimRuntimeMatches claim view.info = true)
    (hBelongs : a.Belongs state now claim.tokenHash view.info) (site : Site) (i : Nat) :
    a.claimMatchingViews site state claim now i views = .ok true := by
  induction views generalizing i with
  | nil => exact absurd hView not_mem_nil
  | cons head views ih =>
    have hRest := ih fun other hOther => hViews other (mem_cons_of_mem _ hOther)
    have hMatch := matchAnyAuthorization_eq hRunning hReliable (hViews head mem_cons_self)
      state now (some (· == claim.tokenHash)) (site ++ [i])
    simp only [claimMatchingViews, hRunning, hMatch]
    rcases mem_cons.mp hView with rfl | hLater
    · obtain ⟨row, hRow⟩ := isSome_iff_exists.mp
        ((firstMatch_filter_isSome claim.tokenHash).mpr hBelongs)
      simp [hOpen, hRuntime, hRow]
    · split
      · exact hRest hLater (i + 1)
      · cases a.firstMatch state (some (· == claim.tokenHash)) now head.info with
        | none => exact hRest hLater (i + 1)
        | some row => rfl

theorem judgeClaimed_eq (gpu : Int) (hUID : 0 ≤ view.info.uid) (claim : SoftClaim) (site : Site) :
    (a.Belongs state now claim.tokenHash view.info ∧ ∃ authorization,
      a.judgeClaimed state gpu claim now site view =
        .allow (allowDecision view "claimed" authorization claim.id)) ∨
    (¬ a.Belongs state now claim.tokenHash view.info ∧ ∃ report,
      a.judgeClaimed state gpu claim now site view = .deny report) := by
  unfold judgeClaimed
  rw [matchAnyAuthorization_eq hRunning hReliable hUID]
  rw [← firstMatch_filter_isSome]
  cases a.firstMatch state (some (· == claim.tokenHash)) now view.info with
  | none => exact .inr ⟨by simp, _, rfl⟩
  | some row => exact .inl ⟨rfl, _, rfl⟩

/-- A pass over a GPU whose claim stands allows those who join the claim, and wants all
others killed. -/
theorem claimed_classifies
    (hFree : activeReservationsForGPU state.reservations gpu now = [])
    (hUnleased : activeLeasesForGPU state.leases gpu now = []) {claim : SoftClaim}
    {more : List SoftClaim} (hClaims : activeSoftClaimsForGPU state gpu now = claim :: more)
    (hPresent : ∀ site, a.claimHasMatchingProcess site state claim
      (a.sampledViews state now processes gpu) now = .ok true)
    (hView : view ∈ a.sampledViews state now processes gpu) :
    a.Classifies awaiting (a.enforce awaiting state processes now) view
      (a.JoinsClaim state now claim.tokenHash view) := by
  have hKnown := hReliable.identified state now processes gpu
  have hJoins : ∀ view : ProcessView, view.bypassed = false →
      (a.JoinsClaim state now claim.tokenHash view ↔
        a.Belongs state now claim.tokenHash view.info) := by
    intro view hOpen
    simp [JoinsClaim, hOpen]
  refine enforce_classifies hRunning (fun _ => .inl) ?_ ?_ hView
  · intro site decision hSource view hMem hAbout
    cases hSource with
    | hard hReserved _ _ => exact absurd hFree hReserved
    | lease _ hLeased _ _ => exact absurd hUnleased hLeased
    | @claimed other others entry _ hClaim hEntry hLeads =>
      obtain ⟨rfl, _⟩ := cons.inj (hClaims.symm.trans hClaim)
      obtain ⟨hEntryMem, hOpen⟩ := open_of_judged hEntry
      obtain rfl := About.unique (mem_sampledViews hEntryMem).1 (mem_sampledViews hMem).1
        (hLeads.answers (judgeClaimed_allows _ _)).1 hAbout
      rw [hJoins _ hOpen]
      rcases judgeClaimed_eq hRunning hReliable gpu (hKnown _ hMem) claim
          (site ++ [1] ++ [entry.2]) with
        ⟨hBelongs, authorization, hVerdict⟩ | ⟨hNot, report, hVerdict⟩
      · rw [hVerdict] at hLeads
        rw [show decision = _ from hLeads]
        exact ⟨fun _ => hBelongs, by simp [allowDecision]⟩
      · rw [hVerdict] at hLeads
        exact ⟨fun hAllow => absurd hAllow (action_ne hLeads.2).1, fun _ => hNot⟩
    | disappeared hClaim hAbsent _ =>
      obtain ⟨rfl, _⟩ := cons.inj (hClaims.symm.trans hClaim)
      rw [hPresent] at hAbsent
      cases hAbsent
    | idle hUnclaimed _ _ _ => rw [hClaims] at hUnclaimed; cases hUnclaimed
    | claim hUnclaimed _ _ _ _ => rw [hClaims] at hUnclaimed; cases hUnclaimed
    | shares hUnclaimed _ _ _ _ _ => rw [hClaims] at hUnclaimed; cases hUnclaimed
    | rival hUnclaimed _ _ _ _ _ _ _ => rw [hClaims] at hUnclaimed; cases hUnclaimed
  · intro view hMem hOpen
    obtain ⟨before, hBefore, hExtends⟩ := enforce_visits hRunning awaiting state now processes
      (ne_nil_of_mem hMem)
    simp only [enforceGPU, hFree, hUnleased, ne_eq, not_true_eq_false, if_false, enforceSoft,
      hClaims, hPresent] at hExtends
    have hGoesOn : ∀ view ∈ a.sampledViews state now processes gpu, ∀ site errors,
        a.judgeClaimed state gpu claim now site view ≠ .unresolved none errors := by
      intro other hOther site errors
      rcases judgeClaimed_eq hRunning hReliable gpu (hKnown other hOther) claim site with
        ⟨_, _, hVerdict⟩ | ⟨_, _, hVerdict⟩
      · rw [hVerdict]; nofun
      · rw [hVerdict]; nofun
    obtain ⟨block, hBlock, hSettles⟩ := judgeViews_settles hRunning awaiting _ now _ hGoesOn 0 hBefore
    obtain ⟨entry, hEntry, rfl⟩ := exists_entry hMem hOpen 0
    obtain ⟨decision, hDecision, hHere⟩ := GoSlice.forall₂_partner hSettles hEntry
    have hFinal := hHere.extend hExtends
    refine ⟨decision, hExtends.decisions.subset ?_, ?_⟩
    · rw [hBlock]
      exact mem_append_right _ hDecision
    · rw [hJoins _ hOpen]
      rcases judgeClaimed_eq hRunning hReliable gpu (hKnown _ hMem) claim
          (a.gpuSite state now processes gpu ++ [1] ++ [entry.2]) with
        ⟨hBelongs, authorization, hVerdict⟩ | ⟨hNot, report, hVerdict⟩
      · rw [hVerdict] at hFinal
        rw [show decision = _ from hFinal]
        exact ⟨⟨rfl, rfl⟩, .inl ⟨hBelongs, rfl⟩⟩
      · rw [hVerdict] at hFinal
        exact ⟨hFinal.2, .inr ⟨hNot, hFinal.1⟩⟩

end Reliable

end Soft

end Authorizer

end GPUardian
