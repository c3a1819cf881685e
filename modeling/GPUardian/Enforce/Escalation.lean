import GPUardian.Enforce.Pass

/-! What becomes of a process that a pass decides to kill. Its entry is pending before the
escalation, and the escalation keeps it, unless the process is gone, had its SIGKILL, or
was found allowed or bypassed; so a process that ignores SIGTERM gets SIGKILL. -/
namespace GPUardian

open GoStrings List

variable {key : TerminationKey} {signals : Signals}

section Kills

variable {grace : Duration}

theorem performKill_lookup_ne (answer : KillAnswer) {request : PendingKill}
    (hKey : key ≠ request.key) (signals : Signals) :
    (performKill grace answer request signals).1.pending.lookup key =
      signals.pending.lookup key := by
  unfold performKill
  split
  · rfl
  · split
    · rfl
    · split
      · rfl
      · exact AList.lookup_insert_ne hKey

theorem executePendingKills_lookup_ne (answers : TerminationKey → KillAnswer)
    {requests : List PendingKill} (hKey : ∀ request ∈ requests, key ≠ request.key)
    (signals : Signals) :
    (executePendingKills grace answers requests signals).1.pending.lookup key =
      signals.pending.lookup key := by
  induction requests generalizing signals with
  | nil => rfl
  | cons request requests ih =>
    rw [executePendingKills_fst, ih fun other hOther => hKey other (mem_cons_of_mem _ hOther)]
    exact performKill_lookup_ne _ (hKey request mem_cons_self) signals

theorem performKill_pending (answer : KillAnswer) (request : PendingKill)
    (h : (signals.pending.lookup key).isSome) :
    ((performKill grace answer request signals).1.pending.lookup key).isSome := by
  by_cases hKey : key = request.key
  · unfold performKill
    split
    · exact h
    · split
      · exact h
      · split
        · exact h
        · rw [hKey, Signals.record, AList.lookup_insert]
          rfl
  · rw [performKill_lookup_ne answer hKey]
    exact h

theorem executePendingKills_pending (answers : TerminationKey → KillAnswer)
    (requests : List PendingKill) (h : (signals.pending.lookup key).isSome) :
    ((executePendingKills grace answers requests signals).1.pending.lookup key).isSome := by
  induction requests generalizing signals with
  | nil => exact h
  | cons request requests ih =>
    rw [executePendingKills_fst]
    exact ih (performKill_pending _ request h)

/-- A kill that nothing stops. -/
structure KillAnswer.Delivered (answer : KillAnswer) : Prop where
  ctxErr : answer.ctxErr = none
  validate : answer.validate = none
  terminate : answer.terminate = none

theorem performKill_delivered {answer : KillAnswer} (hAnswer : answer.Delivered)
    {request : PendingKill} (hPID : 0 < request.view.info.pid)
    (hStart : request.view.info.startTime ≠ 0) (signals : Signals) :
    ((performKill grace answer request signals).1.pending.lookup request.key).isSome := by
  have hSent : signalVerified request.view.info none = none := by
    unfold signalVerified
    rw [if_neg]
    rintro (hBad | hBad)
    · exact absurd hPID (not_lt.mpr hBad)
    · exact hStart hBad
  simp [performKill, hAnswer.ctxErr, hAnswer.validate, hAnswer.terminate, hSent, Signals.record]

theorem executePendingKills_delivered (answers : TerminationKey → KillAnswer)
    {requests : List PendingKill} (hViews : ∀ request ∈ requests, request.view.Verified)
    (hAnswer : (answers key).Delivered) (hPID : 0 < key.pid) (hStart : key.startTime ≠ 0)
    (hRequest : ∃ request ∈ requests, request.key = key) (signals : Signals) :
    ((executePendingKills grace answers requests signals).1.pending.lookup key).isSome := by
  induction requests generalizing signals with
  | nil =>
    obtain ⟨request, hMem, _⟩ := hRequest
    cases hMem
  | cons first requests ih =>
    rw [executePendingKills_fst]
    obtain ⟨request, hMem, rfl⟩ := hRequest
    rcases mem_cons.mp hMem with rfl | hMem
    · refine executePendingKills_pending answers requests ?_
      refine performKill_delivered hAnswer ?_ hStart signals
      exact lt_of_lt_of_eq hPID (hViews request mem_cons_self).symm
    · exact ih (fun other hOther => hViews other (mem_cons_of_mem _ hOther))
        ⟨request, hMem, rfl⟩ _

end Kills

variable {entry : Termination}

section Outcomes

variable {rules : List BypassRule} {bootID : String} {allowed : TerminationKey → Bool} {now : Time}

/-- The entry after an outcome. -/
def Escalation.next (outcome : Escalation) (entry : Termination) : Option Termination :=
  match outcome with
  | .spared | .exited | .bypassed | .survived | .exitedAtKill => none
  | .unreadable _ | .waiting | .killFailed _ => some entry
  | .forceKilled => some { entry with escalated := true }

theorem Escalation.lookup_apply_self (outcome : Escalation) (time : Time)
    (h : signals.pending.lookup entry.key = some entry) :
    (outcome.apply entry time signals).pending.lookup entry.key = outcome.next entry := by
  cases outcome with
  | spared | exited | bypassed | survived | exitedAtKill => exact AList.lookup_erase _ _
  | unreadable | waiting | killFailed => exact h
  | forceKilled => exact AList.lookup_insert _

/-- A read that shows the signalled process gone. -/
def ShowsExit (key : TerminationKey) (read : Except ReadError ProcInfo) : Prop :=
  ∃ info, terminationExited key read = .ok (true, info)

/-- The reasons for which an entry is dropped. -/
theorem escalationOf_dropped {answer : EscalationAnswer}
    (h : (escalationOf rules bootID allowed now answer entry).next entry = none) :
    allowed entry.key = true ∨
      (∃ info, answer.read = .ok info ∧ bypassMatch rules info now bootID = true) ∨
      ShowsExit entry.key answer.read ∨ ShowsExit entry.key answer.reread ∨
      entry.escalated = true := by
  unfold escalationOf at h
  split at h
  · rename_i hAllowed
    exact .inl hAllowed
  · split at h
    · cases h
    · rename_i info hRead
      exact .inr (.inr (.inl ⟨info, hRead⟩))
    · rename_i info hRead
      split at h
      · rename_i hBypass
        refine .inr (.inl ⟨info, ?_, hBypass⟩)
        cases hAnswer : answer.read with
        | error err =>
          rw [hAnswer, terminationExited] at hRead
          split at hRead <;> cases hRead
        | ok read =>
          rw [hAnswer, terminationExited] at hRead
          rw [(Prod.mk.inj (Except.ok.inj hRead)).2]
      · split at h
        · rename_i hEscalated
          exact .inr (.inr (.inr (.inr hEscalated)))
        · split at h
          · cases h
          · split at h
            · cases h
            · split at h
              · rename_i info' hReread
                exact .inr (.inr (.inr (.inl ⟨info', hReread⟩)))
              · cases h

/-- When the escalation sends SIGKILL and it is delivered. -/
theorem escalationOf_forceKilled {answer : EscalationAnswer} {info : ProcInfo}
    (hAllowed : allowed entry.key = false) (hRead : answer.read = .ok info)
    (hAlive : ¬ ShowsExit entry.key answer.read)
    (hBypass : bypassMatch rules info now bootID = false) (hFirst : entry.escalated = false)
    (hDeadline : entry.deadline ≤ now) (hEntry : entry.Identifies entry.key)
    (hKill : answer.forceKill = none) :
    escalationOf rules bootID allowed now answer entry = .forceKilled := by
  have hHere : terminationExited entry.key answer.read = .ok (false, info) := by
    rw [hRead, terminationExited]
    rw [hRead, ShowsExit, terminationExited] at hAlive
    cases hGone : info.pid != entry.key.pid || info.startTime != entry.key.startTime with
    | false => rfl
    | true =>
      rw [hGone] at hAlive
      exact absurd ⟨info, rfl⟩ hAlive
  have hSent : signalVerified entry.request.view.info answer.forceKill = none := by
    unfold signalVerified
    rw [hEntry.info_pid, hEntry.info_startTime, if_neg, hKill]
    rintro (hBad | hBad)
    · exact absurd hEntry.pid_pos (not_lt.mpr hBad)
    · exact hEntry.startTime_ne_zero hBad
  simp [escalationOf, hAllowed, hHere, hBypass, hFirst, not_lt.mpr hDeadline, hSent]

theorem escalateEntries_lookup_ne (answers : TerminationKey → EscalationAnswer)
    {entries : List Termination} (hKey : key ∉ entries.map (·.key)) (signals : Signals) :
    (escalateEntries rules bootID allowed now answers entries signals).1.pending.lookup key =
      signals.pending.lookup key := by
  induction entries generalizing signals with
  | nil => rfl
  | cons entry entries ih =>
    rw [map_cons, mem_cons, not_or] at hKey
    cases hCtx : (answers entry.key).ctxErr with
    | some text => simp only [escalateEntries, hCtx]
    | none =>
      rw [escalateEntries_fst answers entry entries signals hCtx, ih hKey.2]
      exact Escalation.lookup_apply_ne _ entry _ signals hKey.1

/-- Every stored entry gets its outcome, unless a cancelled context ends the loop first. -/
theorem escalateEntries_outcome (answers : TerminationKey → EscalationAnswer)
    {entries : List Termination} (hPID : ∀ entry ∈ entries, 0 < entry.key.pid)
    (hStored : Stored signals entries) (hEntry : entry ∈ entries) :
    let after := (escalateEntries rules bootID allowed now answers entries signals).1
    let outcome := escalationOf rules bootID allowed now (answers entry.key) entry
    (after.pending.lookup entry.key = some entry ∧ ∃ key, (answers key).ctxErr ≠ none) ∨
      (after.pending.lookup entry.key = outcome.next entry ∧
        (outcome = .forceKilled →
          .forceKill entry.key (answers entry.key).forceKillAt true ∈ after.log)) := by
  induction entries generalizing signals with
  | nil => cases hEntry
  | cons first entries ih =>
    have hRest : ∀ other ∈ entries, 0 < other.key.pid :=
      fun other hOther => hPID other (mem_cons_of_mem _ hOther)
    cases hCtx : (answers first.key).ctxErr with
    | some text =>
      refine .inl ⟨?_, first.key, by simp [hCtx]⟩
      simp only [escalateEntries, hCtx]
      exact hStored.lookup entry hEntry
    | none =>
      rw [escalateEntries_fst answers first entries signals hCtx]
      rcases mem_cons.mp hEntry with rfl | hLater
      · have hOnce := (nodup_cons.mp hStored.nodup).1
        refine .inr ⟨?_, ?_⟩
        · rw [escalateEntries_lookup_ne answers hOnce]
          exact Escalation.lookup_apply_self _ _ (hStored.lookup entry mem_cons_self)
        · intro hKilled
          refine (escalateEntries_appends answers entries hRest _).mem ?_
          rw [hKilled]
          exact mem_append_right _ mem_cons_self
      · exact ih hRest (hStored.tail _ _) hLater

end Outcomes

section Ticks

variable [Unicode] {grace : Duration} (tick : Tick) {key : TerminationKey}

/-- The identity of a process, whose SIGTERM goes through in this tick. -/
structure Tick.Delivers (tick : Tick) (key : TerminationKey) : Prop where
  pid_pos : 0 < key.pid
  startTime_ne_zero : key.startTime ≠ 0
  evict : (tick.evictKills key).Delivered
  enforce : (tick.enforceKills key).Delivered

omit [Unicode] in
/-- A plan makes no request for a pending identity. -/
theorem Plan.Sound.not_requested {plan : Plan} (h : plan.Sound signals.awaiting)
    (hPending : (signals.pending.lookup key).isSome) :
    ∀ request ∈ plan.pending, key ≠ request.key := by
  rintro request hRequest rfl
  have hFresh : (signals.pending.lookup request.key).isSome = false := h.fresh request hRequest
  rw [hFresh] at hPending
  cases hPending

omit [Unicode] in
/-- A decided kill is pending after the kills of its plan were delivered. -/
theorem Plan.Sound.delivered {plan : Plan} (h : plan.Sound signals.awaiting)
    {answers : TerminationKey → KillAnswer} (hAnswer : (answers key).Delivered) (hPID : 0 < key.pid)
    (hStart : key.startTime ≠ 0) (hKill : Reports .kill plan.decisions key) :
    ((executePendingKills grace answers plan.pending signals).1.pending.lookup key).isSome := by
  obtain ⟨decision, hDecision, hAction, hKeyPID, hKeyStart⟩ := hKill
  rcases h.decided decision hDecision hAction with hAwaiting | ⟨request, hRequest, hRowPID, hRowStart⟩
  · refine executePendingKills_pending answers plan.pending ?_
    rw [hKeyPID, hKeyStart] at hAwaiting
    exact hAwaiting
  · refine executePendingKills_delivered answers h.verified hAnswer hPID hStart ?_ signals
    refine ⟨request, hRequest, ?_⟩
    rw [PendingKill.key, hRowPID, hRowStart, hKeyPID, hKeyStart]

/-- Planning and signalling leave pending entries as they are. -/
theorem Tick.judge_lookup (state : State) (processes : List GPUProcess)
    (h : signals.pending.lookup key = some entry) :
    (tick.judge grace state processes signals).signals.pending.lookup key = some entry := by
  have hEvict : (tick.evict grace state processes signals).signals.pending.lookup key =
      some entry := by
    rw [← h]
    refine executePendingKills_lookup_ne tick.evictKills ?_ signals
    exact (tick.evict_sound state processes signals).not_requested (by rw [h]; rfl)
  rw [← hEvict]
  refine executePendingKills_lookup_ne tick.enforceKills ?_ _
  exact (tick.enforce_sound state _ _).not_requested (by rw [hEvict]; rfl)

/-- What a tick decides to kill is pending before the escalation. -/
theorem Tick.judge_pending (state : State) (processes : List GPUProcess) (signals : Signals)
    (hDelivers : tick.Delivers key)
    (hKill : Reports .kill (tick.judge grace state processes signals).decisions key) :
    ((tick.judge grace state processes signals).signals.pending.lookup key).isSome := by
  obtain ⟨decision, hDecision, hRow⟩ := hKill
  rcases mem_append.mp hDecision with hEvicted | hEnforced
  · refine executePendingKills_pending tick.enforceKills _ ?_
    exact (tick.evict_sound state processes signals).delivered hDelivers.evict hDelivers.pid_pos
      hDelivers.startTime_ne_zero ⟨decision, hEvicted, hRow⟩
  · exact (tick.enforce_sound state _ _).delivered hDelivers.enforce hDelivers.pid_pos
      hDelivers.startTime_ne_zero ⟨decision, hEnforced, hRow⟩

omit [Unicode] in
theorem reports_of_allowedKey {decisions : List Decision} (h : allowedKey decisions key = true) :
    Reports .allow decisions key := by
  obtain ⟨decision, hDecision, hRow⟩ := any_eq_true.mp h
  simp only [Bool.and_eq_true, beq_iff_eq, decide_eq_true_eq] at hRow
  obtain ⟨⟨hAction, _⟩, rfl⟩ := hRow
  exact ⟨decision, hDecision, hAction, rfl, rfl⟩

/-- What may become of a pending entry that is not let off: it stays, its process gets
SIGKILL, or it is dropped because the process is gone or had its SIGKILL already. -/
def Pursued (key : TerminationKey) (answer : EscalationAnswer) (entry : Termination)
    (after : Signals) : Prop :=
  after.pending.lookup key = some entry ∨
    (after.pending.lookup key = some { entry with escalated := true } ∧
      .forceKill key answer.forceKillAt true ∈ after.log) ∨
    (after.pending.lookup key = none ∧
      (ShowsExit key answer.read ∨ ShowsExit key answer.reread ∨ entry.escalated = true))

omit [Unicode] in
/-- The entry that the escalation works on, and its outcome. -/
theorem Tick.escalate_outcome (state : State) (result : TickResult)
    (h : Accounted grace result.signals) (hEntry : result.signals.pending.lookup key = some entry) :
    let after := (tick.escalate state result).signals
    let outcome := escalationOf state.bypasses tick.authorizer.bootID
      (allowedKey result.decisions) tick.escalateAt (tick.escalations key) entry
    (after.pending.lookup key = some entry ∧ ∃ other, (tick.escalations other).ctxErr ≠ none) ∨
      (after.pending.lookup key = outcome.next entry ∧
        (outcome = .forceKilled →
          .forceKill key (tick.escalations key).forceKillAt true ∈ after.log)) := by
  obtain rfl := (h.entries key entry hEntry).identifies.stored
  have hMem : entry ∈ result.signals.entries := by
    refine (perm_insertionSort _ _).mem_iff.mpr ?_
    exact mem_map.mpr ⟨⟨entry.key, entry⟩, AList.mem_lookup_iff.mp hEntry, rfl⟩
  refine escalateEntries_outcome tick.escalations ?_ (stored_entries h) hMem
  intro other hOther
  exact (h.entries other.key other ((stored_entries h).lookup other hOther)).identifies.pid_pos

omit [Unicode] in
/-- An entry that is not allowed again is pursued to the end of the tick. -/
theorem Tick.escalate_pursued (state : State) (result : TickResult)
    (h : Accounted grace result.signals) (hEntry : result.signals.pending.lookup key = some entry)
    (hDenied : ¬ Reports .allow result.decisions key)
    (hBypass : ∀ info, (tick.escalations key).read = .ok info →
      bypassMatch state.bypasses info tick.escalateAt tick.authorizer.bootID = false) :
    Pursued key (tick.escalations key) entry (tick.escalate state result).signals := by
  rcases tick.escalate_outcome state result h hEntry with ⟨hKept, _⟩ | ⟨hNext, hLogged⟩
  · exact .inl hKept
  · obtain rfl := (h.entries key entry hEntry).identifies.stored
    cases hOutcome : escalationOf state.bypasses tick.authorizer.bootID
        (allowedKey result.decisions) tick.escalateAt (tick.escalations entry.key) entry with
    | unreadable | waiting | killFailed =>
      rw [hOutcome] at hNext
      exact .inl hNext
    | forceKilled =>
      rw [hOutcome] at hNext
      exact .inr (.inl ⟨hNext, hLogged hOutcome⟩)
    | spared | exited | bypassed | survived | exitedAtKill =>
      have hDropped : (escalationOf state.bypasses tick.authorizer.bootID
          (allowedKey result.decisions) tick.escalateAt (tick.escalations entry.key) entry).next
          entry = none := by
        rw [hOutcome]
        rfl
      refine .inr (.inr ⟨hNext.trans hDropped, ?_⟩)
      rcases escalationOf_dropped hDropped with hAllowed | ⟨info, hRead, hMatch⟩ | hReason
      · exact absurd (reports_of_allowedKey hAllowed) hDenied
      · rw [hBypass info hRead] at hMatch
        cases hMatch
      · exact hReason

end Ticks

section Runs

variable [Unicode] {grace : Duration} {ticks : ℕ → Tick} {key : TerminationKey}

/-- The state before tick `n` of an endless run. -/
def monitorAt (grace : Duration) (ticks : ℕ → Tick) (n : ℕ) : Signals :=
  monitor grace ((List.range n).map ticks) {}

theorem monitorAt_succ (n : ℕ) :
    monitorAt grace ticks (n + 1) =
      (monitorOnce grace (ticks n) (monitorAt grace ticks n)).signals := by
  simp [monitorAt, monitor, List.range_succ]

theorem monitorAt_accounted (n : ℕ) : Accounted grace (monitorAt grace ticks n) :=
  monitor_accounted _ (Accounted.initial grace)

def ForceKilled (key : TerminationKey) (signals : Signals) : Prop :=
  ∃ time, .forceKill key time true ∈ signals.log

theorem ForceKilled.mono {n m : ℕ} (hLe : n ≤ m) (h : ForceKilled key (monitorAt grace ticks n)) :
    ForceKilled key (monitorAt grace ticks m) := by
  induction hLe with
  | refl => exact h
  | @step m _ ih =>
    obtain ⟨time, hTime⟩ := ih
    rw [monitorAt_succ]
    exact ⟨time, (monitorOnce_appends (ticks m) (monitorAt_accounted m)).mem hTime⟩

/-- In this tick the process is seen alive, or cannot be read, and no bypass covers it. -/
structure Tick.Survives (tick : Tick) (key : TerminationKey) : Prop where
  read : ¬ ShowsExit key (tick.escalations key).read
  reread : ¬ ShowsExit key (tick.escalations key).reread
  unbypassed : ∀ state info, tick.snapshot = .ok state → (tick.escalations key).read = .ok info →
    bypassMatch state.bypasses info tick.escalateAt tick.authorizer.bootID = false

/-- In this tick the escalation gets to the process and its SIGKILL is delivered. -/
structure Tick.Reaches (tick : Tick) (key : TerminationKey) : Prop where
  snapshot : ∃ state, tick.snapshot = .ok state
  uncancelled : ∀ other, (tick.escalations other).ctxErr = none
  readable : ∃ info, (tick.escalations key).read = .ok info
  delivered : (tick.escalations key).forceKill = none

/-- A tick with a snapshot ends with an escalation, which still finds a pending entry. -/
theorem monitorOnce_escalates (tick : Tick) (h : Accounted grace signals)
    (hEntry : signals.pending.lookup key = some entry) {state : State}
    (hSnapshot : tick.snapshot = .ok state) :
    ∃ result, monitorOnce grace tick signals = tick.escalate state result ∧
      Accounted grace result.signals ∧ result.signals.pending.lookup key = some entry := by
  simp only [monitorOnce, hSnapshot]
  split
  · exact ⟨{ signals := signals }, rfl, h, hEntry⟩
  · rename_i processes _
    exact ⟨tick.judge grace state processes signals, rfl,
      h.run (tick.judge_run state processes signals), tick.judge_lookup state processes hEntry⟩

omit [Unicode] in
/-- A surviving process that is not let off stays pending, or has had its SIGKILL. -/
theorem Tick.escalate_survives (tick : Tick) (state : State) (result : TickResult)
    (hSnapshot : tick.snapshot = .ok state) (h : Accounted grace result.signals)
    (hEntry : result.signals.pending.lookup key = some entry)
    (hDenied : ¬ Reports .allow result.decisions key) (hSurvives : tick.Survives key) :
    (tick.escalate state result).signals.pending.lookup key = some entry ∨
      ForceKilled key (tick.escalate state result).signals := by
  have hPursued := tick.escalate_pursued state result h hEntry hDenied
    fun info hRead => hSurvives.unbypassed state info hSnapshot hRead
  rcases hPursued with hKept | ⟨_, hKilled⟩ | ⟨_, hExit | hExit | hEscalated⟩
  · exact .inl hKept
  · exact .inr ⟨_, hKilled⟩
  · exact absurd hExit hSurvives.read
  · exact absurd hExit hSurvives.reread
  · obtain ⟨time, hTime⟩ := (h.entries key entry hEntry).escalated hEscalated
    exact .inr ⟨time, (tick.escalate_appends state result h).mem hTime⟩

theorem monitorOnce_survives (tick : Tick) (h : Accounted grace signals)
    (hEntry : signals.pending.lookup key = some entry)
    (hDenied : ¬ Reports .allow (monitorOnce grace tick signals).decisions key)
    (hSurvives : tick.Survives key) :
    (monitorOnce grace tick signals).signals.pending.lookup key = some entry ∨
      ForceKilled key (monitorOnce grace tick signals).signals := by
  cases hSnapshot : tick.snapshot with
  | error text =>
    left
    simpa only [monitorOnce, hSnapshot] using hEntry
  | ok state =>
    obtain ⟨result, hResult, hAccounted, hLater⟩ := monitorOnce_escalates tick h hEntry hSnapshot
    rw [hResult] at hDenied ⊢
    exact tick.escalate_survives state result hSnapshot hAccounted hLater hDenied hSurvives

/-- A tick after the deadline that reaches the process sends SIGKILL, unless one was sent. -/
theorem monitorOnce_reaches (tick : Tick) (h : Accounted grace signals)
    (hEntry : signals.pending.lookup key = some entry)
    (hDenied : ¬ Reports .allow (monitorOnce grace tick signals).decisions key)
    (hSurvives : tick.Survives key) (hReaches : tick.Reaches key)
    (hDeadline : entry.deadline ≤ tick.escalateAt) :
    ForceKilled key (monitorOnce grace tick signals).signals := by
  obtain ⟨state, hSnapshot⟩ := hReaches.snapshot
  obtain ⟨info, hRead⟩ := hReaches.readable
  obtain ⟨result, hResult, hAccounted, hLater⟩ := monitorOnce_escalates tick h hEntry hSnapshot
  rw [hResult] at hDenied ⊢
  have hAccount := hAccounted.entries key entry hLater
  cases hEscalated : entry.escalated with
  | true =>
    obtain ⟨time, hTime⟩ := hAccount.escalated hEscalated
    exact ⟨time, (tick.escalate_appends state result hAccounted).mem hTime⟩
  | false =>
    obtain rfl := hAccount.identifies.stored
    have hAllowed : allowedKey result.decisions entry.key = false := by
      rw [Bool.eq_false_iff]
      exact fun hAllowed => hDenied (reports_of_allowedKey hAllowed)
    have hOutcome := escalationOf_forceKilled hAllowed hRead hSurvives.read
      (hSurvives.unbypassed state info hSnapshot hRead) hEscalated hDeadline hAccount.identifies
      hReaches.delivered
    rcases tick.escalate_outcome state result hAccounted hLater with ⟨_, other, hCtx⟩ | ⟨_, hLogged⟩
    · exact absurd (hReaches.uncancelled other) hCtx
    · exact ⟨_, hLogged hOutcome⟩

/-- From a pending entry on, the process keeps it until its SIGKILL. -/
theorem monitorAt_survives
    (hDenied : ∀ n, ¬ Reports .allow
      (monitorOnce grace (ticks n) (monitorAt grace ticks n)).decisions key)
    (hSurvives : ∀ n, (ticks n).Survives key) {n m : ℕ} (hLe : n ≤ m)
    (hEntry : (monitorAt grace ticks n).pending.lookup key = some entry) :
    (monitorAt grace ticks m).pending.lookup key = some entry ∨
      ForceKilled key (monitorAt grace ticks m) := by
  induction hLe with
  | refl => exact .inl hEntry
  | @step m _ ih =>
    rcases ih with hPending | hKilled
    · rw [monitorAt_succ]
      exact monitorOnce_survives (ticks m) (monitorAt_accounted m) hPending (hDenied m)
        (hSurvives m)
    · exact .inr (hKilled.mono (Nat.le_succ m))

/-- A tick that decides to kill and delivers SIGTERM leaves the process pending, or it has
had its SIGKILL. -/
theorem monitorOnce_signals (tick : Tick) (h : Accounted grace signals)
    (hDelivers : tick.Delivers key)
    (hKill : Reports .kill (monitorOnce grace tick signals).decisions key)
    (hDenied : ¬ Reports .allow (monitorOnce grace tick signals).decisions key)
    (hSurvives : tick.Survives key) :
    (∃ entry, (monitorOnce grace tick signals).signals.pending.lookup key = some entry) ∨
      ForceKilled key (monitorOnce grace tick signals).signals := by
  unfold monitorOnce at hKill hDenied ⊢
  cases hSnapshot : tick.snapshot with
  | error text =>
    simp only [hSnapshot, Reports, not_mem_nil, false_and, exists_false] at hKill
  | ok state =>
    cases hSample : tick.sample with
    | error text =>
      simp only [hSnapshot, hSample, escalateTerminationsWithoutSample, Tick.escalate, Reports,
        not_mem_nil, false_and, exists_false] at hKill
    | ok processes =>
      simp only [hSnapshot, hSample] at hKill hDenied ⊢
      have hJudged := tick.judge_pending state processes signals hDelivers hKill
      obtain ⟨entry, hEntry⟩ := Option.isSome_iff_exists.mp hJudged
      have hAccounted := h.run (tick.judge_run state processes signals)
      rcases tick.escalate_survives state _ hSnapshot hAccounted hEntry hDenied hSurvives with
        hKept | hKilled
      · exact .inl ⟨entry, hKept⟩
      · exact .inr hKilled

/-- A kill that a pass decides is carried out, where no decision of the pass allows the
process and no bypass rule covers it as the escalation reads it. Its entry is pending
once SIGTERM is delivered, and the escalation keeps it or sends SIGKILL until the process
is gone or had its SIGKILL. So a process that is never allowed or bypassed and does not
exit gets SIGKILL, if the escalation gets to it again and again. -/
theorem decided_kill_is_carried_out (grace : Duration) (key : TerminationKey) :
    (∀ ticks tick state processes,
      let pass := enforcePass grace tick state processes (monitor grace ticks {})
      let signalled := (tick.judge grace state processes (monitor grace ticks {})).signals
      Reports .kill pass.decisions key → ¬ Reports .allow pass.decisions key →
      (∀ info, (tick.escalations key).read = .ok info →
        bypassMatch state.bypasses info tick.escalateAt tick.authorizer.bootID = false) →
      (tick.Delivers key → ∃ entry, signalled.pending.lookup key = some entry) ∧
      ∀ entry, signalled.pending.lookup key = some entry →
        Pursued key (tick.escalations key) entry pass.signals) ∧
    ∀ ticks : ℕ → Tick,
      (∀ n, ¬ Reports .allow
        (monitorOnce grace (ticks n) (monitorAt grace ticks n)).decisions key) →
      (∀ n, (ticks n).Survives key) →
      (∃ n, (ticks n).Delivers key ∧
        Reports .kill (monitorOnce grace (ticks n) (monitorAt grace ticks n)).decisions key) →
      (∀ time n, ∃ m, n ≤ m ∧ time ≤ (ticks m).escalateAt ∧ (ticks m).Reaches key) →
      ∃ n time, .forceKill key time true ∈ (monitorAt grace ticks n).log := by
  refine ⟨?_, ?_⟩
  · intro ticks tick state processes pass signalled hKill hDenied hBypass
    have hAccounted : Accounted grace (monitor grace ticks {}) :=
      monitor_accounted ticks (Accounted.initial grace)
    refine ⟨?_, ?_⟩
    · intro hDelivers
      exact Option.isSome_iff_exists.mp (tick.judge_pending state processes _ hDelivers hKill)
    · intro entry hEntry
      exact tick.escalate_pursued state _ (hAccounted.run (tick.judge_run state processes _)) hEntry
        hDenied hBypass
  · intro ticks hDenied hSurvives ⟨n, hDelivers, hKill⟩ hReaches
    have hSignalled := monitorOnce_signals (ticks n) (monitorAt_accounted n) hDelivers hKill
      (hDenied n) (hSurvives n)
    rw [← monitorAt_succ] at hSignalled
    rcases hSignalled with ⟨entry, hEntry⟩ | hKilled
    · obtain ⟨m, hLe, hDeadline, hReach⟩ := hReaches entry.deadline (n + 1)
      rcases monitorAt_survives hDenied hSurvives hLe hEntry with hPending | hKilled
      · refine ⟨m + 1, ?_⟩
        rw [monitorAt_succ]
        exact monitorOnce_reaches (ticks m) (monitorAt_accounted m) hPending (hDenied m)
          (hSurvives m) hReach hDeadline
      · exact ⟨m, hKilled⟩
    · exact ⟨n + 1, hKilled⟩

end Runs

section Samples

open scoped Plain

/-- An endless run in which the intruder ignores its SIGTERM. -/
def stubbornIntrusion (n : ℕ) : Tick :=
  { intrusion 10 with
    escalateAt := 10 + n
    escalations := fun _ =>
      { read := .ok intruder, forceKillAt := 10 + n, reread := .ok intruder }
    ordered := fun _ => le_rfl }

/-- Whether SIGTERM went out before or not, the intruder is to be killed. -/
theorem stubbornIntrusion_decisions (n : ℕ) (signals : Signals) :
    ((monitorOnce 2 (stubbornIntrusion n) signals).decisions.map fun decision =>
      (decision.action, decision.process.pid, decision.info.startTime)) = [(.kill, 7, 3)] := by
  have hEnforce : ∀ awaiting : Int → Nat → Bool,
      ((@Authorizer.enforce (authorizerOf [intruder]) ascii awaiting reservedGPU
        [{ gpu := 1, pid := 7, memBytes := 1 }] 10).decisions.map fun decision =>
        (decision.action, decision.process.pid, decision.info.startTime)) = [(.kill, 7, 3)] := by
    intro awaiting
    have hAwaiting : awaiting = fun pid startTime =>
        if pid = 7 ∧ startTime = 3 then awaiting 7 3 else awaiting pid startTime := by
      funext pid startTime
      split
      · rename_i hKey
        rw [hKey.1, hKey.2]
      · rfl
    rw [hAwaiting]
    cases awaiting 7 3 <;> rfl
  exact hEnforce signals.awaiting

theorem reports_iff_mem_map {action : Action} {decisions : List Decision} :
    Reports action decisions key ↔ (action, key.pid, key.startTime) ∈ decisions.map
      fun decision => (decision.action, decision.process.pid, decision.info.startTime) := by
  simp [Reports]

theorem decided_kill_is_carried_out_stubborn :
    ∃ n time, .forceKill ⟨7, 3⟩ time true ∈ (monitorAt 2 stubbornIntrusion n).log := by
  have hAlive : ¬ ShowsExit ⟨7, 3⟩ (.ok intruder) := by
    rintro ⟨info, hExit⟩
    simp [terminationExited, intruder] at hExit
  refine (@decided_kill_is_carried_out ascii 2 ⟨7, 3⟩).2 stubbornIntrusion ?_ ?_ ?_ ?_
  · intro n
    rw [reports_iff_mem_map, stubbornIntrusion_decisions]
    decide
  · intro n
    refine ⟨hAlive, hAlive, ?_⟩
    rintro state info ⟨⟩ ⟨⟩
    rfl
  · refine ⟨0, ⟨by decide, by decide, ⟨rfl, rfl, rfl⟩, ⟨rfl, rfl, rfl⟩⟩, ?_⟩
    rw [reports_iff_mem_map, stubbornIntrusion_decisions]
    decide
  · intro time n
    refine ⟨max n time.toNat, le_max_left _ _, ?_, ⟨_, rfl⟩, fun _ => rfl, ⟨intruder, rfl⟩, rfl⟩
    have hTime : time ≤ (max n time.toNat : ℕ) :=
      (Int.self_le_toNat time).trans (Int.ofNat_le.mpr (le_max_right _ _))
    exact hTime.trans (Int.le_add_of_nonneg_left (by decide))

/-- GPU 0 is reserved for the owner of the process, GPU 1 for somebody else. -/
def twoOwners : State :=
  { tokens := [{ hash := "a", mode := "reserved" }, { hash := "b", mode := "reserved" }]
    reservations :=
      [{ id := "r0", gpu := 0, tokenHash := "a", holder := "ann", startsAt := 1, expiresAt := 100,
         active := true },
       { id := "r1", gpu := 1, tokenHash := "b", holder := "bob", startsAt := 1, expiresAt := 100,
         active := true }]
    authorizations := [{ id := "x", mode := "user", tokenHash := "a", uid := 1000, active := true }] }

/-- GPU 1 is reserved, and root's backup command may use it. -/
def backupAllowed : State :=
  { reservedGPU with
    bypasses := [{ id := "p", type := "command", command := "/usr/bin/backup", expiresAt := 100 }] }

/-- Two passes that decide to kill a live process and drop its termination all the same:
another GPU allows the process, and the process has become the bypassed command since it
was judged. -/
theorem decided_kill_dropped :
    let both : List GPUProcess :=
      [{ gpu := 0, pid := 7, memBytes := 1 }, { gpu := 1, pid := 7, memBytes := 1 }]
    let shared := enforcePass 2 (tickAt 10 twoOwners both [intruder] (.ok intruder)) twoOwners both {}
    let shell : ProcInfo := { pid := 7, startTime := 3, commandPath := "/bin/sh" }
    let one : List GPUProcess := [{ gpu := 1, pid := 7, memBytes := 1 }]
    let replaced := enforcePass 2 (tickAt 10 backupAllowed one [shell]
      (.ok { shell with commandPath := "/usr/bin/backup" })) backupAllowed one {}
    (Reports .kill shared.decisions ⟨7, 3⟩ ∧
      shared.signals.log = [.terminated ⟨7, 3⟩ 10, .removed ⟨7, 3⟩] ∧
      shared.audits.map (·.kind) = ["kill_term", "kill_cancelled"]) ∧
    (Reports .kill replaced.decisions ⟨7, 3⟩ ∧ ¬ Reports .allow replaced.decisions ⟨7, 3⟩ ∧
      replaced.signals.log = [.terminated ⟨7, 3⟩ 10, .removed ⟨7, 3⟩] ∧
      replaced.audits.map (·.kind) = ["kill_term", "kill_cancelled"]) := by
  decide +kernel

end Samples

end GPUardian
