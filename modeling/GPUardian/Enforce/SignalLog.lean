import GPUardian.Enforce.Terminations
import Mathlib.Logic.Relation

/-! What the log of a run looks like. Everything the kill path and the escalation do to
the pending map is one of four steps, and the steps keep the log in order: a SIGKILL
has its SIGTERM a grace period before it, and each SIGTERM pays for one SIGKILL. -/
namespace GPUardian

open List

/-- The changes of the pending map and the log that the code makes. -/
inductive SignalStep (grace : Duration) (signals : Signals) : Signals → Prop where
  | terminate (request : PendingKill) (time deadline : Time) (hView : request.view.Verified)
      (hPID : 0 < request.view.info.pid) (hStart : request.view.info.startTime ≠ 0)
      (hDeadline : time + grace ≤ deadline) :
      SignalStep grace signals (signals.record request time deadline)
  | remove (key : TerminationKey) : SignalStep grace signals (signals.remove key)
  | forceKill (entry : Termination) (time : Time)
      (hEntry : signals.pending.lookup entry.key = some entry) (hFirst : entry.escalated = false)
      (hDeadline : entry.deadline ≤ time) :
      SignalStep grace signals (signals.markEscalated entry time)
  | forceKillFailed (entry : Termination) (time : Time)
      (hEntry : signals.pending.lookup entry.key = some entry) (hDeadline : entry.deadline ≤ time) :
      SignalStep grace signals (signals.forceKillFailed entry.key time)

/-- A SIGTERM of `key` at least a grace period before `time`, with the entry not removed
since and, where `fresh`, no successful SIGKILL since. -/
def TerminatedSince (grace : Duration) (log : List Signal) (key : TerminationKey) (time : Time)
    (fresh : Bool) : Prop :=
  ∃ before sent after, log = before ++ .terminated key sent :: after ∧ sent + grace ≤ time ∧
    .removed key ∉ after ∧ (fresh = true → ∀ t, .forceKill key t true ∉ after)

variable {grace : Duration} {log : List Signal} {key : TerminationKey} {time : Time}
variable {signal : Signal}

theorem TerminatedSince.extend {fresh : Bool} (h : TerminatedSince grace log key time fresh)
    (hRemoved : signal ≠ .removed key)
    (hForced : fresh = true → ∀ t, signal ≠ .forceKill key t true) :
    TerminatedSince grace (log ++ [signal]) key time fresh := by
  obtain ⟨before, sent, after, rfl, hTime, hAfter, hFresh⟩ := h
  refine ⟨before, sent, after ++ [signal], by simp, hTime, ?_, ?_⟩
  · simp only [mem_append, mem_singleton, not_or]
    exact ⟨hAfter, hRemoved.symm⟩
  · intro hTrue t
    simp only [mem_append, mem_singleton, not_or]
    exact ⟨hFresh hTrue t, (hForced hTrue t).symm⟩

theorem TerminatedSince.later {later : Time} {fresh fresh' : Bool}
    (h : TerminatedSince grace log key time fresh) (hTime : time ≤ later)
    (hFresh : fresh' = true → fresh = true) : TerminatedSince grace log key later fresh' := by
  obtain ⟨before, sent, after, hLog, hSent, hAfter, hForced⟩ := h
  exact ⟨before, sent, after, hLog, hSent.trans hTime, hAfter, fun hTrue => hForced (hFresh hTrue)⟩

/-- An entry stored under its own key, with the information that both signals name: that
of a process with a PID and a start time. -/
structure Termination.Identifies (entry : Termination) (key : TerminationKey) : Prop where
  stored : entry.key = key
  info_pid : entry.request.view.info.pid = key.pid
  info_startTime : entry.request.view.info.startTime = key.startTime
  pid_pos : 0 < key.pid
  startTime_ne_zero : key.startTime ≠ 0

/-- What the log says about a pending entry. -/
structure EntryAccounted (grace : Duration) (log : List Signal) (key : TerminationKey)
    (entry : Termination) : Prop where
  identifies : entry.Identifies key
  /-- The entry has the SIGTERM it was recorded for. -/
  terminated : TerminatedSince grace log key entry.deadline (!entry.escalated)
  /-- An escalated entry has had its SIGKILL. -/
  escalated : entry.escalated = true → ∃ time, .forceKill key time true ∈ log

variable {entry : Termination}

theorem EntryAccounted.extend (h : EntryAccounted grace log key entry)
    (hRemoved : signal ≠ .removed key) (hForced : ∀ t, signal ≠ .forceKill key t true) :
    EntryAccounted grace (log ++ [signal]) key entry := by
  refine ⟨h.identifies, h.terminated.extend hRemoved fun _ => hForced, ?_⟩
  intro hEscalated
  obtain ⟨time, hTime⟩ := h.escalated hEscalated
  exact ⟨time, mem_append_left _ hTime⟩

/-- The invariant of runs. -/
structure Accounted (grace : Duration) (signals : Signals) : Prop where
  entries : ∀ key entry, signals.pending.lookup key = some entry →
    EntryAccounted grace signals.log key entry
  /-- Every SIGKILL has a SIGTERM, too. -/
  forced : ∀ before key time ok after, signals.log = before ++ .forceKill key time ok :: after →
    TerminatedSince grace before key time ok

theorem Accounted.initial (grace : Duration) : Accounted grace {} := by
  refine ⟨?_, ?_⟩
  · intro key entry hEntry
    rw [AList.lookup_empty] at hEntry
    cases hEntry
  · intro before key time ok after hLog
    simp at hLog

/-- The last signal of a log, or one before it. -/
theorem split_of_append_eq {α : Type} {log before after : List α} {new old : α}
    (h : log ++ [new] = before ++ old :: after) :
    (after = [] ∧ new = old ∧ log = before) ∨
      ∃ rest, after = rest ++ [new] ∧ log = before ++ old :: rest := by
  rcases eq_nil_or_concat after with rfl | ⟨rest, last, rfl⟩
  · have hEq := append_inj' h rfl
    exact .inl ⟨rfl, by simpa using hEq.2, hEq.1⟩
  · have hEq : log ++ [new] = (before ++ old :: rest) ++ [last] := by simpa using h
    have hParts := append_inj' hEq rfl
    refine .inr ⟨rest, ?_, hParts.1⟩
    rw [show new = last by simpa using hParts.2, concat_eq_append]

/-- A signal that is no SIGKILL, or one that is accounted for, keeps the SIGKILLs so. -/
theorem forced_extend
    (h : ∀ before key time ok after, log = before ++ .forceKill key time ok :: after →
      TerminatedSince grace before key time ok)
    (hNew : ∀ key time ok, signal = .forceKill key time ok → TerminatedSince grace log key time ok) :
    ∀ before key time ok after, log ++ [signal] = before ++ .forceKill key time ok :: after →
      TerminatedSince grace before key time ok := by
  intro before key time ok after hLog
  rcases split_of_append_eq hLog with ⟨_, hSignal, rfl⟩ | ⟨rest, _, hOld⟩
  · exact hNew key time ok hSignal
  · exact h before key time ok rest hOld

/-- Every change of the pending map is accounted for in the log. -/
theorem Accounted.step {signals next : Signals} (h : Accounted grace signals)
    (hStep : SignalStep grace signals next) : Accounted grace next := by
  cases hStep with
  | terminate request time deadline hView hPID hStart hDeadline =>
    refine ⟨?_, forced_extend h.forced (by nofun)⟩
    intro key entry hEntry
    by_cases hKey : key = request.key
    · subst hKey
      rw [Signals.record, AList.lookup_insert] at hEntry
      cases hEntry
      exact ⟨⟨rfl, hView, rfl, lt_of_lt_of_eq hPID hView, hStart⟩,
        ⟨signals.log, time, [], rfl, hDeadline, not_mem_nil, fun _ _ => not_mem_nil⟩,
        nofun⟩
    · rw [Signals.record, AList.lookup_insert_ne hKey] at hEntry
      exact (h.entries key entry hEntry).extend (by nofun) (by nofun)
  | remove removed =>
    refine ⟨?_, forced_extend h.forced (by nofun)⟩
    intro key entry hEntry
    by_cases hKey : key = removed
    · subst hKey
      rw [Signals.remove, AList.lookup_erase] at hEntry
      cases hEntry
    · rw [Signals.remove, AList.lookup_erase_ne hKey] at hEntry
      refine (h.entries key entry hEntry).extend ?_ (by nofun)
      rintro ⟨⟩
      exact hKey rfl
  | forceKill forced time hForced hFirst hDeadline =>
    have hOld := h.entries forced.key forced hForced
    have hBacked := hOld.terminated
    rw [hFirst, Bool.not_false] at hBacked
    refine ⟨?_, forced_extend h.forced ?_⟩
    · intro key entry hEntry
      by_cases hKey : key = forced.key
      · subst hKey
        rw [Signals.markEscalated, AList.lookup_insert] at hEntry
        cases hEntry
        refine ⟨⟨rfl, hOld.identifies.info_pid, hOld.identifies.info_startTime,
          hOld.identifies.pid_pos, hOld.identifies.startTime_ne_zero⟩,
          (hBacked.later le_rfl (by nofun)).extend (by nofun) (by nofun), ?_⟩
        intro _
        exact ⟨time, mem_append_right _ mem_cons_self⟩
      · rw [Signals.markEscalated, AList.lookup_insert_ne hKey] at hEntry
        refine (h.entries key entry hEntry).extend (by nofun) ?_
        rintro t ⟨⟩
        exact hKey rfl
    · rintro key at' ok ⟨⟩
      exact hBacked.later hDeadline id
  | forceKillFailed forced time hForced hDeadline =>
    refine ⟨?_, forced_extend h.forced ?_⟩
    · intro key entry hEntry
      exact (h.entries key entry hEntry).extend (by nofun) (by nofun)
    · rintro key at' ok ⟨⟩
      exact (h.entries forced.key forced hForced).terminated.later hDeadline (by nofun)

theorem Accounted.run {signals next : Signals} (h : Accounted grace signals)
    (hRun : Relation.ReflTransGen (SignalStep grace) signals next) : Accounted grace next := by
  induction hRun with
  | refl => exact h
  | tail _ hStep ih => exact ih.step hStep

/-- Between two successful SIGKILLs of one identity lies a SIGTERM of it. -/
theorem Accounted.terminated_between {signals : Signals} (h : Accounted grace signals)
    {first second third : List Signal} {later : Time}
    (hLog : signals.log = first ++ .forceKill key time true :: (second ++
      .forceKill key later true :: third)) : ∃ sent, .terminated key sent ∈ second := by
  have hLog' : signals.log = (first ++ .forceKill key time true :: second) ++
      .forceKill key later true :: third := by simpa using hLog
  obtain ⟨before, sent, after, hSplit, _, _, hForced⟩ := h.forced _ key later true third hLog'
  -- The SIGTERM is not before the first SIGKILL, which would then stand after it.
  refine ⟨sent, ?_⟩
  rcases append_eq_append_iff.mp hSplit with ⟨rest, hBefore, hTail⟩ | ⟨rest, hFirst, hTail⟩
  · cases rest with
    | nil => simp at hTail
    | cons head rest =>
      simp only [cons_append, cons.injEq] at hTail
      rw [hTail.2]
      simp
  · cases rest with
    | nil => simp at hTail
    | cons head rest =>
      simp only [cons_append, cons.injEq] at hTail
      refine absurd ?_ (hForced rfl time)
      rw [hTail.2]
      simp

/-- From one state to the other only signals of a kind were logged. -/
def Appends (kind : Signal → Prop) (before after : Signals) : Prop :=
  ∃ new, after.log = before.log ++ new ∧ ∀ signal ∈ new, kind signal

namespace Appends

variable {kind : Signal → Prop} {first second third : Signals}

theorem refl (signals : Signals) : Appends kind signals signals :=
  ⟨[], (append_nil _).symm, fun _ hMem => absurd hMem not_mem_nil⟩

theorem trans (h : Appends kind first second) (h' : Appends kind second third) :
    Appends kind first third := by
  obtain ⟨new, hLog, hNew⟩ := h
  obtain ⟨new', hLog', hNew'⟩ := h'
  refine ⟨new ++ new', by rw [hLog', hLog, append_assoc], ?_⟩
  intro signal hSignal
  rcases mem_append.mp hSignal with hOld | hLate
  · exact hNew signal hOld
  · exact hNew' signal hLate

theorem mono {kind' : Signal → Prop} (h : Appends kind first second)
    (hKind : ∀ signal, kind signal → kind' signal) : Appends kind' first second := by
  obtain ⟨new, hLog, hNew⟩ := h
  exact ⟨new, hLog, fun signal hSignal => hKind signal (hNew signal hSignal)⟩

theorem mem (h : Appends kind first second) (hSignal : signal ∈ first.log) :
    signal ∈ second.log := by
  obtain ⟨new, hLog, _⟩ := h
  rw [hLog]
  exact mem_append_left _ hSignal

theorem single (hLog : second.log = first.log ++ [signal]) (hKind : kind signal) :
    Appends kind first second := by
  refine ⟨[signal], hLog, ?_⟩
  intro other hOther
  rw [mem_singleton.mp hOther]
  exact hKind

end Appends

def Signal.IsTerminated (signal : Signal) : Prop := ∃ key time, signal = .terminated key time

section Kills

variable {grace : Duration}

theorem signalVerified_eq_none {info : ProcInfo} {answer : Option String}
    (h : signalVerified info answer = none) : 0 < info.pid ∧ info.startTime ≠ 0 ∧ answer = none := by
  unfold signalVerified at h
  split at h
  · cases h
  · rename_i hValid
    rw [not_or, not_le] at hValid
    exact ⟨hValid.1, hValid.2, h⟩

theorem performKill_run (answer : KillAnswer) {request : PendingKill}
    (hView : request.view.Verified) (signals : Signals) :
    Relation.ReflTransGen (SignalStep grace) signals
      (performKill grace answer request signals).1 := by
  unfold performKill
  split
  · exact .refl
  · split
    · exact .refl
    · split
      · exact .refl
      · rename_i hSent
        obtain ⟨hPID, hStart, _⟩ := signalVerified_eq_none hSent
        exact .single (.terminate request _ _ hView hPID hStart (Int.add_le_add_right answer.ordered grace))

theorem executePendingKills_fst (answers : TerminationKey → KillAnswer) (request : PendingKill)
    (rest : List PendingKill) (signals : Signals) :
    (executePendingKills grace answers (request :: rest) signals).1 =
      (executePendingKills grace answers rest
        (performKill grace (answers request.key) request signals).1).1 := by
  simp only [executePendingKills]
  split <;> rfl

theorem executePendingKills_run (answers : TerminationKey → KillAnswer)
    (requests : List PendingKill) (hViews : ∀ request ∈ requests, request.view.Verified)
    (signals : Signals) :
    Relation.ReflTransGen (SignalStep grace) signals
      (executePendingKills grace answers requests signals).1 := by
  induction requests generalizing signals with
  | nil => exact .refl
  | cons request requests ih =>
    rw [executePendingKills_fst]
    refine (performKill_run (answers request.key) (hViews request mem_cons_self)
      signals).trans ?_
    exact ih (fun other hOther => hViews other (mem_cons_of_mem _ hOther)) _

theorem performKill_appends (answer : KillAnswer) (request : PendingKill) (signals : Signals) :
    Appends Signal.IsTerminated signals (performKill grace answer request signals).1 := by
  unfold performKill
  split
  · exact .refl _
  · split
    · exact .refl _
    · split
      · exact .refl _
      · exact .single rfl ⟨_, _, rfl⟩

theorem executePendingKills_appends (answers : TerminationKey → KillAnswer)
    (requests : List PendingKill) (signals : Signals) :
    Appends Signal.IsTerminated signals
      (executePendingKills grace answers requests signals).1 := by
  induction requests generalizing signals with
  | nil => exact .refl _
  | cons request requests ih =>
    rw [executePendingKills_fst]
    exact (performKill_appends _ request signals).trans (ih _)

end Kills

section Escalations

variable {rules : List BypassRule} {bootID : String} {allowed : TerminationKey → Bool} {now : Time}

/-- The outcomes that come after a SIGKILL was tried. -/
def Escalation.signals : Escalation → Bool
  | .forceKilled | .exitedAtKill | .killFailed _ => true
  | _ => false

/-- SIGKILL is tried for an entry that no decision allows, that has not had one, and
whose grace period is over. -/
theorem escalationOf_signals {answer : EscalationAnswer}
    (h : (escalationOf rules bootID allowed now answer entry).signals = true) :
    allowed entry.key = false ∧ entry.escalated = false ∧ entry.deadline ≤ now := by
  unfold escalationOf at h
  split at h
  · cases h
  · rename_i hAllowed
    split at h
    · cases h
    · cases h
    · split at h
      · cases h
      · split at h
        · cases h
        · rename_i hFirst
          split at h
          · cases h
          · rename_i hDeadline
            exact ⟨by simpa using hAllowed, by simpa using hFirst, not_lt.mp hDeadline⟩

/-- An outcome changes nothing for other identities. -/
theorem Escalation.lookup_apply_ne (outcome : Escalation) (entry : Termination) (time : Time)
    (signals : Signals) (hKey : key ≠ entry.key) :
    (outcome.apply entry time signals).pending.lookup key = signals.pending.lookup key := by
  cases outcome with
  | spared | exited | bypassed | survived | exitedAtKill => exact AList.lookup_erase_ne hKey
  | forceKilled => exact AList.lookup_insert_ne hKey
  | unreadable | waiting | killFailed => rfl

theorem Escalation.apply_run (outcome : Escalation) (entry : Termination) (time : Time)
    {signals : Signals} (hEntry : signals.pending.lookup entry.key = some entry)
    (hSignals : outcome.signals = true → entry.escalated = false ∧ entry.deadline ≤ time) :
    Relation.ReflTransGen (SignalStep grace) signals (outcome.apply entry time signals) := by
  cases outcome with
  | spared | exited | bypassed | survived => exact .single (.remove entry.key)
  | unreadable | waiting => exact .refl
  | forceKilled =>
    exact .single (.forceKill entry time hEntry (hSignals rfl).1 (hSignals rfl).2)
  | exitedAtKill =>
    exact (Relation.ReflTransGen.single (.forceKillFailed entry time hEntry (hSignals rfl).2)).tail
      (.remove entry.key)
  | killFailed text => exact .single (.forceKillFailed entry time hEntry (hSignals rfl).2)

/-- A list of entries as they are stored, each once. -/
structure Stored (signals : Signals) (entries : List Termination) : Prop where
  nodup : (entries.map (·.key)).Nodup
  lookup : ∀ entry ∈ entries, signals.pending.lookup entry.key = some entry

theorem Stored.tail {signals : Signals} {entries : List Termination}
    (h : Stored signals (entry :: entries)) (outcome : Escalation) (time : Time) :
    Stored (outcome.apply entry time signals) entries := by
  have hNodup := nodup_cons.mp h.nodup
  refine ⟨hNodup.2, ?_⟩
  intro other hOther
  rw [Escalation.lookup_apply_ne]
  · exact h.lookup other (mem_cons_of_mem _ hOther)
  · intro hKey
    exact hNodup.1 (mem_map.mpr ⟨other, hOther, hKey⟩)

/-- The entries of a pass are stored, under distinct keys. -/
theorem stored_entries {signals : Signals} (h : Accounted grace signals) :
    Stored signals signals.entries := by
  have hPerm : signals.entries.Perm (signals.pending.entries.map (·.2)) :=
    perm_insertionSort _ _
  have hLookup : ∀ pair ∈ signals.pending.entries, signals.pending.lookup pair.1 = some pair.2 := by
    intro pair hPair
    exact AList.mem_lookup_iff.mpr hPair
  have hKeys : (signals.pending.entries.map (·.2)).map (·.key) = signals.pending.keys := by
    rw [map_map]
    exact map_congr_left fun pair hPair => (h.entries pair.1 pair.2 (hLookup pair hPair)).identifies.stored
  refine ⟨?_, ?_⟩
  · rw [(hPerm.map _).nodup_iff, hKeys]
    exact signals.pending.keys_nodup
  · intro entry hEntry
    obtain ⟨pair, hPair, rfl⟩ := mem_map.mp (hPerm.mem_iff.mp hEntry)
    rw [(h.entries pair.1 pair.2 (hLookup pair hPair)).identifies.stored]
    exact hLookup pair hPair

theorem escalateEntries_fst (answers : TerminationKey → EscalationAnswer) (entry : Termination)
    (rest : List Termination) (signals : Signals) (hCtx : (answers entry.key).ctxErr = none) :
    (escalateEntries rules bootID allowed now answers (entry :: rest) signals).1 =
      (escalateEntries rules bootID allowed now answers rest
        ((escalationOf rules bootID allowed now (answers entry.key) entry).apply entry
          (answers entry.key).forceKillAt signals)).1 := by
  simp only [escalateEntries, hCtx]

theorem escalateEntries_run (answers : TerminationKey → EscalationAnswer)
    (hTime : ∀ key, now ≤ (answers key).forceKillAt) (entries : List Termination)
    {signals : Signals} (hStored : Stored signals entries) :
    Relation.ReflTransGen (SignalStep grace) signals
      (escalateEntries rules bootID allowed now answers entries signals).1 := by
  induction entries generalizing signals with
  | nil => exact .refl
  | cons entry entries ih =>
    cases hCtx : (answers entry.key).ctxErr with
    | some text =>
      simp only [escalateEntries, hCtx]
      exact .refl
    | none =>
      rw [escalateEntries_fst answers entry entries signals hCtx]
      refine Relation.ReflTransGen.trans ?_ (ih (hStored.tail _ _))
      refine Escalation.apply_run _ entry _ (hStored.lookup entry mem_cons_self) ?_
      intro hSignals
      obtain ⟨_, hFirst, hDeadline⟩ := escalationOf_signals hSignals
      exact ⟨hFirst, hDeadline.trans (hTime _)⟩

/-- A SIGKILL among the signals is for a real process that no decision allows. -/
def Signal.NotAllowed (allowed : TerminationKey → Bool) (signal : Signal) : Prop :=
  ∀ key time ok, signal = .forceKill key time ok → allowed key = false ∧ 0 < key.pid

theorem Escalation.apply_appends (outcome : Escalation) (entry : Termination) (time : Time)
    (signals : Signals)
    (hSignals : outcome.signals = true → allowed entry.key = false ∧ 0 < entry.key.pid) :
    Appends (Signal.NotAllowed allowed) signals (outcome.apply entry time signals) := by
  cases outcome with
  | spared | exited | bypassed | survived => exact .single rfl (by nofun)
  | unreadable | waiting => exact .refl _
  | forceKilled | killFailed =>
    refine .single rfl ?_
    rintro _ _ _ ⟨⟩
    exact hSignals rfl
  | exitedAtKill =>
    have hKilled : Appends (Signal.NotAllowed allowed) signals
        (signals.forceKillFailed entry.key time) := by
      refine .single rfl ?_
      rintro _ _ _ ⟨⟩
      exact hSignals rfl
    exact hKilled.trans (.single rfl (by nofun))

theorem escalateEntries_appends (answers : TerminationKey → EscalationAnswer)
    (entries : List Termination) (hPID : ∀ entry ∈ entries, 0 < entry.key.pid) (signals : Signals) :
    Appends (Signal.NotAllowed allowed) signals
      (escalateEntries rules bootID allowed now answers entries signals).1 := by
  induction entries generalizing signals with
  | nil => exact .refl _
  | cons entry entries ih =>
    cases hCtx : (answers entry.key).ctxErr with
    | some text =>
      simp only [escalateEntries, hCtx]
      exact .refl _
    | none =>
      rw [escalateEntries_fst answers entry entries signals hCtx]
      refine Appends.trans ?_ (ih (fun other hOther => hPID other (mem_cons_of_mem _ hOther)) _)
      refine Escalation.apply_appends _ entry _ signals ?_
      intro hSignals
      exact ⟨(escalationOf_signals hSignals).1, hPID entry mem_cons_self⟩

end Escalations

end GPUardian
