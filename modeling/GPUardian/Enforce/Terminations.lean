import GPUardian.Enforce.Plan
import Mathlib.Data.List.AList
import Mathlib.Data.List.Sort

/-! Staged kills. A pass sends SIGTERM and records it; a later pass confirms the exit or
sends SIGKILL. The signals that were sent and the entries that were removed are kept in
a log, which the source does not have; nothing reads it. -/
namespace GPUardian

open GoStrings

structure TerminationKey where
  pid : Int
  startTime : Nat
deriving DecidableEq, Repr

structure Termination where
  key : TerminationKey
  request : PendingKill
  deadline : Time
  escalated : Bool := false
deriving DecidableEq, Repr

/-- The pending map of `Terminations`. -/
abbrev Terminations := AList fun _ : TerminationKey => Termination

def PendingKill.key (request : PendingKill) : TerminationKey :=
  ⟨request.view.process.pid, request.view.info.startTime⟩

/-- What happened to an identity, with the instant of a signal. -/
inductive Signal where
  | terminated (key : TerminationKey) (time : Time)
  | forceKill (key : TerminationKey) (time : Time) (ok : Bool)
  | removed (key : TerminationKey)
deriving DecidableEq, Repr

/-- The pending map and the log. -/
structure Signals where
  pending : Terminations := ∅
  log : List Signal := []

namespace Signals

def awaiting (signals : Signals) (pid : Int) (startTime : Nat) : Bool :=
  (signals.pending.lookup ⟨pid, startTime⟩).isSome

/-- A successful SIGTERM and the entry recorded for it. -/
def record (request : PendingKill) (time deadline : Time) (signals : Signals) : Signals :=
  { pending := signals.pending.insert request.key
      { key := request.key, request := request, deadline := deadline }
    log := signals.log ++ [.terminated request.key time] }

def remove (key : TerminationKey) (signals : Signals) : Signals :=
  { pending := signals.pending.erase key, log := signals.log ++ [.removed key] }

/-- A SIGKILL that was delivered. -/
def markEscalated (entry : Termination) (time : Time) (signals : Signals) : Signals :=
  { pending := signals.pending.insert entry.key { entry with escalated := true }
    log := signals.log ++ [.forceKill entry.key time true] }

def forceKillFailed (key : TerminationKey) (time : Time) (signals : Signals) : Signals :=
  { signals with log := signals.log ++ [.forceKill key time false] }

/-- The order in which the entries are visited. -/
def keyLE (a b : Termination) : Prop :=
  a.key.pid < b.key.pid ∨ (a.key.pid = b.key.pid ∧ a.key.startTime ≤ b.key.startTime)

instance : DecidableRel keyLE := fun a b =>
  inferInstanceAs (Decidable (a.key.pid < b.key.pid ∨
    (a.key.pid = b.key.pid ∧ a.key.startTime ≤ b.key.startTime)))

def entries (signals : Signals) : List Termination :=
  (signals.pending.entries.map (·.2)).insertionSort keyLE

end Signals

/-- `signalVerified` of the real killer: an identity that cannot be verified is refused
before anything is asked; `answer` is the outcome of the rest. -/
def signalVerified (info : ProcInfo) (answer : Option String) : Option String :=
  if info.pid ≤ 0 ∨ info.startTime = 0 then
    some s!"refusing to signal pid {info.pid}: process identity is unverifiable"
  else answer

/-- How the kill of one planned process goes: the context and the validation before it,
the outcome and instant of SIGTERM, and the clock read for the deadline. Go's clock does
not run backwards. -/
structure KillAnswer where
  ctxErr : Option String := none
  validate : Option String := none
  terminate : Option String := none
  terminatedAt : Time
  recordedAt : Time
  ordered : terminatedAt ≤ recordedAt

/-- One planned kill with a staged killer, and its error. -/
def performKill (grace : Duration) (answer : KillAnswer) (request : PendingKill)
    (signals : Signals) : Signals × Option String :=
  match answer.ctxErr with
  | some text => (signals, some text)
  | none =>
    match answer.validate with
    | some text => (signals, some s!"revalidate GPU process before kill: {text}")
    | none =>
      match signalVerified request.view.info answer.terminate with
      | some text => (signals, some text)
      | none =>
        (signals.record request answer.terminatedAt (answer.recordedAt + grace), none)

/-- The kills of a plan. The source runs them in any order; the PIDs of a plan differ, so
the order does not show. Returns the audit events and the errors too. -/
def executePendingKills (grace : Duration) (answers : TerminationKey → KillAnswer) :
    List PendingKill → Signals → Signals × List AuditEvent × List String
  | [], signals => (signals, [], [])
  | request :: rest, signals =>
    let (signals, error) := performKill grace (answers request.key) request signals
    let (signals, audits, errors) := executePendingKills grace answers rest signals
    match error with
    | some text =>
      (signals, auditOfKill request "kill_failed" s!"{request.reason}: {text}" :: audits,
        text :: errors)
    | none =>
      (signals, auditOfKill request "kill_term" s!"{request.reason}: SIGTERM sent" :: audits,
        errors)

/-- How the escalation of one entry goes: the context, the uncached read of the process,
the outcome and instant of SIGKILL, and the read after a failed one. -/
structure EscalationAnswer where
  ctxErr : Option String := none
  read : Except ReadError ProcInfo
  forceKill : Option String := none
  forceKillAt : Time
  reread : Except ReadError ProcInfo

/-- `terminationExited`: whether the signalled process is gone, and what runs now. -/
def terminationExited (key : TerminationKey) (read : Except ReadError ProcInfo) :
    Except String (Bool × ProcInfo) :=
  match read with
  | .error err => if err.gone then .ok (true, {}) else .error err.text
  | .ok info => .ok (info.pid != key.pid || info.startTime != key.startTime, info)

/-- What the escalation does with one entry. -/
inductive Escalation where
  | spared
  | unreadable (text : String)
  | exited
  | bypassed
  | survived
  | waiting
  | forceKilled
  | exitedAtKill
  | killFailed (text : String)
deriving DecidableEq, Repr

def escalationOf (rules : List BypassRule) (bootID : String) (allowed : TerminationKey → Bool)
    (now : Time) (answer : EscalationAnswer) (entry : Termination) : Escalation :=
  if allowed entry.key then .spared
  else match terminationExited entry.key answer.read with
    | .error text => .unreadable text
    | .ok (true, _) => .exited
    | .ok (false, info) =>
      if bypassMatch rules info now bootID then .bypassed
      else if entry.escalated then .survived
      else if now < entry.deadline then .waiting
      else match signalVerified entry.request.view.info answer.forceKill with
        | none => .forceKilled
        | some text =>
          match terminationExited entry.key answer.reread with
          | .ok (true, _) => .exitedAtKill
          | _ => .killFailed text

/-- What becomes of the entry and the log. -/
def Escalation.apply (outcome : Escalation) (entry : Termination) (time : Time)
    (signals : Signals) : Signals :=
  match outcome with
  | .spared | .exited | .bypassed | .survived => signals.remove entry.key
  | .unreadable _ | .waiting => signals
  | .forceKilled => signals.markEscalated entry time
  | .exitedAtKill => (signals.forceKillFailed entry.key time).remove entry.key
  | .killFailed _ => signals.forceKillFailed entry.key time

def Escalation.audit (outcome : Escalation) (entry : Termination) (now : Time) : List AuditEvent :=
  let event (kind text : String) : List AuditEvent :=
    [{ auditOfKill entry.request kind s!"{entry.request.reason}: {text}" with time := now }]
  match outcome with
  | .spared => event "kill_cancelled" "SIGKILL cancelled; process is now authorized"
  | .unreadable _ | .waiting => []
  | .exited | .exitedAtKill => event "kill" "process exited"
  | .bypassed => event "kill_cancelled" "SIGKILL cancelled; process is now bypassed"
  | .survived => event "kill_failed" s!"pid {entry.key.pid} did not exit after SIGKILL"
  | .forceKilled => event "kill_escalated" "SIGKILL sent after grace period"
  | .killFailed text => event "kill_failed" text

def Escalation.errors (outcome : Escalation) (entry : Termination) : List String :=
  match outcome with
  | .unreadable text => [s!"inspect signalled pid {entry.key.pid}: {text}"]
  | .survived => [s!"pid {entry.key.pid} did not exit after SIGKILL"]
  | .killFailed text => [text]
  | _ => []

/-- Identities that some decision of the pass allows. -/
def allowedKey (decisions : List Decision) (key : TerminationKey) : Bool :=
  decisions.any fun decision => decision.action == .allow && decide (0 < decision.process.pid) &&
    decide ((⟨decision.process.pid, decision.info.startTime⟩ : TerminationKey) = key)

/-- The loop over the entries; a cancelled context ends it. -/
def escalateEntries (rules : List BypassRule) (bootID : String) (allowed : TerminationKey → Bool)
    (now : Time) (answers : TerminationKey → EscalationAnswer) :
    List Termination → Signals → Signals × List AuditEvent × List String
  | [], signals => (signals, [], [])
  | entry :: rest, signals =>
    let answer := answers entry.key
    match answer.ctxErr with
    | some text => (signals, [], [text])
    | none =>
      let outcome := escalationOf rules bootID allowed now answer entry
      let (signals, audits, errors) := escalateEntries rules bootID allowed now answers rest
        (outcome.apply entry answer.forceKillAt signals)
      (signals, outcome.audit entry now ++ audits, outcome.errors entry ++ errors)

def escalateTerminations (rules : List BypassRule) (bootID : String) (decisions : List Decision)
    (now : Time) (answers : TerminationKey → EscalationAnswer) (signals : Signals) :
    Signals × List AuditEvent × List String :=
  escalateEntries rules bootID (allowedKey decisions) now answers signals.entries signals

end GPUardian
