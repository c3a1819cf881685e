import GPUardian.Telemetry.Resuming

/-! How the daemon hands its events to the outbox. Events that were not appended are accounted for by
a gap, which goes before the next ones. -/
namespace GPUardian.Telemetry

open GoLines List Interleaving

def eventGap : String := "telemetry.gap"

structure Gap where
  «from» : Time
  «to» : Time
  reason : String
deriving DecidableEq, Repr

inductive Payload (α : Type) where
  | event (payload : α)
  | gap (gap : Gap)

/-- How many events of a batch `AppendBatch` has appended, and its error. -/
structure AppendOutcome where
  appended : Nat
  error : Option String := none

/-- Without an error the whole batch is appended. -/
def AppendOutcome.Possible {β : Type} (outcome : AppendOutcome) (batch : List β) : Prop :=
  outcome.appended ≤ batch.length ∧ (outcome.error = none → outcome.appended = batch.length)

instance {β : Type} (outcome : AppendOutcome) (batch : List β) : Decidable (outcome.Possible batch) :=
  inferInstanceAs (Decidable (_ ∧ _))

/-- A call of `emitTelemetryBatch`, with what comes of its `AppendBatch`. -/
structure Emission (α : Type) where
  events : List (BatchEvent (Payload α))
  outcome : AppendOutcome

/-- `gapFrom` is `telemetryGapFrom`; `audit` has the messages for the audit log. -/
structure Emitter where
  gapFrom : Time := 0
  audit : List String := []

namespace Emitter

variable {α : Type}

/-- The gap that goes before the events. -/
def pendingGap (events : List (BatchEvent (Payload α))) (emitter : Emitter) :
    List (BatchEvent (Payload α)) :=
  match events with
  | [] => []
  | first :: _ =>
    if emitter.gapFrom = 0 then []
    else
      let gap : Gap :=
        { «from» := emitter.gapFrom, «to» := first.occurredAt, reason := "outbox_write_failure" }
      [{ type := eventGap, payload := .gap gap, occurredAt := first.occurredAt }]

def batch (events : List (BatchEvent (Payload α))) (emitter : Emitter) :
    List (BatchEvent (Payload α)) :=
  emitter.pendingGap events ++ events

/-- A gap that reports the time of an event as lost. -/
def Reports (entry : BatchEvent (Payload α)) (time : Time) : Prop :=
  ∃ gap : Gap, entry.type = eventGap ∧ entry.payload = .gap gap ∧
    gap.«from» ≤ gap.«to» ∧ gap.«from» ≤ time ∧ time ≤ gap.«to»

/-- The outbox appends a first part of what a call gives it, and all of it without an error. -/
abbrev Possible (emitter : Emitter) (call : Emission α) : Prop :=
  call.outcome.Possible (emitter.batch call.events)

variable {emitter : Emitter} {call : Emission α}

/-- The next gap starts at the first event that waits for it. -/
def gapStart (waiting : List (BatchEvent (Payload α))) : Time :=
  (waiting.head?.map (·.occurredAt)).getD 0

variable {waiting : List (BatchEvent (Payload α))}

end Emitter

/-- What the outbox does with a batch is one of the outcomes, and what it returns are the events
of the first items. -/
theorem appendBatch_possible {α : Type} {json : JSON α} (io : BatchIO)
    (batch : List (BatchEvent α × EventIO)) (spool : Spool) :
    let result := spool.appendBatch json io batch
    ({ appended := result.2.1.length, error := result.2.2 } : AppendOutcome).Possible batch ∧
      List.Forall₂ (OfItem json) result.2.1 (batch.take result.2.1.length) := by
  dsimp only
  unfold Spool.appendBatch
  split
  · rename_i hEmpty
    rw [List.isEmpty_iff.mp hEmpty]
    exact ⟨⟨le_rfl, fun _ => rfl⟩, .nil⟩
  · split
    · exact ⟨⟨Nat.zero_le _, by simp⟩, .nil⟩
    · rename_i items hItems
      split
      all_goals
        rename_i hAll
        obtain ⟨events, taken, left, rfl, hEvents, hOf, hNone⟩ := appendAll_appended hItems hAll
        rw [nil_append] at hEvents
        have hTaken : (taken ++ left).take events.length = taken := by
          rw [hOf.length_eq, take_left]
      · rw [hEvents, hTaken]
        exact ⟨⟨by simp [hOf.length_eq], by simp⟩, hOf⟩
      · split
        all_goals
          rw [hEvents, hTaken]
          exact ⟨⟨by simp [hOf.length_eq], fun _ => by simp [hOf.length_eq, hNone rfl]⟩, hOf⟩

end GPUardian.Telemetry
