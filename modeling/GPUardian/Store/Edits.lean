import GPUardian.Library.Slice
import GPUardian.Model.State

/-! What a store call does before it saves. Every mutator of the store works on the
fields of the shared state in place and then either saves or returns; its model says
which statement it executes on each field, whether it goes on to save, and what it
returns. The same description is read on values here and on memory later. -/
namespace GPUardian

open GoSlice

/-- One statement for each field of the state. No store call touches the audit rows. -/
structure Edits where
  managedKeys : Option Bool := none
  keySnapshotID : Option String := none
  managedKeyAuthority : Option String := none
  tokens : Edit Token := .keep
  reservations : Edit Reservation := .keep
  authorizations : Edit Authorization := .keep
  softClaims : Edit SoftClaim := .keep
  leases : Edit Lease := .keep
  bypasses : Edit BypassRule := .keep

def Edits.apply (edits : Edits) (state : State) : State :=
  { managedKeys := edits.managedKeys.getD state.managedKeys
    keySnapshotID := edits.keySnapshotID.getD state.keySnapshotID
    managedKeyAuthority := edits.managedKeyAuthority.getD state.managedKeyAuthority
    tokens := edits.tokens.onList state.tokens
    reservations := edits.reservations.onList state.reservations
    authorizations := edits.authorizations.onList state.authorizations
    softClaims := edits.softClaims.onList state.softClaims
    leases := edits.leases.onList state.leases
    bypasses := edits.bypasses.onList state.bypasses
    audit := state.audit }

@[simp]
theorem Edits.apply_none (state : State) : ({} : Edits).apply state = state := rfl

@[simp]
theorem Edits.apply_audit (edits : Edits) (state : State) :
    (edits.apply state).audit = state.audit := rfl

theorem Except.map_eq_ok {ε α β : Type} {f : α → β} {answer : Except ε α} {b : β}
    (h : Except.map f answer = .ok b) : ∃ a, answer = .ok a ∧ f a = b := by
  cases answer with
  | error message => cases h
  | ok a => exact ⟨a, rfl, Except.ok.inj h⟩

/-- The edits of a call, whether it ends in `saveLocked`, and its result when the
save succeeds or is not reached. -/
structure Effect (α : Type) where
  edits : Edits := {}
  save : Bool := false
  result : Except String α

namespace Effect

variable {α : Type}

/-- A return with an error before anything was touched. -/
def fail (message : String) : Effect α := { result := .error message }

/-- A return without a change. -/
def done (value : α) : Effect α := { result := .ok value }

/-- Edits followed by a save. -/
def store (edits : Edits) (value : α) : Effect α := { edits, save := true, result := .ok value }

def map {β : Type} (f : α → β) (effect : Effect α) : Effect β :=
  { effect with result := effect.result.map f }

/-- A call that returned before it touched anything. -/
def Quiet (effect : Effect α) : Prop := effect.save = false ∧ effect.edits = {}

/-- A call that does not save leaves every field as it was, although it may have
written the same elements back. -/
def Clean (effect : Effect α) (state : State) : Prop :=
  effect.save = false → effect.edits.apply state = state

theorem Quiet.clean {effect : Effect α} (h : effect.Quiet) (state : State) :
    effect.Clean state := by
  intro _
  rw [h.2, Edits.apply_none]

/-- A call that fails at once has no answer. -/
theorem quiet_fail (message : String) {P : α → Prop} : (fail message : Effect α).Quiet ∧
    ∀ answer, (fail message : Effect α).result = .ok answer → P answer :=
  ⟨⟨rfl, rfl⟩, nofun⟩

theorem clean_map {β : Type} {f : α → β} {effect : Effect α} {state : State}
    (h : effect.Clean state) : (effect.map f).Clean state := h

theorem map_ok {β : Type} {f : α → β} {effect : Effect α} {answer : β}
    (h : (effect.map f).result = .ok answer) :
    ∃ value, effect.result = .ok value ∧ f value = answer :=
  Except.map_eq_ok h

theorem clean_fail (message : String) (state : State) : (fail message : Effect α).Clean state :=
  fun _ => rfl

theorem clean_done (value : α) (state : State) : (done value).Clean state := fun _ => rfl

theorem clean_store (edits : Edits) (value : α) (state : State) :
    (store edits value).Clean state := nofun

end Effect

end GPUardian
