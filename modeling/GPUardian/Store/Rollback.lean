import GPUardian.Store.Memory

/-! The working copy, the saved copy and the file stay together through every call,
whichever step of it fails. -/
namespace GPUardian

open GoStrings GoSlice

section Calls

variable [Unicode] [Digest]

/-- A run from a loaded store shows a synced store, so that each further call is one of
the two kinds of `Store.call_cases`. -/
theorem Memory.run_synced (codec : Codec) (path : String) (failure file : Option String)
    (state : State) (hLoad : loadLocked codec path failure file = .ok state) (spare : Spare)
    (calls : List (SaveErrors × Spare × Op)) :
    ((Memory.load spare state file).run codec calls).store.Synced codec := by
  rw [Memory.store_run, Memory.store_load]
  exact Store.run_synced codec _ (Store.synced_of_load codec hLoad)

/-- After each call of a run from a loaded store both copies are equal and are what the
file says once its audit events are dropped. A call that does not get to the rename
leaves all three as they were; one that does leaves all three at its new state, even
where the directory sync after the rename fails. -/
theorem calls_keep_copies_and_file_together (codec : Codec) (path : String)
    (failure file : Option String) (state : State)
    (hLoad : loadLocked codec path failure file = .ok state) (spare : Spare)
    (calls : List (SaveErrors × Spare × Op)) (errors : SaveErrors) (spare' : Spare) (op : Op) :
    let memory := (Memory.load spare state file).run codec calls
    let next := (memory.call codec errors spare' op).1
    let new := (op.effect memory.state).edits.apply memory.state
    (next.committed = next.state ∧ decodeFile codec next.file = .ok next.state) ∧
    (memory.store.renames codec errors op = false →
      next.state = memory.state ∧ next.committed = memory.committed ∧ next.file = memory.file) ∧
    (memory.store.renames codec errors op = true →
      next.state = new ∧ next.committed = new ∧ next.file = some (codec.encode new ++ "\n")) := by
  intro memory next new
  have hSynced : memory.store.Synced codec := Memory.run_synced codec path failure file state hLoad spare calls
  have hNext : next.store = (memory.store.call codec errors op).1 :=
    congrArg Prod.fst (Memory.store_call codec errors spare' op memory)
  have hAfter : next.store.Synced codec := by
    rw [hNext]
    exact Store.call_synced codec errors op hSynced
  refine ⟨⟨hAfter.committed, hAfter.file⟩, ?_, ?_⟩
  · intro hBefore
    rcases Store.call_cases codec errors op hSynced with ⟨_, hSame⟩ | ⟨hRenames, _⟩
    · rw [hSame] at hNext
      exact ⟨congrArg Store.state hNext, congrArg Store.committed hNext, congrArg Store.file hNext⟩
    · rw [hBefore] at hRenames
      cases hRenames
  · intro hRenamed
    rcases Store.call_cases codec errors op hSynced with ⟨hNot, _⟩ | ⟨_, _, saved, rfl, hCall⟩
    · rw [hRenamed] at hNot
      cases hNot
    · rw [hCall] at hNext
      exact ⟨congrArg Store.state hNext, congrArg Store.committed hNext, congrArg Store.file hNext⟩

end Calls

open scoped Plain

/-- A first save whose directory sync fails. -/
theorem calls_keep_copies_and_file_together_failed_sync :
    let codec := tableCodec [{ bypasses := [{ id := "bp_1" }] }]
    loadLocked codec "state.json" none none = .ok {} ∧
    let called := (Memory.load {} {} none).call codec { syncDir := some "fsync" } {}
      (.addBypass { id := "bp_1" })
    called.2 = .error "fsync" ∧ called.1.committed = called.1.state ∧
      decodeFile codec called.1.file = .ok called.1.state := by
  refine ⟨rfl, rfl, ?_⟩
  exact (@calls_keep_copies_and_file_together ascii plain _ "state.json" none none {} rfl {} []
    { syncDir := some "fsync" } {} (.addBypass { id := "bp_1" })).1

/-- What an older daemon left in the file. -/
def legacyState : State := { audit := [{ kind := "kill" }] }

/-- The audit events of an older daemon are dropped on load and stay in the file until
the next save: after a call that returns an error the copies and the decoded file
differ. -/
theorem legacy_audit_differs_from_file :
    let codec := tableCodec [legacyState]
    let file := some (codec.encode legacyState ++ "\n")
    loadLocked codec "state.json" none file = .ok {} ∧
    let called := (Memory.load {} {} file).call codec {} {} (.revoke "gone" 0)
    called.2 = .error "gone not found" ∧ called.1.state = {} ∧ called.1.committed = {} ∧
      called.1.file.map codec.decode = some (.ok legacyState) ∧ called.1.state ≠ legacyState := by
  refine ⟨rfl, rfl, rfl, rfl, rfl, ?_⟩
  intro hSame
  have hAudit := congrArg State.audit hSame
  cases hAudit

end GPUardian
