import GPUardian.Store.Shrinking

/-! The authorization rows over the calls of the store. A row that was added can end, be revoked
and be given the process of its command; nothing else about it changes, and what has ended or
been given does not come back. -/
namespace GPUardian

open GoStrings GoSlice List Interleaving

/-- The later row is the earlier one, except that it may have ended or may have been given its
process. -/
structure AuthorizationFrom (old new : Authorization) : Prop where
  same : new = { old with active := new.active, revoked := new.revoked, rootPID := new.rootPID }
  active : new.active = true → old.active = true
  revoked : old.revoked = true → new.revoked = true
  rootPID : old.rootPID ≠ 0 → new.rootPID = old.rootPID

namespace AuthorizationFrom

theorem refl (row : Authorization) : AuthorizationFrom row row := ⟨rfl, id, id, fun _ => rfl⟩

theorem trans {a b c : Authorization} (hab : AuthorizationFrom a b) (hbc : AuthorizationFrom b c) :
    AuthorizationFrom a c where
  same := by
    rw [hbc.same, hab.same]
  active h := hab.active (hbc.active h)
  revoked h := hbc.revoked (hab.revoked h)
  rootPID h := by
    have hSame := hab.rootPID h
    rw [hbc.rootPID (by rwa [hSame]), hSame]

theorem id_eq {old new : Authorization} (h : AuthorizationFrom old new) : new.id = old.id := by
  rw [h.same]

theorem mode_eq {old new : Authorization} (h : AuthorizationFrom old new) :
    new.mode = old.mode := by
  rw [h.same]

theorem cgroupPath_eq {old new : Authorization} (h : AuthorizationFrom old new) :
    new.cgroupPath = old.cgroupPath := by
  rw [h.same]

theorem released (row : Authorization) (c : Bool) :
    AuthorizationFrom row (if c then { row with active := false } else row) := by
  cases c with
  | false => exact refl row
  | true => exact ⟨rfl, nofun, id, fun _ => rfl⟩

theorem withdrawn (row : Authorization) (c : Bool) :
    AuthorizationFrom row (if c then { row with revoked := true } else row) := by
  cases c with
  | false => exact refl row
  | true => exact ⟨rfl, id, fun _ => rfl, fun _ => rfl⟩

/-- A row is given a process only where it has none. -/
theorem activated {row : Authorization} (h : row.rootPID = 0) (rootPID : Int) :
    AuthorizationFrom row { row with rootPID := rootPID } :=
  ⟨rfl, id, id, fun hSet => absurd h hSet⟩

end AuthorizationFrom

/-- The call ends the row of that id, if there is one. -/
def Op.releases (id : String) : Op → Prop
  | .releaseAuthorization released => released = id
  | .releaseScopes _ authorizationIDs _ => id ∈ authorizationIDs
  | _ => False

/-- What a call leaves of a row that it does not remove. -/
structure Op.Keeps (op : Op) (old new : Authorization) : Prop where
  source : AuthorizationFrom old new
  active : new.active = old.active ∨ op.releases old.id

theorem Op.Keeps.refl (op : Op) (row : Authorization) : op.Keeps row row :=
  ⟨.refl row, .inl rfl⟩

theorem Op.keeps_same (op : Op) (rows : List Authorization) : List.Forall₂ op.Keeps rows rows :=
  forall₂_same.mpr fun row _ => .refl op row

/-- The authorizations after a call: those of before, with one more, or without some. -/
inductive Op.Rewrites [Unicode] (op : Op) (state : State) (after : List Authorization) : Prop where
  | kept (h : List.Forall₂ op.Keeps state.authorizations after)
  | added (row : Authorization) (now : Time) (hOp : op = .addAuthorization row now)
      (h : after = state.authorizations ++ [row])
  | pruned (now : Time) (hOp : op = .prune now)
      (h : after = state.authorizations.filter (!prunesAuthorization state now ·))
  | dropped (authorizationIDs leaseIDs : List String)
      (hOp : op = .pruneInactiveManagedScopes authorizationIDs leaseIDs)
      (h : after = state.authorizations.filter fun row =>
        !(authorizationIDs.contains row.id && !row.active && row.cgroupPath != ""))

section Operations

variable [Unicode] [Digest]

/-- What a call of the daemon does to the authorizations. -/
theorem Op.rewrites (state : State) (op : Op) (hDaemon : op.daemon = true) :
    op.Rewrites state ((op.effect state).edits.apply state).authorizations := by
  refine Op.edits_ind fun edits hEdited => ?_
  cases hEdited with
  | old _ _ hOp => exact absurd hDaemon (by simp [hOp])
  | authorized row now => exact .added row now rfl rfl
  | activated id rootPID row hFind hUnset =>
    refine .kept (forall₂_modifyFirst (Op.Keeps.refl _) fun first hFirst => ?_)
    rw [hFind] at hFirst
    obtain rfl := Option.some.inj hFirst
    exact ⟨.activated hUnset rootPID, .inl rfl⟩
  | released id =>
    refine .kept (forall₂_modifyFirst (Op.Keeps.refl _) fun first hFirst => ?_)
    have hID : first.id = id := by simpa using find?_some hFirst
    exact ⟨.released first true, .inr hID.symm⟩
  | scopes reservationIDs authorizationIDs leaseIDs =>
    refine .kept (Edit.forall₂_update _ fun _ row _ => ⟨.released row _, ?_⟩)
    split
    · rename_i hNamed
      right
      exact contains_iff_mem.mp (Bool.and_eq_true_iff.mp hNamed).1
    · exact .inl rfl
  | revokedRows =>
    refine .kept (Edit.forall₂_update _ fun _ row _ => ⟨.withdrawn row _, .inl ?_⟩)
    split
    · rfl
    · rfl
  | pruned now => exact .pruned now rfl rfl
  | prunedScopes authorizationIDs leaseIDs => exact .dropped authorizationIDs leaseIDs rfl rfl
  | _ => exact .kept (Op.keeps_same _ _)

/-- The id of the row that a call adds. -/
def Op.issues : Op → List String
  | .addAuthorization authorization _ => [authorization.id]
  | _ => []

/-- A call of the daemon adds one row, or leaves rows of before. -/
theorem Op.authorizations (state : State) (op : Op) (hDaemon : op.daemon = true) :
    Leaves AuthorizationFrom state.authorizations
        ((op.effect state).edits.apply state).authorizations ∨
      ∃ row now, op = .addAuthorization row now ∧
        ((op.effect state).edits.apply state).authorizations = state.authorizations ++ [row] := by
  rcases Op.rewrites state op hDaemon with hKept | ⟨row, now, hOp, hRows⟩ | ⟨now, _, hRows⟩ |
    ⟨_, _, _, hRows⟩
  · exact .inl (.of_forall₂ (hKept.imp fun _ _ hKeeps => hKeeps.source))
  · exact .inr ⟨row, now, hOp, hRows⟩
  · rw [hRows]
    exact .inl (.of_sublist AuthorizationFrom.refl filter_sublist)
  · rw [hRows]
    exact .inl (.of_sublist AuthorizationFrom.refl filter_sublist)

end Operations

/-- A store and the ids of all authorizations that were ever to be added to it. -/
structure IssuingStore where
  store : Store
  issued : List String

namespace IssuingStore

variable [Unicode] [Digest] (codec : Codec)

def step (issuing : IssuingStore) (call : SaveErrors × Op) : IssuingStore :=
  ⟨(issuing.store.call codec call.1 call.2).1, issuing.issued ++ call.2.issues⟩

/-- The call is one of the daemon's, and the id of an added row is new. -/
def Admits (issuing : IssuingStore) (call : SaveErrors × Op) : Prop :=
  call.2.daemon = true ∧ ∀ id ∈ call.2.issues, id ∉ issuing.issued

instance (issuing : IssuingStore) (call : SaveErrors × Op) : Decidable (issuing.Admits call) :=
  inferInstanceAs (Decidable (_ ∧ _))

/-- Every row has an id of its own, which was issued. -/
structure Issued (issuing : IssuingStore) : Prop where
  synced : issuing.store.Synced codec
  distinct : (issuing.store.state.authorizations.map (·.id)).Nodup
  issued : ∀ row ∈ issuing.store.state.authorizations, row.id ∈ issuing.issued

/-- Rows with an old id come from rows of before. -/
structure Continues (before after : IssuingStore) : Prop where
  issued : before.issued ⊆ after.issued
  rows : ∀ later ∈ after.store.state.authorizations, later.id ∈ before.issued →
    ∃ row ∈ before.store.state.authorizations, AuthorizationFrom row later

variable {codec}

/-- What a call does to the rows, whatever fails. -/
theorem call_authorizations {store : Store} (errors : SaveErrors) {op : Op}
    (hSynced : store.Synced codec) (hDaemon : op.daemon = true) :
    Leaves AuthorizationFrom store.state.authorizations
        (store.call codec errors op).1.state.authorizations ∨
      ∃ row now, op = .addAuthorization row now ∧
        (store.call codec errors op).1.state.authorizations =
          store.state.authorizations ++ [row] :=
  Store.call_keeps (P := fun state =>
      Leaves AuthorizationFrom store.state.authorizations state.authorizations ∨
        ∃ row now, op = .addAuthorization row now ∧
          state.authorizations = store.state.authorizations ++ [row]) codec hSynced
    (.inl (.of_sublist AuthorizationFrom.refl (Sublist.refl _)))
    (Op.authorizations store.state op hDaemon)

theorem step_issued {issuing : IssuingStore} {call : SaveErrors × Op} (hCall : issuing.Admits call)
    (h : issuing.Issued codec) : (issuing.step codec call).Issued codec := by
  have hSynced := Store.call_synced codec call.1 call.2 h.synced
  rcases call_authorizations call.1 h.synced hCall.1 with
    hLeaves | ⟨row, now, hOp, hRows⟩
  · refine ⟨hSynced, ?_, ?_⟩
    · exact h.distinct.sublist (hLeaves.map_sublist fun _ _ hFrom => hFrom.id_eq)
    · intro row hRow
      obtain ⟨old, hOld, hFrom⟩ := hLeaves.partner hRow
      exact mem_append_left _ (hFrom.id_eq ▸ h.issued old hOld)
  · have hNew : row.id ∉ issuing.issued := hCall.2 row.id (by rw [hOp]; exact mem_singleton_self _)
    refine ⟨hSynced, ?_, ?_⟩
    · show ((issuing.store.call codec call.1 call.2).1.state.authorizations.map (·.id)).Nodup
      rw [hRows]
      refine nodup_map_append_singleton h.distinct ?_
      intro hMem
      obtain ⟨old, hOld, hID⟩ := mem_map.mp hMem
      exact hNew (hID ▸ h.issued old hOld)
    · intro other hOther
      replace hOther : other ∈ issuing.store.state.authorizations ++ [row] := hRows ▸ hOther
      rcases mem_concat.mp hOther with hOld | rfl
      · exact mem_append_left _ (h.issued other hOld)
      · refine mem_append_right _ ?_
        rw [hOp]
        exact mem_singleton_self _

theorem step_continues {issuing : IssuingStore} {call : SaveErrors × Op}
    (hCall : issuing.Admits call) (h : issuing.Issued codec) :
    Continues issuing (issuing.step codec call) := by
  refine ⟨subset_append_left _ _, ?_⟩
  intro later hLater hOld
  rcases call_authorizations call.1 h.synced hCall.1 with
    hLeaves | ⟨row, now, hOp, hRows⟩
  · exact hLeaves.partner hLater
  · replace hLater : later ∈ issuing.store.state.authorizations ++ [row] := hRows ▸ hLater
    rcases mem_concat.mp hLater with hKept | rfl
    · exact ⟨later, hKept, .refl later⟩
    · exact absurd hOld (hCall.2 later.id (by rw [hOp]; exact mem_singleton_self _))

omit [Unicode] [Digest] in
theorem Continues.trans {a b c : IssuingStore} (hab : Continues a b) (hbc : Continues b c) :
    Continues a c := by
  refine ⟨fun id hID => hbc.issued (hab.issued hID), ?_⟩
  intro later hLater hOld
  obtain ⟨middle, hMiddle, hLate⟩ := hbc.rows later hLater (hab.issued hOld)
  obtain ⟨row, hRow, hEarly⟩ := hab.rows middle hMiddle (hLate.id_eq ▸ hOld)
  exact ⟨row, hRow, hEarly.trans hLate⟩

theorem run_store (calls : List (SaveErrors × Op)) (issuing : IssuingStore) :
    (Interleaving.run (step codec) issuing calls).store = issuing.store.run codec calls := by
  induction calls generalizing issuing with
  | nil => rfl
  | cons call calls ih => exact ih (issuing.step codec call)

end IssuingStore

open IssuingStore

/-- Over any calls of the daemon with new ids for new authorizations, whatever saves fail: an
authorization that was committed as revoked or ended is never committed as a live one again, and
a process that was committed for it stays. -/
theorem ended_authorization_stays_ended [Unicode] [Digest] (codec : Codec) (store : Store)
    (hSynced : store.Synced codec) (hDistinct : (store.state.authorizations.map (·.id)).Nodup)
    (first second : List (SaveErrors × Op))
    (hCalls : Along (step codec) Admits
      ⟨store, store.state.authorizations.map (·.id)⟩ (first ++ second)) :
    ∀ row ∈ (store.run codec first).committed.authorizations,
      ∀ later ∈ (store.run codec (first ++ second)).committed.authorizations, later.id = row.id →
        (row.revoked = true ∨ row.active = false → later.revoked = true ∨ later.active = false) ∧
          (row.rootPID ≠ 0 → later.rootPID = row.rootPID) := by
  obtain ⟨hFirst, hSecond⟩ := along_append.mp hCalls
  have hStart : (⟨store, store.state.authorizations.map (·.id)⟩ : IssuingStore).Issued codec :=
    ⟨hSynced, hDistinct, fun row hRow => mem_map_of_mem hRow⟩
  have hMiddle := hFirst.invariant (Issued codec)
    (fun _ _ hCall h => step_issued hCall h) hStart
  have hLast := hSecond.invariant (Issued codec)
    (fun _ _ hCall h => step_issued hCall h) hMiddle
  have hContinues := hSecond.relates Continues
    (fun _ => ⟨Subset.refl _, fun row hRow _ => ⟨row, hRow, .refl row⟩⟩)
    (fun _ _ _ hab hbc => hab.trans hbc)
    (fun _ _ hCall h => step_issued hCall h)
    (fun _ _ hCall h => step_continues hCall h) hMiddle
  rw [← Interleaving.run_append] at hLast hContinues
  generalize hBefore : Interleaving.run (step codec) _ first = before at *
  generalize hAfter : Interleaving.run (step codec) _ (first ++ second) = after at *
  have hCommitted : store.run codec first = before.store ∧
      store.run codec (first ++ second) = after.store := by
    rw [← hBefore, ← hAfter, run_store, run_store]
    exact ⟨rfl, rfl⟩
  rw [hCommitted.1, hCommitted.2, hMiddle.synced.committed, hLast.synced.committed]
  intro row hRow later hLater hID
  obtain ⟨source, hSource, hFrom⟩ :=
    hContinues.rows later hLater (hID ▸ hMiddle.issued row hRow)
  have hSame : source = row :=
    inj_on_of_nodup_map hMiddle.distinct hSource hRow (hFrom.id_eq.symm.trans hID)
  rw [hSame] at hFrom
  refine ⟨?_, hFrom.rootPID⟩
  rintro (hRevoked | hEnded)
  · exact .inl (hFrom.revoked hRevoked)
  · cases hActive : later.active with
    | false => exact .inr rfl
    | true => exact absurd (hFrom.active hActive) (by simp [hEnded])

section Samples

open scoped Plain

def trainingRun : Authorization :=
  { id := "auth_1", mode := "bare", tokenMode := "claimed", holder := "alice", createdAt := 10,
    active := true }

def trainingStarted : Authorization := { trainingRun with rootPID := 7 }

def trainingRevoked : Authorization := { trainingStarted with revoked := true }

/-- A run is authorized, started and revoked. -/
def revokedTraining : List (SaveErrors × Op) :=
  [({}, .addAuthorization trainingRun 10), ({}, .activateAuthorization "auth_1" 7),
    ({}, .revoke "auth_1" 20)]

/-- It is to be started again, and is released with a save that fails after the rename. -/
def restartedTraining : List (SaveErrors × Op) :=
  [({}, .activateAuthorization "auth_1" 9),
    ({ syncDir := some "input/output error" }, .releaseScopes [] ["auth_1"] [])]

def trainingCodec : Codec :=
  tableCodec [{ authorizations := [trainingRun] }, { authorizations := [trainingStarted] },
    { authorizations := [trainingRevoked] },
    { authorizations := [{ trainingRevoked with active := false }] }]

theorem ended_authorization_stays_ended_training :
    let store : Store := ⟨{}, {}, none⟩
    (store.run trainingCodec revokedTraining).committed.authorizations = [trainingRevoked] ∧
      ∀ later ∈ (store.run trainingCodec
          (revokedTraining ++ restartedTraining)).committed.authorizations, later.id = "auth_1" →
        (later.revoked = true ∨ later.active = false) ∧ later.rootPID = 7 := by
  have hFirst : (Store.run trainingCodec revokedTraining
      ⟨{}, {}, none⟩).committed.authorizations = [trainingRevoked] := by decide +kernel
  have hCalls : Along (step trainingCodec)
      Admits ⟨⟨{}, {}, none⟩, []⟩ (revokedTraining ++ restartedTraining) := by
    decide +kernel
  refine ⟨hFirst, ?_⟩
  intro later hLater hID
  have hRow : trainingRevoked ∈ (Store.run trainingCodec revokedTraining
      ⟨{}, {}, none⟩).committed.authorizations := by
    rw [hFirst]
    exact mem_singleton_self _
  obtain ⟨hEnded, hRoot⟩ := @ended_authorization_stays_ended ascii plain trainingCodec
    ⟨{}, {}, none⟩ (Store.synced_empty _) nodup_nil revokedTraining restartedTraining hCalls
    trainingRevoked hRow later hLater hID
  exact ⟨hEnded (.inl rfl), hRoot (by decide)⟩

end Samples

end GPUardian
