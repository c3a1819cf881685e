import GPUardian.History.Ingest
import GPUardian.Library.Interleaving

/-! What the report of a reservation does to the sessions. It finds the session that it names by its
id, or the session of its group, or makes one; then it writes the GPUs of that session. -/
namespace GPUardian

open GoStrings List

namespace History

section Writes

variable {db after : History}

theorem writeSessions_ok {sessions : List SessionRow} (h : db.writeSessions sessions = .ok after) :
    after.sessions = sessions ∧ after.gpus = db.gpus := by
  unfold writeSessions at h
  split at h
  · split at h
    · split at h
      · cases h
        exact ⟨rfl, rfl⟩
      · cases h
    · cases h
  · cases h

theorem writeGPUs_ok {gpus : List SessionGPU} (h : db.writeGPUs gpus = .ok after) :
    after.sessions = db.sessions ∧ after.gpus = gpus := by
  unfold writeGPUs at h
  split at h
  · split at h
    · cases h
      exact ⟨rfl, rfl⟩
    · cases h
  · cases h

/-- The sessions stay, and so do the GPUs of the other sessions. -/
structure KeepsOthers (id : String) (db after : History) : Prop where
  sessions : after.sessions = db.sessions
  gpus : ∀ selects : String → Bool, selects id = false →
    after.gpus.filter (fun row => selects row.sessionID) =
      db.gpus.filter (fun row => selects row.sessionID)

namespace KeepsOthers

variable {id : String}

theorem refl (db : History) : KeepsOthers id db db := ⟨rfl, fun _ _ => rfl⟩

theorem trans {next : History} (h : KeepsOthers id db after) (h' : KeepsOthers id after next) :
    KeepsOthers id db next :=
  ⟨h'.sessions.trans h.sessions, fun selects hID =>
    (h'.gpus selects hID).trans (h.gpus selects hID)⟩

/-- A GPU of the session is added. -/
theorem append {gpu : Int} {reservationID : String}
    (h : db.writeGPUs (db.gpus ++ [⟨id, gpu, reservationID⟩]) = .ok after) :
    KeepsOthers id db after := by
  obtain ⟨hSessions, hGPUs⟩ := writeGPUs_ok h
  refine ⟨hSessions, fun selects hID => ?_⟩
  rw [hGPUs, filter_append, filter_cons_of_neg (by simp [hID]), filter_nil,
    append_nil]

/-- The reservations of some GPUs of the session are written. -/
theorem assign {named : SessionGPU → Prop} [DecidablePred named]
    {reservation : SessionGPU → String}
    (h : db.writeGPUs (db.gpus.map fun row =>
      if row.sessionID = id ∧ named row then { row with reservationID := reservation row }
      else row) = .ok after) : KeepsOthers id db after := by
  obtain ⟨hSessions, hGPUs⟩ := writeGPUs_ok h
  refine ⟨hSessions, fun selects hID => ?_⟩
  rw [hGPUs]
  generalize db.gpus = gpus
  induction gpus with
  | nil => rfl
  | cons row gpus ih =>
    rw [map_cons, filter_cons, filter_cons, ih]
    by_cases hNamed : row.sessionID = id ∧ named row
    · simp [hNamed, hID]
    · simp [hNamed]

end KeepsOthers

end Writes

theorem upsertGPUs_keeps {id : String} {members : List ReservationMember} {db after : History}
    (h : upsertGPUs id members db = .ok after) : KeepsOthers id db after := by
  refine (Interleaving.foldlM_relates (R := KeepsOthers id) (I := fun _ => True) .refl
    (fun _ _ _ => .trans) ?_ trivial h).1
  intro db member _ next _ hNext
  unfold upsertGPU at hNext
  split at hNext
  · exact ⟨.assign hNext, trivial⟩
  · exact ⟨.append hNext, trivial⟩

section Upsert

variable [Unicode] [Digest] (nodeID serverID serverName : String) (payload : ReservationUpsert)
  (occurredAt : Time)

omit [Unicode] in
@[simp]
theorem insertedSession_sessionID (ownerEditable : Bool) :
    (insertedSession nodeID serverID serverName payload occurredAt ownerEditable).sessionID =
      reservationSessionID nodeID payload := by
  simp only [insertedSession]

/-- The sessions that the event leaves, and the id of its own. -/
inductive UpsertedSessions (db : History) : List SessionRow → String → Prop where
  | byID (hNamed : payload.externalSessionID ≠ "")
      (hFound : ∃ row ∈ db.sessions, row.sessionID = reservationSessionID nodeID payload) :
      UpsertedSessions db
        (db.sessions.map fun row =>
          if row.sessionID = reservationSessionID nodeID payload then
            updatedByID nodeID serverID serverName payload occurredAt row
          else row)
        (reservationSessionID nodeID payload)
  | byGroup (ownerEditable : Bool) (found : SessionRow) (hFound : found ∈ db.sessions)
      (hGroup : found.group = (nodeID, payload.groupID))
      (hUnnamed : payload.externalSessionID ≠ "" →
        ∀ row ∈ db.sessions, row.sessionID ≠ reservationSessionID nodeID payload) :
      UpsertedSessions db
        (db.sessions.map fun row =>
          if row.group = (nodeID, payload.groupID) then
            updatedByGroup serverID serverName payload occurredAt ownerEditable row
          else row)
        found.sessionID
  | inserted (ownerEditable : Bool)
      (hNone : ∀ row ∈ db.sessions, row.group ≠ (nodeID, payload.groupID))
      (hUnnamed : payload.externalSessionID ≠ "" →
        ∀ row ∈ db.sessions, row.sessionID ≠ reservationSessionID nodeID payload) :
      UpsertedSessions db
        (db.sessions ++
          [insertedSession nodeID serverID serverName payload occurredAt ownerEditable])
        (reservationSessionID nodeID payload)

variable {nodeID serverID serverName payload occurredAt}

/-- What a report does to the tables if it is well formed. -/
theorem applyReservation_eq {knownOwners : List String} {db : History}
    (hGroup : payload.groupID ≠ "") (hHolder : payload.holder ≠ "")
    (hWindow : payload.startsAt < payload.expiresAt) :
    ∃ sessions id, UpsertedSessions nodeID serverID serverName payload occurredAt db sessions id ∧
      db.applyReservation nodeID serverID serverName payload occurredAt knownOwners =
        db.writeSessions sessions >>= upsertGPUs id payload.members := by
  unfold applyReservation
  rw [if_neg (by simp [hGroup, hHolder, hWindow])]
  dsimp only
  split
  · rename_i hFound
    obtain ⟨hNamed, hAny⟩ := hFound
    obtain ⟨row, hRow, hID⟩ := any_eq_true.mp hAny
    exact ⟨_, _, .byID hNamed ⟨row, hRow, by simpa using hID⟩, rfl⟩
  · rename_i hNotFound
    have hUnnamed : payload.externalSessionID ≠ "" →
        ∀ row ∈ db.sessions, row.sessionID ≠ reservationSessionID nodeID payload := by
      intro hNamed row hRow hID
      exact hNotFound ⟨hNamed, any_eq_true.mpr ⟨row, hRow, by simpa using hID⟩⟩
    split
    · rename_i found hFind
      exact ⟨_, _, .byGroup _ found (mem_of_find?_eq_some hFind)
        (by simpa using find?_some hFind) hUnnamed, rfl⟩
    · rename_i hNone
      refine ⟨_, _, .inserted _ (fun row hRow hGroup => ?_) hUnnamed, rfl⟩
      exact find?_eq_none.mp hNone row hRow (by simpa using hGroup)

theorem applyReservation_ok {knownOwners : List String} {db after : History}
    (h : db.applyReservation nodeID serverID serverName payload occurredAt knownOwners = .ok after) :
    ∃ id written,
      UpsertedSessions nodeID serverID serverName payload occurredAt db after.sessions id ∧
      written.gpus = db.gpus ∧ upsertGPUs id payload.members written = .ok after := by
  have hValid : ¬(payload.groupID = "" ∨ payload.holder = "" ∨
      payload.expiresAt ≤ payload.startsAt) := by
    intro hInvalid
    unfold applyReservation at h
    rw [if_pos hInvalid] at h
    cases h
  rw [not_or, not_or, not_le] at hValid
  obtain ⟨hGroup, hHolder, hWindow⟩ := hValid
  obtain ⟨sessions, id, hUpserted, hEq⟩ := @applyReservation_eq _ _ nodeID serverID serverName
    payload occurredAt knownOwners db hGroup hHolder hWindow
  rw [hEq] at h
  obtain ⟨written, hWrite, hGPUs⟩ := Interleaving.bind_ok h
  obtain ⟨hSessions, hRows⟩ := writeSessions_ok hWrite
  rw [← hSessions, ← (upsertGPUs_keeps hGPUs).sessions] at hUpserted
  exact ⟨id, written, hUpserted, hRows, hGPUs⟩

/-- The row of a report: of a new session, or of the one that was found. -/
structure ReportedRow (nodeID : String) (payload : ReservationUpsert) (db : History)
    (sessions : List SessionRow) (id : String) (row : SessionRow) : Prop where
  sessionID : row.sessionID = id
  group : row.group = (nodeID, payload.groupID)
  startsAt : row.startsAt = millis payload.startsAt
  expiresAt : row.expiresAt = millis payload.expiresAt
  origin : (row.kind = .reservation ∧ ∀ old ∈ db.sessions, old ∈ sessions ∧ old ≠ row) ∨
    ∃ old ∈ db.sessions, old.sessionID = id ∧ row.kind = old.kind ∧ row.revokedAt = old.revokedAt

omit [Unicode] [Digest] in
/-- What an update leaves in the rows that it selects, it leaves in all. -/
theorem map_updated {α : Type} (field : SessionRow → α) {selects : SessionRow → Prop}
    [DecidablePred selects] {update : SessionRow → SessionRow}
    (h : ∀ row, field (update row) = field row) (rows : List SessionRow) :
    (rows.map fun row => if selects row then update row else row).map field = rows.map field := by
  rw [map_map]
  refine map_congr_left fun row _ => ?_
  rw [Function.comp_apply, apply_ite field, h, ite_self]

omit [Unicode] in
/-- Every other session is as before. -/
theorem UpsertedSessions.mem {db : History} {sessions : List SessionRow} {id : String}
    {row : SessionRow}
    (h : UpsertedSessions nodeID serverID serverName payload occurredAt db sessions id)
    (hRow : row ∈ sessions) : row ∈ db.sessions ∨ ReportedRow nodeID payload db sessions id row := by
  cases h with
  | byID hNamed hFound =>
    obtain ⟨old, hOld, rfl⟩ := mem_map.mp hRow
    split
    · rename_i hID
      exact .inr ⟨hID, rfl, rfl, rfl, .inr ⟨old, hOld, hID, rfl, rfl⟩⟩
    · exact .inl hOld
  | byGroup ownerEditable found hFound hGroup hUnnamed =>
    obtain ⟨old, hOld, rfl⟩ := mem_map.mp hRow
    split
    · rename_i hSame
      obtain rfl := inj_on_of_nodup_map db.groups hOld hFound (hSame.trans hGroup.symm)
      exact .inr ⟨rfl, hSame, rfl, rfl, .inr ⟨old, hOld, rfl, rfl, rfl⟩⟩
    · exact .inl hOld
  | inserted ownerEditable hNone hUnnamed =>
    rcases mem_concat.mp hRow with hOld | rfl
    · exact .inl hOld
    · refine .inr ⟨insertedSession_sessionID .., rfl, rfl, rfl, .inl ⟨rfl, fun old hOld => ?_⟩⟩
      exact ⟨mem_append_left _ hOld, fun hSame => hNone old hOld (hSame ▸ rfl)⟩

omit [Unicode] in
/-- No session is lost. -/
theorem UpsertedSessions.kept {db : History} {sessions : List SessionRow} {id : String}
    (h : UpsertedSessions nodeID serverID serverName payload occurredAt db sessions id)
    {old : SessionRow} (hOld : old ∈ db.sessions) :
    ∃ row ∈ sessions, row.sessionID = old.sessionID := by
  refine mem_map.mp ?_
  cases h with
  | byID | byGroup =>
    rw [map_updated]
    · exact mem_map_of_mem hOld
    · exact fun _ => rfl
  | inserted => exact mem_map_of_mem (mem_append_left _ hOld)

end Upsert

end History

end GPUardian
