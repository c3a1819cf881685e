import GPUardian.History.Upserts

/-! When the constraints of the tables admit the report of a reservation. The GPUs of a session are
written one by one, so no reservation may stand for another GPU while they are. -/
namespace GPUardian

open GoStrings List Function

namespace History

/-- Times that differ in milliseconds are in the same order. -/
theorem lt_of_millis_lt {startsAt expiresAt : Time} (h : millis startsAt < millis expiresAt) :
    startsAt < expiresAt := by
  by_contra hNot
  have hLe : millis expiresAt ≤ millis startsAt :=
    Int.ediv_le_ediv (by decide) (sub_le_sub_right (not_lt.mp hNot) _)
  exact absurd h (not_lt.mpr hLe)

variable {sessions : List SessionRow}

section Writes

variable {db : History}

theorem writeSessions_admits (hWindows : ∀ row ∈ sessions, row.startsAt < row.expiresAt)
    (hIDs : (sessions.map (·.sessionID)).Nodup) (hGroups : (sessions.map SessionRow.group).Nodup) :
    ∃ after, db.writeSessions sessions = .ok after := by
  unfold writeSessions
  rw [dif_pos hWindows, dif_pos hIDs, dif_pos hGroups]
  exact ⟨_, rfl⟩

theorem writeGPUs_admits {gpus : List SessionGPU}
    (hKeys : (gpus.map fun row => (row.sessionID, row.gpu)).Nodup)
    (hReservations : (gpus.map fun row => (row.sessionID, row.reservationID)).Nodup) :
    ∃ after, db.writeGPUs gpus = .ok after := by
  unfold writeGPUs
  rw [dif_pos hKeys, dif_pos hReservations]
  exact ⟨_, rfl⟩

end Writes

section GPUs

variable {db after : History} {id : String} {member : ReservationMember}

/-- The session has the GPU. -/
def HasGPU (db : History) (id : String) (gpu : Int) : Prop :=
  ∃ row ∈ db.gpus, row.sessionID = id ∧ row.gpu = gpu

/-- Where the session has the reservation of a member, it has it for the member's GPU. -/
def Agrees (db : History) (id : String) (members : List ReservationMember) : Prop :=
  ∀ row ∈ db.gpus, row.sessionID = id → ∀ member ∈ members,
    row.reservationID = member.reservationID → row.gpu = member.gpu

/-- The rows after one round are rows from before, or have the member's GPU and reservation. -/
theorem upsertGPU_rows (h : upsertGPU id db member = .ok after) :
    (∀ row ∈ after.gpus, row ∈ db.gpus ∨ row = ⟨id, member.gpu, member.reservationID⟩) ∧
      ∀ gpu, after.HasGPU id gpu ↔ db.HasGPU id gpu ∨ gpu = member.gpu := by
  unfold upsertGPU at h
  split at h
  · rename_i hAny
    obtain ⟨_, hGPUs⟩ := writeGPUs_ok h
    obtain ⟨own, hOwn, hSame⟩ := any_eq_true.mp hAny
    rw [Bool.and_eq_true, beq_iff_eq, beq_iff_eq] at hSame
    constructor
    · intro row hRow
      rw [hGPUs] at hRow
      obtain ⟨old, hOld, rfl⟩ := mem_map.mp hRow
      split
      · rename_i hNamed
        right
        rw [← hNamed.1, ← hNamed.2]
      · exact .inl hOld
    · intro gpu
      have hMapped : after.HasGPU id gpu ↔ db.HasGPU id gpu := by
        unfold HasGPU
        rw [hGPUs]
        simp only [mem_map, exists_exists_and_eq_and]
        refine exists_congr fun row => and_congr_right fun _ => ?_
        split
        · rfl
        · rfl
      rw [hMapped]
      refine ⟨.inl, ?_⟩
      rintro (hHas | rfl)
      · exact hHas
      · exact ⟨own, hOwn, hSame⟩
  · obtain ⟨_, hGPUs⟩ := writeGPUs_ok h
    constructor
    · intro row hRow
      rw [hGPUs] at hRow
      simpa using hRow
    · intro gpu
      unfold HasGPU
      rw [hGPUs]
      simp only [mem_append, mem_singleton, or_and_right, exists_or, exists_eq_left,
        true_and, eq_comm]

/-- A round fails only if the reservation is stored for another GPU. -/
theorem upsertGPU_admits (hAgrees : db.Agrees id [member]) :
    ∃ after, upsertGPU id db member = .ok after := by
  have hOwn : ∀ row ∈ db.gpus, row.sessionID = id → row.reservationID = member.reservationID →
      row.gpu = member.gpu := fun row hRow hID => hAgrees row hRow hID member mem_cons_self
  unfold upsertGPU
  split
  · apply writeGPUs_admits
    · rw [map_map]
      convert db.gpuKeys using 3 with row
      simp only [comp_apply]
      split
      · rfl
      · rfl
    · have hRows : db.gpus.Nodup := db.gpuKeys.of_map
      rw [map_map, nodup_map_iff_inj_on hRows]
      intro row hRow other hOther hSame
      simp only [comp_apply] at hSame
      -- the row of the member's GPU is the only one that can get its reservation
      split at hSame
      · rename_i hNamed
        refine inj_on_of_nodup_map db.gpuKeys hRow hOther ?_
        rw [hNamed.1, hNamed.2]
        split at hSame
        · rename_i hNamed'
          rw [hNamed'.1, hNamed'.2]
        · simp only [Prod.mk.injEq] at hSame
          have hID : other.sessionID = id := hSame.1.symm.trans hNamed.1
          rw [hID, hOwn other hOther hID hSame.2.symm]
      · split at hSame
        · rename_i hNot hNamed
          simp only [Prod.mk.injEq] at hSame
          have hID : row.sessionID = id := hSame.1.trans hNamed.1
          exact absurd ⟨hID, hOwn row hRow hID hSame.2⟩ hNot
        · exact inj_on_of_nodup_map db.reservationIDs hRow hOther hSame
  · rename_i hNone
    have hNew : ∀ row ∈ db.gpus, row.sessionID = id → row.gpu ≠ member.gpu := by
      intro row hRow hID hGPU
      exact hNone (any_eq_true.mpr ⟨row, hRow, by simp [hID, hGPU]⟩)
    apply writeGPUs_admits
    · rw [map_append, map_singleton]
      refine db.gpuKeys.append (nodup_singleton _) (disjoint_singleton.mpr fun hTaken => ?_)
      obtain ⟨row, hRow, hKey⟩ := mem_map.mp hTaken
      simp only [Prod.mk.injEq] at hKey
      exact hNew row hRow hKey.1 hKey.2
    · rw [map_append, map_singleton]
      refine db.reservationIDs.append (nodup_singleton _)
        (disjoint_singleton.mpr fun hTaken => ?_)
      obtain ⟨row, hRow, hKey⟩ := mem_map.mp hTaken
      simp only [Prod.mk.injEq] at hKey
      exact hNew row hRow hKey.1 (hOwn row hRow hKey.1 hKey.2)

variable {members : List ReservationMember}

/-- The other members still agree with what one round has left. -/
theorem Agrees.upsertGPU (hAgrees : db.Agrees id (member :: members))
    (hNew : member.reservationID ∉ members.map (·.reservationID))
    (h : upsertGPU id db member = .ok after) : after.Agrees id members := by
  intro row hRow hID other hOther hSame
  rcases (upsertGPU_rows h).1 row hRow with hOld | rfl
  · exact hAgrees row hOld hID other (mem_cons_of_mem _ hOther) hSame
  · exact absurd (mem_map.mpr ⟨other, hOther, hSame.symm⟩) hNew

theorem upsertGPUs_admits (hMembers : (members.map (·.reservationID)).Nodup)
    (hAgrees : db.Agrees id members) : ∃ after, upsertGPUs id members db = .ok after := by
  unfold upsertGPUs
  induction members generalizing db with
  | nil => exact ⟨db, rfl⟩
  | cons member members ih =>
    rw [map_cons, nodup_cons] at hMembers
    have hFirst : db.Agrees id [member] := fun row hRow hID other hOther =>
      hAgrees row hRow hID other (mem_cons.mpr (.inl (mem_singleton.mp hOther)))
    obtain ⟨next, hNext⟩ := upsertGPU_admits hFirst
    obtain ⟨after, hAfter⟩ := ih hMembers.2 (hAgrees.upsertGPU hMembers.1 hNext)
    exact ⟨after, by rw [foldlM_cons, hNext]; exact hAfter⟩

theorem upsertGPUs_hasGPU (h : upsertGPUs id members db = .ok after) (gpu : Int) :
    after.HasGPU id gpu ↔ db.HasGPU id gpu ∨ gpu ∈ members.map (·.gpu) := by
  unfold upsertGPUs at h
  induction members generalizing db with
  | nil =>
    cases h
    simp
  | cons member members ih =>
    rw [foldlM_cons] at h
    obtain ⟨next, hNext, hRest⟩ := Interleaving.bind_ok h
    rw [ih hRest, (upsertGPU_rows hNext).2, map_cons, mem_cons, or_assoc]

end GPUs

section Reports

variable [Unicode] [Digest] {nodeID serverID serverName : String} {payload : ReservationUpsert}
  {occurredAt : Time} {knownOwners : List String} {db : History}

/-- No other session has the group of the report. -/
def GroupFree (nodeID : String) (payload : ReservationUpsert) (db : History) : Prop :=
  ∀ row ∈ db.sessions, row.group = (nodeID, payload.groupID) →
    row.sessionID = reservationSessionID nodeID payload

/-- No other group's session has the id that is made up for the report. -/
def MadeUpIDFree (nodeID : String) (payload : ReservationUpsert) (db : History) : Prop :=
  payload.externalSessionID = "" → ∀ row ∈ db.sessions,
    row.sessionID = reservationSessionID nodeID payload → row.group = (nodeID, payload.groupID)

omit [Unicode] in
/-- The reported session. -/
theorem UpsertedSessions.row {id : String}
    (h : UpsertedSessions nodeID serverID serverName payload occurredAt db sessions id) :
    ∃ row ∈ sessions, row.sessionID = id ∧ row.group = (nodeID, payload.groupID) ∧
      row.provisioning = false ∧ row.ownerUsername = payload.holder ∧
      row.startsAt = millis payload.startsAt ∧ row.expiresAt = millis payload.expiresAt := by
  cases h with
  | byID hNamed hFound =>
    obtain ⟨row, hRow, hID⟩ := hFound
    exact ⟨_, mem_map.mpr ⟨row, hRow, if_pos hID⟩, hID, rfl, rfl, rfl, rfl, rfl⟩
  | byGroup ownerEditable found hFound hGroup hUnnamed =>
    exact ⟨_, mem_map.mpr ⟨found, hFound, if_pos hGroup⟩, rfl, hGroup, rfl, rfl, rfl, rfl⟩
  | inserted ownerEditable hNone hUnnamed =>
    exact ⟨insertedSession nodeID serverID serverName payload occurredAt ownerEditable,
      mem_append_right _ mem_cons_self, insertedSession_sessionID .., rfl, rfl, rfl, rfl,
      rfl⟩

omit [Unicode] in
/-- The session of a report has the id of the report, if no other session has its group. -/
theorem UpsertedSessions.target {id : String}
    (h : UpsertedSessions nodeID serverID serverName payload occurredAt db sessions id)
    (hFree : db.GroupFree nodeID payload) : id = reservationSessionID nodeID payload := by
  cases h with
  | byID hNamed hFound => rfl
  | byGroup ownerEditable found hFound hGroup hUnnamed => exact hFree found hFound hGroup
  | inserted ownerEditable hNone hUnnamed => rfl

omit [Unicode] in
theorem UpsertedSessions.windows {id : String}
    (h : UpsertedSessions nodeID serverID serverName payload occurredAt db sessions id)
    (hWindow : millis payload.startsAt < millis payload.expiresAt) :
    ∀ row ∈ sessions, row.startsAt < row.expiresAt := by
  intro row hRow
  rcases h.mem hRow with hOld | hReported
  · exact db.windows row hOld
  · rwa [hReported.startsAt, hReported.expiresAt]

omit [Unicode] in
theorem UpsertedSessions.sessionIDs {id : String}
    (h : UpsertedSessions nodeID serverID serverName payload occurredAt db sessions id)
    (hMadeUp : db.MadeUpIDFree nodeID payload) : (sessions.map (·.sessionID)).Nodup := by
  cases h with
  | byID | byGroup =>
    rw [map_updated]
    · exact db.sessionIDs
    · exact fun _ => rfl
  | inserted ownerEditable hNone hUnnamed =>
    rw [map_append, map_singleton, insertedSession_sessionID]
    refine db.sessionIDs.append (nodup_singleton _)
      (disjoint_singleton.mpr fun hTaken => ?_)
    obtain ⟨row, hRow, hID⟩ := mem_map.mp hTaken
    by_cases hNamed : payload.externalSessionID = ""
    · exact hNone row hRow (hMadeUp hNamed row hRow hID)
    · exact hUnnamed hNamed row hRow hID

omit [Unicode] in
theorem UpsertedSessions.groups {id : String}
    (h : UpsertedSessions nodeID serverID serverName payload occurredAt db sessions id)
    (hFree : db.GroupFree nodeID payload) : (sessions.map SessionRow.group).Nodup := by
  cases h with
  | byID hNamed hFound =>
    have hRows : db.sessions.Nodup := db.sessionIDs.of_map
    rw [map_map, nodup_map_iff_inj_on hRows]
    intro row hRow other hOther hSame
    simp only [comp_apply] at hSame
    -- two rows can have the reported group only if both have the reported id
    refine inj_on_of_nodup_map db.sessionIDs hRow hOther ?_
    split at hSame
    · rename_i hID
      split at hSame
      · rename_i hID'
        rw [hID, hID']
      · rw [hID, hFree other hOther hSame.symm]
    · split at hSame
      · rename_i hID
        rw [hID, hFree row hRow hSame]
      · rw [inj_on_of_nodup_map db.groups hRow hOther hSame]
  | byGroup ownerEditable found hFound hGroup hUnnamed =>
    rw [map_updated]
    · exact db.groups
    · exact fun _ => rfl
  | inserted ownerEditable hNone hUnnamed =>
    rw [map_append, map_singleton]
    refine db.groups.append (nodup_singleton _)
      (disjoint_singleton.mpr fun hTaken => ?_)
    obtain ⟨row, hRow, hGroup⟩ := mem_map.mp hTaken
    exact hNone row hRow hGroup

/-- The constraints admit a well-formed report. -/
theorem applyReservation_admits (hGroup : payload.groupID ≠ "") (hHolder : payload.holder ≠ "")
    (hWindow : millis payload.startsAt < millis payload.expiresAt)
    (hFree : db.GroupFree nodeID payload) (hMadeUp : db.MadeUpIDFree nodeID payload)
    (hMembers : (payload.members.map (·.reservationID)).Nodup)
    (hAgrees : db.Agrees (reservationSessionID nodeID payload) payload.members) :
    ∃ after, db.applyReservation nodeID serverID serverName payload occurredAt knownOwners =
      .ok after := by
  obtain ⟨sessions, id, hUpserted, hEq⟩ := @applyReservation_eq _ _ nodeID serverID serverName
    payload occurredAt knownOwners db hGroup hHolder (lt_of_millis_lt hWindow)
  obtain ⟨written, hWrite⟩ := writeSessions_admits (hUpserted.windows hWindow)
    (hUpserted.sessionIDs hMadeUp) (hUpserted.groups hFree)
  have hWritten : written.Agrees id payload.members := by
    rw [Agrees, (writeSessions_ok hWrite).2, hUpserted.target hFree]
    exact hAgrees
  obtain ⟨after, hAfter⟩ := upsertGPUs_admits hMembers hWritten
  exact ⟨after, by rw [hEq, hWrite]; exact hAfter⟩

omit [Unicode] in
/-- A report that was applied found the id free that was made up for it. -/
theorem UpsertedSessions.madeUpIDFree {id : String}
    (h : UpsertedSessions nodeID serverID serverName payload occurredAt db sessions id)
    (hFree : db.GroupFree nodeID payload) (hIDs : (sessions.map (·.sessionID)).Nodup) :
    db.MadeUpIDFree nodeID payload := by
  intro hEmpty row hRow hID
  cases h with
  | byID hNamed hFound => exact absurd hEmpty hNamed
  | byGroup ownerEditable found hFound hGroup hUnnamed =>
    rw [inj_on_of_nodup_map db.sessionIDs hRow hFound
      (hID.trans (hFree found hFound hGroup).symm)]
    exact hGroup
  | inserted ownerEditable hNone hUnnamed =>
    rw [map_append, map_singleton, insertedSession_sessionID, nodup_append] at hIDs
    exact absurd hID (hIDs.2.2 _ (mem_map_of_mem hRow) _ mem_cons_self)

/-- What the constraints ask of a report whose group is free: a window of whole milliseconds, and a
free id where one is made up. -/
theorem applyReservation_admits_iff (hGroup : payload.groupID ≠ "") (hHolder : payload.holder ≠ "")
    (hFree : db.GroupFree nodeID payload)
    (hMembers : (payload.members.map (·.reservationID)).Nodup)
    (hAgrees : db.Agrees (reservationSessionID nodeID payload) payload.members) :
    (∃ after, db.applyReservation nodeID serverID serverName payload occurredAt knownOwners =
      .ok after) ↔
      millis payload.startsAt < millis payload.expiresAt ∧ db.MadeUpIDFree nodeID payload := by
  constructor
  · rintro ⟨after, h⟩
    obtain ⟨id, written, hUpserted, _⟩ := applyReservation_ok h
    constructor
    · obtain ⟨row, hRow, _, _, _, _, hStarts, hExpires⟩ := hUpserted.row
      rw [← hStarts, ← hExpires]
      exact after.windows row hRow
    · exact hUpserted.madeUpIDFree hFree after.sessionIDs
  · rintro ⟨hWindow, hMadeUp⟩
    exact applyReservation_admits hGroup hHolder hWindow hFree hMadeUp hMembers hAgrees

end Reports

end History

end GPUardian
