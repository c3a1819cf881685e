import GPUardian.Telemetry.Paging
import GPUardian.Telemetry.Recovery

/-! Appending after failures. When the disk works again, what decides is the handle that the failures
have left in `current`. -/
namespace GPUardian.Telemetry

open GoLines List Interleaving

section Resume

variable {α : Type} {json : JSON α} {spool : Spool} {io : EventIO} {state : Appending}
  {item : BatchEvent α} {payload : Bytes}

/-- The current segment is not a file that was closed. -/
def Outbox.Usable (box : Outbox) : Prop := ∀ handle ∈ box.current, handle.isOpen = true

instance (box : Outbox) : Decidable box.Usable :=
  inferInstanceAs (Decidable (∀ handle ∈ box.current, handle.isOpen = true))

/-- The items of a batch can be encoded. -/
def Encodable (json : JSON α) (entry : BatchEvent α × EventIO) : Prop :=
  (∃ payload, json.marshalPayload entry.1.payload = .ok payload) ∧
    ∀ box payload, ∃ text, json.marshal (Outbox.event entry.2 entry.1 payload box) = .ok text

theorem record_current (event : Event) (size : Nat) (box : Outbox) :
    (box.record event size).current = box.current := by
  unfold Outbox.record
  split <;> rfl

/-- A write to an open file. -/
theorem write_usable {handle : Handle} {event : Event} {line : Bytes} (hWrite : io.write = none)
    (hCurrent : state.spool.box.current = some handle) (hOpen : handle.isOpen = true) :
    ∃ next, state.write io event line = (next, none) ∧ next.spool.box.Usable := by
  unfold Appending.write Spool.writeLine
  rw [hCurrent, hWrite]
  dsimp only
  rw [if_pos hOpen]
  refine ⟨_, rfl, ?_⟩
  intro other hOther
  rw [Spool.addLine, record_current, hCurrent] at hOther
  cases hOther
  exact hOpen

/-- A round goes through if the current segment is usable and nothing fails. -/
theorem append_usable (hClean : io.Clean) (hUsable : state.spool.box.Usable) {text : Bytes}
    (hText : json.marshal (state.spool.box.event io item payload) = .ok text) :
    ∃ next, state.append json io item payload = (next, none) ∧ next.spool.box.Usable := by
  obtain ⟨hSync, hClose, hOpen, hWrite⟩ := hClean
  unfold Appending.append
  simp only [hText]
  split
  · obtain ⟨synced, hSynced⟩ := syncIfLocked_none state.unsynced hUsable
    have hStill : ({ state.spool with durable := synced } : Spool).box.Usable := hUsable
    rw [hSync, hSynced]
    dsimp only
    rw [rotateLocked_ok hClose hOpen hStill]
    exact write_usable hWrite rfl rfl
  · rename_i hRotates
    unfold Outbox.needsRotation at hRotates
    split at hRotates
    · rename_i handle seg hCurrent _
      exact write_usable hWrite hCurrent (hUsable handle hCurrent)
    · exact absurd rfl hRotates

theorem rotateLocked_closed {handle : Handle} {first : Nat}
    (hCurrent : spool.box.current = some handle) (hClosed : handle.isOpen = false) :
    spool.rotateLocked io first = (spool, some "file already closed") := by
  unfold Spool.rotateLocked
  simp only [hCurrent, hClosed, Bool.false_eq_true, if_false]

theorem writeLine_closed {handle : Handle} {event : Event} {line : Bytes}
    (hCurrent : spool.box.current = some handle) (hClosed : handle.isOpen = false) :
    spool.writeLine io event line = (spool, some "file already closed") := by
  unfold Spool.writeLine
  simp only [hCurrent, hClosed, Bool.false_eq_true, if_false]

/-- No round goes through with a closed file. -/
theorem append_closed (json : JSON α) (io : EventIO) (item : BatchEvent α) (payload : Bytes)
    (state : Appending) {handle : Handle} (hCurrent : state.spool.box.current = some handle)
    (hClosed : handle.isOpen = false) :
    ∃ next error, state.append json io item payload = (next, some error) := by
  unfold Appending.append
  dsimp only
  split
  · exact ⟨_, _, rfl⟩
  · split
    · obtain ⟨durable, hSync⟩ := syncIfLocked_eq state.unsynced io.sync state.spool
      split
      · exact ⟨_, _, rfl⟩
      · rename_i synced hSynced
        rw [hSynced] at hSync
        have hStill : synced.box.current = some handle := by
          rw [show synced = { state.spool with durable := durable } from hSync]
          exact hCurrent
        rw [rotateLocked_closed hStill hClosed]
        exact ⟨_, _, rfl⟩
    · unfold Appending.write
      rw [writeLine_closed hCurrent hClosed]
      exact ⟨_, _, rfl⟩

/-- The event of an item that was appended. -/
def OfItem (json : JSON α) (event : Event) (entry : BatchEvent α × EventIO) : Prop :=
  event.type = entry.1.type ∧ json.marshalPayload entry.1.payload = .ok event.payload ∧
    event.occurredAt = if entry.1.occurredAt = 0 then entry.2.stamp else entry.1.occurredAt

section Appended

variable {next : Appending} {error : Option String}

theorem write_appended {event : Event} {line : Bytes}
    (h : state.write io event line = (next, error)) :
    next.appended = state.appended ++ if error = none then [event] else [] := by
  unfold Appending.write at h
  split at h
  · cases h
    simp
  · cases h
    simp

theorem append_appended (h : state.append json io item payload = (next, error)) :
    next.appended = state.appended ++
      if error = none then [state.spool.box.event io item payload] else [] := by
  unfold Appending.append at h
  dsimp only at h
  split at h
  · cases h
    simp
  · split at h
    · split at h
      · cases h
        simp
      · split at h
        · cases h
          simp
        · have hWrite := write_appended h
          exact hWrite
    · exact write_appended h

/-- The events that are appended are those of the first items of the batch. -/
theorem appendAll_appended {batch : List (BatchEvent α × EventIO)}
    {items : List (BatchEvent α × Bytes × EventIO)} (hItems : marshalPayloads json batch = .ok items)
    (h : state.appendAll json items = (next, error)) :
    ∃ events taken left, batch = taken ++ left ∧ next.appended = state.appended ++ events ∧
      List.Forall₂ (OfItem json) events taken ∧ (error = none → left = []) := by
  induction batch generalizing items state with
  | nil =>
    cases hItems
    cases h
    exact ⟨[], [], [], rfl, (append_nil _).symm, .nil, fun _ => rfl⟩
  | cons entry batch ih =>
    obtain ⟨item, io⟩ := entry
    obtain ⟨payload, rest, hPayload, hRest, rfl⟩ := marshalPayloads_cons hItems
    rw [Appending.appendAll] at h
    split at h
    · rename_i hAppend
      cases h
      exact ⟨[], [], _, rfl, append_appended hAppend, .nil, by simp⟩
    · rename_i hAppend
      obtain ⟨events, taken, left, rfl, hEvents, hOf, hAll⟩ := ih hRest h
      refine ⟨state.spool.box.event io item payload :: events, (item, io) :: taken, left, rfl, ?_,
        .cons ⟨rfl, hPayload, rfl⟩ hOf, hAll⟩
      rw [hEvents, append_appended hAppend, if_pos rfl, append_assoc, singleton_append]

end Appended

theorem appendAll_usable (state : Appending) {batch : List (BatchEvent α × EventIO)}
    {items : List (BatchEvent α × Bytes × EventIO)} (hItems : marshalPayloads json batch = .ok items)
    (hClean : ∀ entry ∈ batch, entry.2.Clean) (hEncodable : ∀ entry ∈ batch, Encodable json entry)
    (hUsable : state.spool.box.Usable) :
    ∃ next, state.appendAll json items = (next, none) ∧ next.spool.box.Usable := by
  induction batch generalizing items state with
  | nil =>
    cases hItems
    exact ⟨state, rfl, hUsable⟩
  | cons entry batch ih =>
    obtain ⟨item, io⟩ := entry
    rw [forall_mem_cons] at hClean hEncodable
    obtain ⟨payload, rest, _, hRest, rfl⟩ := marshalPayloads_cons hItems
    obtain ⟨text, hText⟩ := hEncodable.1.2 state.spool.box payload
    obtain ⟨next, hAppend, hNext⟩ := append_usable hClean.1 hUsable hText
    rw [Appending.appendAll, hAppend]
    exact ih next hRest hClean.2 hEncodable.2 hNext

theorem marshalPayloads_encodable {batch : List (BatchEvent α × EventIO)}
    (hEncodable : ∀ entry ∈ batch, Encodable json entry) :
    ∃ items, marshalPayloads json batch = .ok items := by
  induction batch with
  | nil => exact ⟨[], rfl⟩
  | cons entry batch ih =>
    rw [forall_mem_cons] at hEncodable
    obtain ⟨payload, hPayload⟩ := hEncodable.1.1
    obtain ⟨items, hItems⟩ := ih hEncodable.2
    refine ⟨(entry.1, payload, entry.2) :: items, ?_⟩
    rw [marshalPayloads, hPayload, hItems]
    rfl

/-- With a disk that works, a batch is appended exactly if the current segment is not a file that was
closed: a rotation that fails after the close leaves such a file behind for good. -/
theorem append_resumes_iff_usable (spool : Spool) {batch : List (BatchEvent α × EventIO)}
    {io : BatchIO} (hBatch : batch ≠ []) (hClean : ∀ entry ∈ batch, entry.2.Clean)
    (hSync : io.sync = none) (hEncodable : ∀ entry ∈ batch, Encodable json entry) :
    (∃ events, (spool.appendBatch json io batch).2 = (events, none) ∧
        List.Forall₂ (OfItem json) events batch) ↔ spool.box.Usable := by
  obtain ⟨items, hItems⟩ := marshalPayloads_encodable hEncodable
  have hSome : batch.isEmpty = false := by simpa using hBatch
  unfold Spool.appendBatch
  simp only [hSome, hItems, Bool.false_eq_true, if_false]
  constructor
  · rintro ⟨events, hDone, _⟩
    by_contra hUnusable
    obtain ⟨handle, hCurrent, hClosed⟩ :
        ∃ handle, spool.box.current = some handle ∧ handle.isOpen = false := by
      simpa [Outbox.Usable] using hUnusable
    obtain ⟨⟨item, io⟩, batch, rfl⟩ := exists_cons_of_ne_nil hBatch
    obtain ⟨payload, rest, _, _, rfl⟩ := marshalPayloads_cons hItems
    obtain ⟨next, error, hAppend⟩ :=
      append_closed json io item payload { spool := spool } hCurrent hClosed
    rw [Appending.appendAll, hAppend] at hDone
    cases hDone
  · intro hUsable
    obtain ⟨last, hAll, hLast⟩ :=
      appendAll_usable { spool := spool } hItems hClean hEncodable hUsable
    obtain ⟨events, taken, left, rfl, hEvents, hOf, hNone⟩ := appendAll_appended hItems hAll
    obtain ⟨durable, hDurable⟩ := syncIfLocked_none last.unsynced hLast
    rw [hAll]
    dsimp only
    rw [hSync, hDurable]
    refine ⟨events, by rw [hEvents]; rfl, ?_⟩
    rwa [hNone rfl, append_nil]

end Resume

theorem encodable_plain (entry : BatchEvent Bytes × EventIO) : Encodable JSON.plain entry :=
  ⟨⟨entry.1.payload, rfl⟩, fun _ _ => ⟨_, rfl⟩⟩

theorem startBatch_clean : ∀ entry ∈ startBatch, entry.2.Clean := by
  intro entry hMem
  obtain ⟨event, _, rfl⟩ := mem_map.mp hMem
  exact ⟨rfl, rfl, rfl, rfl⟩

/-- A write that failed does not keep the outbox from appending. -/
theorem append_resumes_after_full_disk :
    let spool := run (appendStep JSON.plain) startSpool [(fullDisk, {})]
    spool.box.Usable ∧ ∃ events, (spool.appendBatch JSON.plain {} startBatch).2 = (events, none) ∧
      List.Forall₂ (OfItem JSON.plain) events startBatch := by
  intro spool
  have hUsable : spool.box.Usable := by decide +kernel
  exact ⟨hUsable, (append_resumes_iff_usable spool (by decide) startBatch_clean rfl
    fun entry _ => encodable_plain entry).mpr hUsable⟩

/-- An hour after its first event the outbox goes on to a new segment, which cannot be opened. -/
def failedRotation : List (BatchEvent Bytes × EventIO) :=
  [({ type := "gpu.sample", payload := [123, 125], occurredAt := 6 },
    { now := maxSegmentAge, «open» := some "too many open files" })]

/-- After a rotation that could not open its file no batch is appended any more. -/
theorem append_stuck_after_failed_rotation :
    ¬ ∀ (calls : List (List (BatchEvent Bytes × EventIO) × BatchIO))
      (batch : List (BatchEvent Bytes × EventIO)), (∀ entry ∈ batch, entry.2.Clean) →
      (∀ entry ∈ batch, Encodable JSON.plain entry) →
      ∃ events, ((run (appendStep JSON.plain) startSpool calls).appendBatch JSON.plain {}
        batch).2 = (events, none) := by
  intro hAll
  obtain ⟨events, hDone⟩ := hAll [(startBatch, {}), (failedRotation, {})] startBatch startBatch_clean
    fun entry _ => encodable_plain entry
  have hError : ((run (appendStep JSON.plain) startSpool
      [(startBatch, {}), (failedRotation, {})]).appendBatch JSON.plain {} startBatch).2.2 =
        some "file already closed" := by decide +kernel
  rw [hDone] at hError
  cases hError

end GPUardian.Telemetry
