import GPUardian.Telemetry.Outbox
import Mathlib.Logic.Relation

/-! What an append does to the outbox and its directory, whichever of its steps fail: a sequence of
actions, each of which the invariants are proved for. -/
namespace GPUardian.Telemetry

open GoLines

section Actions

variable {α : Type}

/-- The text is that of the next event, and the last segment has room for it. -/
structure NextLine (json : JSON α) (spool : Spool) (seg : Segment) (event : Event) (text : Bytes) :
    Prop where
  last : spool.box.segments.getLast? = some seg
  seq : event.seq = spool.box.nextSeq
  payload : ∃ value, json.marshalPayload value = .ok event.payload
  encoded : json.marshal event = .ok text
  fits : seg.size + ↑(text ++ [newline]).length ≤ (maxSegmentBytes : Int) ∨ seg.size = 0

/-- One action of an append. -/
inductive Acts (json : JSON α) (spool : Spool) : Spool → Prop where
  | sync {path : Nat} (hCurrent : spool.box.current = some { path := path }) :
      Acts json spool
        { spool with durable := spool.durable ++ spool.complete.filter (·.segment = path) }
  | close :
      Acts json spool
        { spool with
          box := { spool.box with current := spool.box.current.map ({ · with isOpen := false }) } }
  | newSegment (created : Time) : Acts json spool (spool.newSegment spool.box.nextSeq created)
  | tear {path : Nat} (part : Bytes) (hCurrent : spool.box.current = some { path := path }) :
      Acts json spool { spool with files := spool.files.append path part }
  | write {path : Nat} {seg : Segment} {event : Event} {text : Bytes}
      (hCurrent : spool.box.current = some { path := path })
      (hLine : NextLine json spool seg event text) :
      Acts json spool (spool.addLine path event (text ++ [newline]))

abbrev Acting (json : JSON α) : Spool → Spool → Prop := Relation.ReflTransGen (Acts json)

variable {json : JSON α} {spool : Spool} {io : EventIO} {event : Event} {text : Bytes}

theorem record_of_getLast? {box : Outbox} {seg : Segment} {event : Event} {size : Nat}
    (hLast : box.segments.getLast? = some seg) :
    box.record event size =
      { box with
        segments := box.segments.dropLast ++
          [{ seg with last := event.seq, size := seg.size + size, lastAt := event.occurredAt }]
        totalBytes := box.totalBytes + size
        events := box.events ++ [{ event with segment := seg.path }]
        nextSeq := box.nextSeq + 1 } := by
  simp only [Outbox.record, hLast]

/-- A sync changes nothing but what is durable. -/
theorem syncIfLocked_eq (unsynced : Bool) (error : Option String) (spool : Spool) :
    ∃ durable, (spool.syncIfLocked unsynced error).1 = { spool with durable := durable } := by
  unfold Spool.syncIfLocked
  split
  · split
    · split
      · exact ⟨spool.durable, rfl⟩
      · exact ⟨_, rfl⟩
    · exact ⟨spool.durable, rfl⟩
  · exact ⟨spool.durable, rfl⟩

@[simp]
theorem syncIfLocked_box (unsynced : Bool) (error : Option String) (spool : Spool) :
    (spool.syncIfLocked unsynced error).1.box = spool.box := by
  obtain ⟨durable, hSync⟩ := syncIfLocked_eq unsynced error spool
  rw [hSync]

theorem syncIfLocked_acts (json : JSON α) (unsynced : Bool) (error : Option String) (spool : Spool) :
    Acting json spool (spool.syncIfLocked unsynced error).1 := by
  unfold Spool.syncIfLocked
  split
  · rename_i handle hHandle
    split
    · rename_i hOpen
      split
      · exact .refl
      · refine .single (.sync ?_)
        rw [hHandle, ← hOpen]
    · exact .refl
  · exact .refl

theorem rotateLocked_acts (json : JSON α) (io : EventIO) (spool : Spool) :
    Acting json spool (spool.rotateLocked io spool.box.nextSeq).1 := by
  have hClose : Acts json spool { spool with
      box := { spool.box with current := spool.box.current.map ({ · with isOpen := false }) } } := .close
  unfold Spool.rotateLocked
  dsimp only
  split
  · split
    · exact .single hClose
    · exact (Relation.ReflTransGen.single hClose).tail (.newSegment io.created)
  · split
    · split
      · exact .single hClose
      · split
        · exact .single hClose
        · exact (Relation.ReflTransGen.single hClose).tail (.newSegment io.created)
    · exact .refl

theorem Acts.frame {after : Spool} (h : Acts json spool after) :
    after.box.streamID = spool.box.streamID ∧ spool.box.nextSeq ≤ after.box.nextSeq := by
  cases h with
  | write _ hLine =>
    rw [Spool.addLine, record_of_getLast? hLine.last]
    exact ⟨rfl, Nat.le_succ _⟩
  | _ => exact ⟨rfl, Nat.le_refl _⟩

theorem Acting.frame {after : Spool} (h : Acting json spool after) :
    after.box.streamID = spool.box.streamID ∧ spool.box.nextSeq ≤ after.box.nextSeq := by
  induction h with
  | refl => exact ⟨rfl, Nat.le_refl _⟩
  | tail _ hLast ih => exact ⟨hLast.frame.1.trans ih.1, ih.2.trans hLast.frame.2⟩

theorem pruneSegments_frame (cutoff : Time) (segments : List Segment) (spool : Spool) :
    (Spool.pruneSegments cutoff segments spool).box.streamID = spool.box.streamID ∧
      (Spool.pruneSegments cutoff segments spool).box.nextSeq = spool.box.nextSeq := by
  induction segments generalizing spool with
  | nil => exact ⟨rfl, rfl⟩
  | cons seg rest ih =>
    cases rest with
    | nil => exact ⟨rfl, rfl⟩
    | cons next rest =>
      rw [Spool.pruneSegments]
      split
      · exact ⟨rfl, rfl⟩
      · exact ih _

theorem pruneLocked_frame (now : Time) (spool : Spool) :
    (spool.pruneLocked now).box.streamID = spool.box.streamID ∧
      (spool.pruneLocked now).box.nextSeq = spool.box.nextSeq :=
  pruneSegments_frame ..

/-- A rotation without an error ends with the new segment. -/
theorem rotateLocked_segments {first : Nat} {rotated : Spool}
    (h : spool.rotateLocked io first = (rotated, none)) :
    rotated.box.segments.getLast? =
        some { path := first, first := first, created := io.created } ∧
      rotated.box.nextSeq = spool.box.nextSeq := by
  have hNew : ∀ before : Spool, (before.newSegment first io.created).box.segments.getLast? =
      some { path := first, first := first, created := io.created } := fun before => by
    simp [Spool.newSegment]
  unfold Spool.rotateLocked at h
  dsimp only at h
  split at h
  · split at h
    · cases h
    · cases h
      exact ⟨hNew _, rfl⟩
  · split at h
    · split at h
      · cases h
      · split at h
        · cases h
        · cases h
          exact ⟨hNew _, rfl⟩
    · cases h

/-- The last segment has room for a line that does not need a new one. -/
theorem needsRotation_false {box : Outbox} {size : Nat} {now : Time}
    (h : box.needsRotation size now = false) :
    ∃ seg, box.segments.getLast? = some seg ∧ seg.size + size ≤ (maxSegmentBytes : Int) := by
  unfold Outbox.needsRotation at h
  split at h
  · rename_i seg _ hLast
    rw [Bool.or_eq_false_iff, decide_eq_false_iff_not] at h
    exact ⟨seg, hLast, Int.not_lt.mp h.1⟩
  · cases h

theorem writeLine_acts (io : EventIO) {seg : Segment} (hLine : NextLine json spool seg event text) :
    Acting json spool (spool.writeLine io event (text ++ [newline])).1 := by
  unfold Spool.writeLine
  cases hCurrent : spool.box.current with
  | none => exact .refl
  | some handle =>
    dsimp only
    split
    · rename_i hOpen
      have hCurrent : spool.box.current = some { path := handle.path } := by rw [hCurrent, ← hOpen]
      split
      · exact .single (.write hCurrent hLine)
      · exact .single (.tear _ hCurrent)
    · exact .refl

theorem write_acts (io : EventIO) (state : Appending) {seg : Segment}
    (hLine : NextLine json state.spool seg event text) :
    Acting json state.spool (state.write io event (text ++ [newline])).1.spool := by
  have hWrite := writeLine_acts io hLine
  unfold Appending.write
  split
  · rename_i spool error hFailed
    rw [hFailed] at hWrite
    exact hWrite.trans (syncIfLocked_acts ..)
  · rename_i spool hDone
    rwa [hDone] at hWrite

theorem append_acts (io : EventIO) {state : Appending} {item : BatchEvent α} {payload : Bytes}
    (hPayload : json.marshalPayload item.payload = .ok payload) :
    Acting json state.spool (state.append json io item payload).1.spool := by
  unfold Appending.append
  dsimp only
  split
  · exact syncIfLocked_acts ..
  · rename_i text hText
    split
    · have hSync := syncIfLocked_acts json state.unsynced io.sync state.spool
      have hBox := syncIfLocked_box state.unsynced io.sync state.spool
      split
      · rename_i synced error hSynced
        rwa [hSynced] at hSync
      · rename_i synced hSynced
        rw [hSynced] at hSync hBox
        have hSeq : (state.spool.box.event io item payload).seq = synced.box.nextSeq := by
          rw [show synced.box = state.spool.box from hBox]
          rfl
        have hRotate := rotateLocked_acts json io synced
        rw [← hSeq] at hRotate
        split
        · rename_i rotated error hRotated
          rw [hRotated] at hRotate
          exact hSync.trans hRotate
        · rename_i rotated hRotated
          obtain ⟨hLast, hNext⟩ := rotateLocked_segments hRotated
          rw [hRotated] at hRotate
          exact (hSync.trans hRotate).trans
            (write_acts io ⟨rotated, false, state.appended⟩ ⟨hLast, hSeq.trans hNext.symm,
              ⟨_, hPayload⟩, hText, .inr rfl⟩)
    · rename_i hRotates
      obtain ⟨seg, hLast, hFits⟩ := needsRotation_false (Bool.eq_false_iff.mpr hRotates)
      exact write_acts io state ⟨hLast, rfl, ⟨_, hPayload⟩, hText, .inl hFits⟩

theorem write_ok_records {state next : Appending} {line : Bytes}
    (h : state.write io event line = (next, none)) :
    next.spool.box = state.spool.box.record event line.length := by
  unfold Appending.write at h
  split at h
  · cases h
  · rename_i spool hLine
    cases h
    unfold Spool.writeLine at hLine
    split at hLine
    · cases hLine
    · split at hLine
      · split at hLine
        · cases hLine
          rfl
        · cases hLine
      · cases hLine

/-- A round without an error ends with the record of its event in the last segment. -/
theorem append_ok_records (io : EventIO) {state next : Appending} {item : BatchEvent α}
    {payload : Bytes} (h : state.append json io item payload = (next, none)) :
    ∃ middle seg size, Acting json state.spool middle ∧ middle.box.segments.getLast? = some seg ∧
      next.spool.box = middle.box.record (state.spool.box.event io item payload) size := by
  unfold Appending.append at h
  dsimp only at h
  split at h
  · cases h
  · rename_i text hText
    split at h
    · have hSync := syncIfLocked_acts json state.unsynced io.sync state.spool
      have hBox := syncIfLocked_box state.unsynced io.sync state.spool
      split at h
      · cases h
      · rename_i synced hSynced
        rw [hSynced] at hSync hBox
        have hSeq : (state.spool.box.event io item payload).seq = synced.box.nextSeq := by
          rw [show synced.box = state.spool.box from hBox]
          rfl
        have hRotate := rotateLocked_acts json io synced
        rw [← hSeq] at hRotate
        split at h
        · cases h
        · rename_i rotated hRotated
          obtain ⟨hLast, _⟩ := rotateLocked_segments hRotated
          rw [hRotated] at hRotate
          exact ⟨rotated, _, _, hSync.trans hRotate, hLast, write_ok_records h⟩
    · rename_i hRotates
      obtain ⟨seg, hLast, _⟩ := needsRotation_false (Bool.eq_false_iff.mpr hRotates)
      exact ⟨state.spool, seg, _, .refl, hLast, write_ok_records h⟩

theorem appendAll_acts (state : Appending) {items : List (BatchEvent α × Bytes × EventIO)}
    (hPayloads : ∀ entry ∈ items, json.marshalPayload entry.1.payload = .ok entry.2.1) :
    Acting json state.spool (state.appendAll json items).1.spool := by
  induction items generalizing state with
  | nil => exact .refl
  | cons entry rest ih =>
    obtain ⟨item, payload, io⟩ := entry
    rw [List.forall_mem_cons] at hPayloads
    have hRound : Acting json state.spool (state.append json io item payload).1.spool :=
      append_acts io hPayloads.1
    rw [Appending.appendAll]
    split
    · rename_i next error hAppend
      rwa [hAppend] at hRound
    · rename_i next hAppend
      rw [hAppend] at hRound
      exact hRound.trans (ih next hPayloads.2)

end Actions

end GPUardian.Telemetry
