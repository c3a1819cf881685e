import GPUardian.Telemetry.Segments

/-! Reading the outbox back from its directory. -/
namespace GPUardian.Telemetry

open GoLines List Interleaving

section Load

variable {α : Type} {json : JSON α} {block : List (StoredEvent × Bytes)}

theorem Written.no_control {entry : StoredEvent × Bytes} (h : Written json entry) {byte : UInt8}
    (hByte : byte < 32) : byte ∉ entry.2 := by
  intro hMem
  exact absurd hByte (UInt8.not_lt.mpr (json.printable _ _ h.2 byte hMem))

theorem Written.unmarshal {entry : StoredEvent × Bytes} (h : Written json entry) :
    json.unmarshal entry.2 = some entry.1.toEvent := by
  obtain ⟨⟨value, hPayload⟩, hText⟩ := h
  exact json.unmarshal_marshal value _ _ hPayload hText

/-- The lines of written events are read back, unless one of them has no type. -/
theorem loadLines_written {path : Nat} (hWritten : ∀ entry ∈ block, Written json entry)
    (hInside : ∀ entry ∈ block, entry.1.segment = path)
    (hSeq : ∀ entry ∈ block, 0 < entry.1.seq) :
    loadLines json path (block.map (·.2)) =
      if ∀ entry ∈ block, entry.1.type ≠ "" then .ok (block.map (·.1))
      else .error s!"invalid telemetry segment {path}" := by
  induction block with
  | nil => rfl
  | cons entry block ih =>
    rw [forall_mem_cons] at hWritten hInside hSeq
    rw [map_cons, loadLines, hWritten.1.unmarshal]
    dsimp only
    by_cases hType : entry.1.type = ""
    · rw [if_pos (.inr hType), if_neg (by simp [hType])]
    · rw [if_neg (by have hPos := hSeq.1; rw [not_or]; exact ⟨by omega, hType⟩),
        ih hWritten.2 hInside.2 hSeq.2]
      by_cases hTypes : ∀ entry ∈ block, entry.1.type ≠ ""
      · have hAll : ∀ other ∈ entry :: block, other.1.type ≠ "" :=
          forall_mem_cons.mpr ⟨hType, hTypes⟩
        rw [if_pos hTypes, if_pos hAll]
        have hEntry : ({ entry.1.toEvent with segment := path } : StoredEvent) = entry.1 := by
          rw [← hInside.1]
        show Except.ok (({ entry.1.toEvent with segment := path } : StoredEvent) ::
          block.map (·.1)) = _
        rw [hEntry, map_cons]
      · rw [if_neg hTypes, if_neg (fun h => hTypes (forall_mem_cons.mp h).2)]
        rfl

theorem fileText_eq (block : List (StoredEvent × Bytes)) :
    fileText block = (block.map (·.2)).flatMap (· ++ [newline]) := by
  rw [fileText, flatMap_map]

/-- What a segment file adds to the outbox that is being loaded. -/
def Outbox.withSegment (modTime : Nat → Time) (part : Segment × List (StoredEvent × Bytes))
    (box : Outbox) : Outbox :=
  { box with
    events := box.events ++ part.2.map (·.1)
    segments := box.segments ++ [{ part.1 with created := modTime part.1.path }]
    totalBytes := box.totalBytes + part.1.size }

/-- A segment that `loadSegment` accepts: its lines fit the buffer, its size the limit of the reader,
and its events have types. -/
structure Legible (part : Segment × List (StoredEvent × Bytes)) : Prop where
  size : part.1.size ≤ maxSegmentBytes
  fits : ∀ entry ∈ part.2, entry.2.length < maxLineBytes
  types : ∀ entry ∈ part.2, entry.1.type ≠ ""

theorem scan_written (hWritten : ∀ entry ∈ block, Written json entry)
    (hFits : ∀ entry ∈ block, entry.2.length < maxLineBytes) :
    scan maxLineBytes [] (fileText block) = (block.map (·.2), false) := by
  rw [fileText_eq]
  refine scan_lines (forall_mem_map.mpr fun entry hEntry => ?_)
    (forall_mem_map.mpr fun entry hEntry => ?_) (forall_mem_map.mpr hFits)
  · exact (hWritten entry hEntry).no_control (by decide)
  · exact (hWritten entry hEntry).no_control (by decide)

/-- A legible file is loaded as the part that it was written from. -/
theorem loadSegment_legible {part : Segment × List (StoredEvent × Bytes)} (modTime : Nat → Time)
    (box : Outbox) (hHolds : part.1.Holds part.2) (hFull : part.2 ≠ [])
    (hWritten : ∀ entry ∈ part.2, Written json entry) (hSeq : ∀ entry ∈ part.2, 0 < entry.1.seq)
    (hLegible : Legible part) :
    loadSegment json modTime part.1.path (fileText part.2) box = .ok (box.withSegment modTime part) := by
  obtain ⟨seg, block⟩ := part
  dsimp only at hHolds hFull hWritten hSeq ⊢
  have hTake : (fileText block).take (maxSegmentBytes + 1) = fileText block := by
    refine take_of_length_le ?_
    have hSize : seg.size ≤ maxSegmentBytes := hLegible.size
    rw [hHolds.size] at hSize
    omega
  unfold loadSegment
  rw [hTake, scan_written hWritten hLegible.fits]
  dsimp only
  rw [loadLines_written hWritten hHolds.inside hSeq, if_pos hLegible.types]
  obtain ⟨first, rest, hFirst⟩ := exists_cons_of_ne_nil hFull
  obtain ⟨before, last, hLast⟩ := (eq_nil_or_concat block).resolve_left hFull
  rw [concat_eq_append] at hLast
  have hHead : (block.map (·.1)).head? = some first.1 := by rw [hFirst]; rfl
  have hEnd : (block.map (·.1)).getLast? = some last.1 := by
    rw [hLast, map_append, map_singleton, getLast?_concat]
  have hSegLast := hHolds.last last (by rw [hLast, getLast?_concat])
  have hSeg : ({ path := seg.path, first := first.1.seq, last := last.1.seq
                 size := (fileText block).length, created := modTime seg.path
                 lastAt := last.1.occurredAt } : Segment) =
      { seg with created := modTime seg.path } := by
    rw [hHolds.first first (by rw [hFirst]; rfl), hSegLast.1, hSegLast.2, ← hHolds.size]
  simp only [hHead, hEnd, Bool.false_eq_true, if_false, Outbox.withSegment, hSeg, hHolds.size]

/-- The segments of the parts are read one after the other. -/
theorem loadSegments_legible {parts : Parts} (modTime : Nat → Time) (box : Outbox)
    (hHolds : ∀ part ∈ parts, part.1.Holds part.2) (hFull : parts.Full)
    (hWritten : ∀ part ∈ parts, ∀ entry ∈ part.2, Written json entry)
    (hSeq : ∀ part ∈ parts, ∀ entry ∈ part.2, 0 < entry.1.seq)
    (hLegible : ∀ part ∈ parts, Legible part) :
    loadSegments json modTime (parts.map fun part => (part.1.path, fileText part.2)) box =
      .ok { box with
        events := box.events ++ parts.events
        segments := box.segments ++ parts.map fun part =>
          { part.1 with created := modTime part.1.path }
        totalBytes := box.totalBytes + (parts.map (·.1.size)).sum } := by
  induction parts generalizing box with
  | nil => simp [loadSegments, Parts.events]
  | cons part parts ih =>
    rw [forall_mem_cons] at hHolds hWritten hSeq hLegible
    have hFull' := forall_mem_cons.mp hFull
    rw [map_cons, loadSegments,
      loadSegment_legible modTime box hHolds.1 hFull'.1 hWritten.1 hSeq.1 hLegible.1]
    dsimp only
    rw [ih _ hHolds.2 hFull'.2 hWritten.2 hSeq.2 hLegible.2]
    simp [Outbox.withSegment, append_assoc, Int.add_assoc]

theorem Laid.sorted_files {parts : Parts} {spool : Spool} (h : Laid json parts spool) :
    spool.files.mergeSort (fun a b => decide (a.1 ≤ b.1)) = spool.files := by
  refine mergeSort_of_pairwise ?_
  rw [h.files, pairwise_map]
  exact h.paths.imp fun hLT => decide_eq_true hLT.le

theorem Laid.nextSeq_eq {parts : Parts} {spool : Spool} (h : Laid json parts spool)
    (hFull : parts.Full) :
    (spool.box.events.getLast?.map (·.seq + 1)).getD 1 = spool.box.nextSeq := by
  cases hLast : spool.box.events.getLast? with
  | some stored => exact h.newest hLast
  | none =>
    cases parts with
    | nil => exact (h.start rfl).symm
    | cons part parts =>
      rw [getLast?_eq_none_iff, h.events, Parts.events_cons, append_eq_nil_iff,
        map_eq_nil_iff] at hLast
      exact absurd hLast.1 (hFull part mem_cons_self)

/-- What `load` reads is the outbox that was in memory. -/
theorem Laid.load {parts : Parts} {spool : Spool} (h : Laid json parts spool) (hFull : parts.Full)
    (hLegible : ∀ part ∈ parts, Legible part) (hName : GoStrings.trimSpace spool.box.streamID ≠ "")
    (nodeID bootID streamHex : String) (modTime : Nat → Time) :
    Telemetry.load json nodeID bootID streamHex (some spool.box.streamID) modTime spool.files =
      .ok { spool.box with
        nodeID := nodeID
        bootID := bootID
        segments := spool.box.segments.map fun seg => { seg with created := modTime seg.path }
        current := none } := by
  have hSeq : ∀ part ∈ parts, ∀ entry ∈ part.2, 0 < entry.1.seq := by
    intro part hPart entry hEntry
    refine h.seq_pos ?_
    rw [h.events]
    exact Parts.mem_events.mpr ⟨part, hPart, entry, hEntry, rfl⟩
  unfold Telemetry.load
  rw [h.sorted_files, h.files]
  simp only [Option.getD_some, hName, if_false,
    loadSegments_legible modTime _ h.holds hFull h.written hSeq hLegible]
  rw [nil_append, ← h.events, h.nextSeq_eq hFull, h.total, h.segments]
  simp [map_map, Function.comp_def]

end Load

section Reopen

variable {α : Type} (json : JSON α)

/-- The calls of `AppendBatch`. -/
def appendStep (spool : Spool) (call : List (BatchEvent α × EventIO) × BatchIO) : Spool :=
  (spool.appendBatch json call.2 call.1).1

/-- A round that keeps the directory legible: its event has a type and its line, newline included,
fits the buffer that segments are read with; only its write may fail, and one that does has written
nothing and is not the first one to its segment. -/
def Outbox.Careful (box : Outbox) (item : BatchEvent α) (payload : Bytes) (io : EventIO) : Prop :=
  ∀ text, json.marshal (box.event io item payload) = .ok text →
    io.Gentle (box.needsRotation (text ++ [newline]).length io.now) ∧ item.type ≠ "" ∧
      (text ++ [newline]).length ≤ maxLineBytes

instance (box : Outbox) (item : BatchEvent α) (payload : Bytes) (io : EventIO) :
    Decidable (Outbox.Careful json box item payload io) :=
  match h : json.marshal (box.event io item payload) with
  | .error _ => isTrue fun text hText => by rw [h] at hText; cases hText
  | .ok text =>
    decidable_of_iff
      (io.Gentle (box.needsRotation (text ++ [newline]).length io.now) ∧ item.type ≠ "" ∧
        (text ++ [newline]).length ≤ maxLineBytes)
      ⟨fun hText other hOther => by rw [h] at hOther; cases hOther; exact hText,
        fun hAll => hAll text h⟩

variable {json} {parts grown : Parts} {spool : Spool}

theorem Appends.legible {event : Event} (h : Appends json event parts grown)
    (hGrown : Laid json grown spool)
    (hLine : ∀ text, json.marshal event = .ok text →
      event.type ≠ "" ∧ (text ++ [newline]).length ≤ maxLineBytes)
    (hLegible : ∀ part ∈ parts, Legible part) : ∀ part ∈ grown, Legible part := by
  cases h with
  | nothing => exact hLegible
  | @grows rest seg extended block stored text hEvent hText hSize =>
    rw [forall_mem_append, forall_mem_singleton] at hLegible ⊢
    obtain ⟨hType, hFits⟩ := hLine text hText
    rw [length_append, length_singleton] at hFits
    refine ⟨hLegible.1, hSize, ?_, ?_⟩
    · exact forall_mem_concat.mpr
        ⟨hLegible.2.fits, (Nat.lt_of_succ_le hFits)⟩
    · refine forall_mem_concat.mpr ⟨hLegible.2.types, ?_⟩
      rw [← hEvent] at hType
      exact hType
  | @starts _ seg stored text hEvent hText =>
    rw [forall_mem_append, forall_mem_singleton]
    obtain ⟨hType, hFits⟩ := hLine text hText
    have hHolds := hGrown.holds (seg, [(stored, text)]) (by simp)
    refine ⟨hLegible, ?_, ?_, ?_⟩
    · rw [hHolds.size]
      simp only [fileText, flatMap_cons, flatMap_nil, append_nil]
      exact_mod_cast hFits.trans (by decide)
    · rw [length_append, length_singleton] at hFits
      exact forall_mem_singleton.mpr (Nat.lt_of_succ_le hFits)
    · rw [← hEvent] at hType
      exact forall_mem_singleton.mpr hType

/-- A batch of careful rounds keeps the directory legible. -/
theorem Laid.appendBatch_legible {batch : List (BatchEvent α × EventIO)} {io : BatchIO}
    (h : spool.Meets json (Outbox.Careful json) batch)
    (hLaid : ∃ parts, Laid json parts spool ∧ parts.Full ∧ ∀ part ∈ parts, Legible part) :
    ∃ parts, Laid json parts (spool.appendBatch json io batch).1 ∧ parts.Full ∧
      ∀ part ∈ parts, Legible part := by
  refine h.appendBatch
    (fun spool => ∃ parts, Laid json parts spool ∧ parts.Full ∧ ∀ part ∈ parts, Legible part)
    ?_ ?_ ?_ hLaid
  · rintro state item payload io hPayload hCareful ⟨parts, hLaid, hFull, hLegible⟩
    obtain ⟨grown, hAppends, hGrown⟩ :=
      hLaid.append hFull hPayload fun text hText => (hCareful text hText).1
    exact ⟨grown, hGrown, hAppends.full hFull,
      hAppends.legible hGrown (fun text hText => (hCareful text hText).2) hLegible⟩
  · rintro spool unsynced error ⟨parts, hLaid, hKept⟩
    exact ⟨parts, hLaid.sync .., hKept⟩
  · rintro spool now ⟨parts, hLaid, hFull, hLegible⟩
    obtain ⟨kept, hSuffix, _, hKept⟩ := hLaid.pruneSegments (now - maxRetention) hFull
    rw [← hLaid.segments] at hKept
    exact ⟨kept, hKept, hFull.of_suffix hSuffix, fun part hMem => hLegible part (hSuffix.subset hMem)⟩

/-- After careful rounds `Open` finds in the directory what is in memory: the events whose line was
written, as far as they were not pruned. What it drops then are segments that are out of date by the
time of the restart. -/
theorem outbox_reopened {nodeID bootID streamHex : String} {modTime : Nat → Time} {now : Time}
    {start : Spool} {calls : List (List (BatchEvent α × EventIO) × BatchIO)}
    (hOpen : «open» json nodeID bootID streamHex none modTime now [] = .ok start)
    (hRun : Along (appendStep json)
      (fun spool call => spool.Meets json (Outbox.Careful json) call.1) start calls)
    (nodeID' bootID' streamHex' : String) (modTime' : Nat → Time) (now' : Time) :
    let spool := run (appendStep json) start calls
    spool.box.events = spool.complete ∧
      «open» json nodeID' bootID' streamHex' (some spool.box.streamID) modTime' now' spool.files =
        .ok (Spool.pruneLocked now'
          { box := { spool.box with
              nodeID := nodeID'
              bootID := bootID'
              segments := spool.box.segments.map fun seg => { seg with created := modTime' seg.path }
              current := none }
            files := spool.files
            complete := spool.complete }) := by
  intro spool
  obtain ⟨rfl, hName⟩ := open_nil hOpen
  have hReached : (∃ parts, Laid json parts spool ∧ parts.Full ∧ ∀ part ∈ parts, Legible part) ∧
      spool.box.streamID = "stream_" ++ streamHex := hRun.invariant
    (fun spool => (∃ parts, Laid json parts spool ∧ parts.Full ∧ ∀ part ∈ parts, Legible part) ∧
      spool.box.streamID = "stream_" ++ streamHex)
    (fun spool call hCareful hInv => ⟨Laid.appendBatch_legible hCareful hInv.1,
      (appendBatch_frame json call.2 call.1 spool).1.trans hInv.2⟩)
    ⟨⟨[], laid_new .., by simp [Parts.Full], by simp⟩, rfl⟩
  obtain ⟨⟨parts, hLaid, hFull, hLegible⟩, hStream⟩ := hReached
  have hLoad := hLaid.load hFull hLegible (by rw [hStream]; exact hName) nodeID' bootID' streamHex'
    modTime'
  refine ⟨hLaid.complete.symm, ?_⟩
  unfold «open»
  rw [hLoad, hLaid.complete]

end Reopen

/-- A write that fails before it writes anything costs its event only. -/
theorem outbox_reopened_start :
    let calls := [(startBatch.take 1, {}), ([({ type := "gpu.sample", payload := [] },
      { write := some (0, "no space left on device") })], {}), (startBatch.drop 1, {})]
    let spool := run (appendStep JSON.plain) startSpool calls
    spool.complete.map (·.toEvent) = startEvents ∧
      ∃ reopened, «open» JSON.plain "node" "boot" "" (some spool.box.streamID)
        (fun _ => 0) 0 spool.files = .ok reopened := by
  intro calls spool
  have hRun : Along (appendStep JSON.plain)
      (fun spool call => spool.Meets JSON.plain (Outbox.Careful JSON.plain) call.1)
      startSpool calls := by
    decide +kernel
  have hOpen := (outbox_reopened open_start hRun "node" "boot" "" (fun _ => 0) 0).2
  exact ⟨by decide +kernel, _, hOpen⟩

def fullDisk : List (BatchEvent Bytes × EventIO) :=
  [({ type := "daemon.started", payload := [123, 125], occurredAt := 5 }, {}),
    ({ type := "gpu.sample", payload := [123, 125], occurredAt := 6 },
      { write := some (1, "no space left on device") })]

def startLine : Bytes := startEvents.head?.elim [] fun event => numbersText (eventNumbers event)

/-- The part of a line that was written before the disk was full makes the directory unreadable. -/
theorem torn_line_not_reopened :
    ¬ ∀ calls : List (List (BatchEvent Bytes × EventIO) × BatchIO),
      (∀ call ∈ calls, call.2.sync = none ∧
        ∀ entry ∈ call.1, entry.2.sync = none ∧ entry.2.close = none ∧ entry.2.open = none) →
      ∃ reopened, «open» JSON.plain "node" "boot" "" (some startSpool.box.streamID)
        (fun _ => 0) 0 (run (appendStep JSON.plain) startSpool calls).files =
          .ok reopened := by
  intro hAll
  have hWrites : ∀ entry ∈ fullDisk,
      entry.2.sync = none ∧ entry.2.close = none ∧ entry.2.open = none := by
    rw [fullDisk, forall_mem_cons, forall_mem_singleton]
    exact ⟨⟨rfl, rfl, rfl⟩, rfl, rfl, rfl⟩
  obtain ⟨reopened, hOpen⟩ := hAll [(fullDisk, {})] (forall_mem_singleton.mpr ⟨rfl, hWrites⟩)
  have hFiles : (run (appendStep JSON.plain) startSpool
      [(fullDisk, {})]).files = [(1, startLine ++ [newline, 50])] := by decide +kernel
  have hLoad : ∀ box, loadSegment JSON.plain (fun _ => 0) 1 (startLine ++ [newline, 50]) box =
      .error "invalid telemetry segment 1" := by
    intro box
    have hScan : scan maxLineBytes [] ((startLine ++ [newline, 50]).take (maxSegmentBytes + 1)) =
        ([startLine, [50]], false) := by decide +kernel
    have hLines : loadLines JSON.plain 1 [startLine, [50]] = .error "invalid telemetry segment 1" := by
      decide +kernel
    unfold loadSegment
    rw [hScan]
    dsimp only
    rw [hLines]
  have hName : GoStrings.trimSpace startSpool.box.streamID ≠ "" := by decide +kernel
  rw [hFiles] at hOpen
  simp only [«open», load, Option.getD_some, hName, if_false, mergeSort_singleton, loadSegments,
    hLoad] at hOpen
  cases hOpen

end GPUardian.Telemetry
