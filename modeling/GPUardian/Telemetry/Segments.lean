import GPUardian.Telemetry.Actions
import GPUardian.Library.Interleaving

/-! How the outbox lays its events out in segments. The parts of an outbox are its segments, each with
the events that were written to it and the texts of their lines; a rotation adds a part, a write
extends the last one and a prune drops the first. -/
namespace GPUardian.Telemetry

open GoLines List Option

/-- The contents of a file with these lines. -/
def fileText (block : List (StoredEvent × Bytes)) : Bytes :=
  block.flatMap fun entry => entry.2 ++ [newline]

/-- What a segment says of the events in it. -/
structure Segment.Holds (seg : Segment) (block : List (StoredEvent × Bytes)) : Prop where
  first : ∀ entry, block.head? = some entry → entry.1.seq = seg.first
  last : ∀ entry, block.getLast? = some entry →
    entry.1.seq = seg.last ∧ entry.1.occurredAt = seg.lastAt
  path : seg.path = seg.first
  inside : ∀ entry ∈ block, entry.1.segment = seg.path
  size : seg.size = (fileText block).length

/-- An event with the text that was written for it. -/
def Written {α : Type} (json : JSON α) (entry : StoredEvent × Bytes) : Prop :=
  (∃ value, json.marshalPayload value = .ok entry.1.payload) ∧
    json.marshal entry.1.toEvent = .ok entry.2

abbrev Parts := List (Segment × List (StoredEvent × Bytes))

def Parts.events (parts : Parts) : List StoredEvent := parts.flatMap fun part => part.2.map (·.1)

/-- The outbox and its directory consist of these parts, and the sequence numbers have no gaps. -/
structure Laid {α : Type} (json : JSON α) (parts : Parts) (spool : Spool) : Prop where
  segments : spool.box.segments = parts.map (·.1)
  events : spool.box.events = parts.events
  files : spool.files = parts.map fun part => (part.1.path, fileText part.2)
  complete : spool.complete = spool.box.events
  holds : ∀ part ∈ parts, part.1.Holds part.2
  written : ∀ part ∈ parts, ∀ entry ∈ part.2, Written json entry
  seqs : ∃ first, 0 < first ∧ first + spool.box.events.length = spool.box.nextSeq ∧
    spool.box.events.map (·.seq) = List.range' first spool.box.events.length
  start : parts = [] → spool.box.nextSeq = 1
  total : spool.box.totalBytes = (spool.box.segments.map (·.size)).sum
  paths : parts.Pairwise fun earlier later => earlier.1.path < later.1.path
  current : spool.box.current = none ∧ parts = [] ∨
    ∃ path, spool.box.current = some { path := path, isOpen := true } ∧
      parts.getLast?.map (·.1.path) = some path

/-- Every segment has an event. A segment has none between the rotation to it and its first write. -/
def Parts.Full (parts : Parts) : Prop := ∀ part ∈ parts, part.2 ≠ []

variable {part : Segment × List (StoredEvent × Bytes)}

section Parts

variable {α : Type} {json : JSON α} {parts : Parts} {spool : Spool}

@[simp]
theorem Parts.events_cons (part : Segment × List (StoredEvent × Bytes)) (rest : Parts) :
    Parts.events (part :: rest) = part.2.map (·.1) ++ Parts.events rest := rfl

variable {stored : StoredEvent}

theorem Parts.mem_events :
    stored ∈ parts.events ↔ ∃ part ∈ parts, ∃ entry ∈ part.2, entry.1 = stored := by
  simp [Parts.events]

theorem fileText_append (first second : List (StoredEvent × Bytes)) :
    fileText (first ++ second) = fileText first ++ fileText second :=
  flatMap_append

theorem Laid.sorted (h : Laid json parts spool) :
    spool.box.events.Pairwise fun earlier later => earlier.seq < later.seq := by
  obtain ⟨first, _, _, hSeqs⟩ := h.seqs
  exact pairwise_map.mp (hSeqs ▸ pairwise_lt_range')

theorem Laid.seq_lt (h : Laid json parts spool) (hMem : stored ∈ spool.box.events) :
    stored.seq < spool.box.nextSeq := by
  obtain ⟨first, _, hNext, hSeqs⟩ := h.seqs
  have hRange : stored.seq ∈ List.range' first spool.box.events.length :=
    hSeqs ▸ List.mem_map_of_mem hMem
  rw [mem_range'_1] at hRange
  omega

theorem Laid.seq_pos (h : Laid json parts spool) (hMem : stored ∈ spool.box.events) :
    0 < stored.seq := by
  obtain ⟨first, hFirst, _, hSeqs⟩ := h.seqs
  have hRange : stored.seq ∈ List.range' first spool.box.events.length :=
    hSeqs ▸ List.mem_map_of_mem hMem
  rw [mem_range'_1] at hRange
  omega

theorem Laid.newest (h : Laid json parts spool) (hLast : spool.box.events.getLast? = some stored) :
    stored.seq + 1 = spool.box.nextSeq := by
  obtain ⟨first, hFirst, hNext, hSeqs⟩ := h.seqs
  obtain ⟨before, hBefore⟩ := getLast?_eq_some_iff.mp hLast
  rw [hBefore, length_append, length_singleton] at hSeqs hNext
  rw [map_append, map_singleton, range'_concat] at hSeqs
  have hSame := (append_inj' hSeqs rfl).2
  rw [cons.injEq] at hSame
  omega

/-- The file of a segment is named for its first event. -/
theorem Laid.path_lt (h : Laid json parts spool) (hFull : parts.Full) (hMem : part ∈ parts) :
    part.1.path < spool.box.nextSeq := by
  obtain ⟨entry, rest, hBlock⟩ := exists_cons_of_ne_nil (hFull part hMem)
  have hHolds := h.holds part hMem
  rw [hHolds.path, ← hHolds.first entry (by rw [hBlock]; rfl)]
  apply h.seq_lt
  rw [h.events]
  exact Parts.mem_events.mpr ⟨part, hMem, entry, by rw [hBlock]; exact mem_cons_self, rfl⟩

end Parts

variable {seg : Segment} {block : List (StoredEvent × Bytes)} {event : Event}

section Steps

variable {α : Type} {json : JSON α} {parts rest : Parts} {spool : Spool} {io : EventIO}

theorem rotateLocked_ok {first : Nat} (hClose : io.close = none) (hOpen : io.open = none)
    (hCurrent : ∀ handle, spool.box.current = some handle → handle.isOpen = true) :
    spool.rotateLocked io first = (spool.newSegment first io.created, none) := by
  unfold Spool.rotateLocked
  cases hHandle : spool.box.current with
  | none => simp [hOpen, Spool.newSegment]
  | some handle => simp [hOpen, hClose, hCurrent handle hHandle, Spool.newSegment]

theorem Laid.rotate (h : Laid json parts spool) (hFull : parts.Full) (created : Time) :
    Laid json
      (parts ++ [({ path := spool.box.nextSeq, first := spool.box.nextSeq, created := created }, [])])
      (spool.newSegment spool.box.nextSeq created) where
  segments := by simp [Spool.newSegment, h.segments]
  events := by simp [Spool.newSegment, h.events, Parts.events]
  files := by
    have hNew : (spool.files.any fun file => file.1 == spool.box.nextSeq) = false := by
      rw [List.any_eq_false, h.files]
      intro file hFile hSame
      obtain ⟨part, hMem, rfl⟩ := List.mem_map.mp hFile
      exact absurd (beq_iff_eq.mp hSame) (h.path_lt hFull hMem).ne
    show Files.create spool.box.nextSeq spool.files = _
    rw [Files.create, if_neg (Bool.eq_false_iff.mp hNew), h.files]
    simp [fileText]
  complete := h.complete
  holds := forall_mem_concat.mpr ⟨h.holds, ⟨by simp, by simp, rfl, by simp, rfl⟩⟩
  written := forall_mem_concat.mpr ⟨h.written, by simp⟩
  seqs := h.seqs
  start := by simp
  total := by simp [Spool.newSegment, h.total]
  paths := by
    rw [pairwise_append]
    refine ⟨h.paths, pairwise_singleton _ _, ?_⟩
    intro part hMem last hLast
    obtain rfl := mem_singleton.mp hLast
    exact h.path_lt hFull hMem
  current := Or.inr ⟨spool.box.nextSeq, rfl, by simp⟩

/-- The lines of the file that is written to grow, those of the others do not. -/
theorem Files.append_parts {grown : Segment} {more : List (StoredEvent × Bytes)}
    (hPath : grown.path = seg.path)
    (hPaths : (rest ++ [(seg, block)]).Pairwise fun earlier later => earlier.1.path < later.1.path) :
    Files.append seg.path (fileText more)
        ((rest ++ [(seg, block)]).map fun part => (part.1.path, fileText part.2)) =
      (rest ++ [(grown, block ++ more)]).map fun part => (part.1.path, fileText part.2) := by
  rw [pairwise_append] at hPaths
  have hRest : ∀ part ∈ rest, part.1.path ≠ seg.path := fun part hMem =>
    (hPaths.2.2 part hMem (seg, block) (mem_singleton_self _)).ne
  have hSame : (rest.map fun part => (part.1.path, fileText part.2)).map
      (fun file => if file.1 = seg.path then (seg.path, file.2 ++ fileText more) else file) =
      rest.map fun part => (part.1.path, fileText part.2) := by
    rw [List.map_map]
    exact map_congr_left fun part hMem => if_neg (hRest part hMem)
  rw [Files.append, map_append, map_append, map_append, hSame]
  simp [hPath, fileText_append]

theorem Segment.Holds.snoc {text : Bytes} (h : seg.Holds block)
    (hFirst : block = [] → event.seq = seg.first) :
    Segment.Holds
      { seg with
        last := event.seq, size := seg.size + ↑(text ++ [newline]).length, lastAt := event.occurredAt }
      (block ++ [({ event with segment := seg.path }, text)]) where
  first := by
    intro entry hHead
    cases block with
    | nil =>
      cases hHead
      exact hFirst rfl
    | cons old block =>
      cases hHead
      exact h.first entry rfl
  last := by
    intro entry hEntry
    rw [getLast?_concat] at hEntry
    cases hEntry
    exact ⟨rfl, rfl⟩
  path := h.path
  inside := forall_mem_concat.mpr ⟨h.inside, rfl⟩
  size := by
    show seg.size + ↑(text ++ [newline]).length = _
    rw [h.size, fileText_append, length_append]
    simp [fileText]

/-- A line is written to the last part. -/
theorem Laid.write {text : Bytes} (h : Laid json (rest ++ [(seg, block)]) spool)
    (hSeq : event.seq = spool.box.nextSeq) (hFirst : block = [] → seg.first = spool.box.nextSeq)
    (hWritten : Written json ({ event with segment := seg.path }, text)) :
    Laid json
      (rest ++ [({ seg with
          last := event.seq, size := seg.size + ↑(text ++ [newline]).length, lastAt := event.occurredAt },
        block ++ [({ event with segment := seg.path }, text)])])
      (spool.addLine seg.path event (text ++ [newline])) := by
  have hLast : spool.box.segments.getLast? = some seg := by simp [h.segments]
  have hHolds : seg.Holds block := h.holds (seg, block) (by simp)
  obtain ⟨first, hPos, hNext, hSeqs⟩ := h.seqs
  have hFile : spool.files.any (·.1 == seg.path) = true := by simp [h.files]
  rw [Spool.addLine, record_of_getLast? hLast, if_pos hFile]
  refine ⟨?_, ?_, ?_, congrArg (· ++ _) h.complete, ?_, ?_, ?_, by simp, ?_, ?_, ?_⟩
  · simp [h.segments]
  · simp [h.events, Parts.events]
  · show Files.append seg.path (text ++ [newline]) spool.files = _
    have hText : text ++ [newline] = fileText [({ event with segment := seg.path }, text)] := by
      simp [fileText]
    rw [h.files, hText]
    exact Files.append_parts rfl h.paths
  · exact forall_mem_concat.mpr ⟨fun part hMem => h.holds part (mem_append_left _ hMem),
      hHolds.snoc fun hNil => hSeq.trans (hFirst hNil).symm⟩
  · exact forall_mem_concat.mpr ⟨fun part hMem => h.written part (mem_append_left _ hMem),
      forall_mem_concat.mpr ⟨h.written (seg, block) (by simp), hWritten⟩⟩
  · refine ⟨first, hPos, ?_, ?_⟩
    · simp only [length_append, length_singleton]
      omega
    · simp only [map_append, map_singleton, hSeqs, length_append,
        length_singleton, range'_concat, hSeq, ← hNext, Nat.one_mul]
  · have hSegments : spool.box.segments = rest.map (·.1) ++ [seg] := by simp [h.segments]
    have hTotal := h.total
    simp only [hSegments, map_append, List.sum_append, map_singleton, sum_singleton]
      at hTotal ⊢
    simp only [dropLast_concat, hTotal]
    omega
  · have hPaths := h.paths
    rw [pairwise_append] at hPaths ⊢
    refine ⟨hPaths.1, pairwise_singleton _ _, ?_⟩
    intro part hMem last hLast
    obtain rfl := mem_singleton.mp hLast
    exact hPaths.2.2 part hMem (seg, block) (mem_singleton_self _)
  · rcases h.current with ⟨_, hNil⟩ | ⟨path, hCurrent, hPath⟩
    · simp at hNil
    · exact Or.inr ⟨path, hCurrent, by simpa using hPath⟩

/-- The events after the oldest part are those that the search finds. -/
theorem Laid.filter_last (h : Laid json (part :: rest) spool) (hFull : part.2 ≠ []) :
    spool.box.events.filter (decide <| part.1.last < ·.seq) = rest.events := by
  have hEvents : spool.box.events = part.2.map (·.1) ++ rest.events := h.events
  have hSorted := h.sorted
  obtain ⟨block, newest, hBlock⟩ := (eq_nil_or_concat part.2).resolve_left hFull
  rw [concat_eq_append] at hBlock
  have hLast : newest.1.seq = part.1.last :=
    ((h.holds part mem_cons_self).last newest (by rw [hBlock, getLast?_concat])).1
  rw [hEvents, hBlock, map_append, map_singleton, append_assoc,
    singleton_append] at hSorted ⊢
  rw [← hLast]
  exact GoSort.filter_above (fun stored : StoredEvent => stored.seq) hSorted

/-- The oldest part goes. -/
theorem Laid.drop (h : Laid json (part :: rest) spool) (hRest : rest ≠ [])
    (hFull : Parts.Full (part :: rest)) (durable : List StoredEvent) :
    Laid json rest
      { box := { spool.box with
          totalBytes := spool.box.totalBytes - part.1.size
          segments := rest.map (·.1)
          events := spool.box.events.drop
            (GoSort.search spool.box.events.length fun i =>
              spool.box.events[i]?.any (decide <| part.1.last < ·.seq)) }
        files := spool.files.remove part.1.path
        complete := spool.complete.filter (·.segment ≠ part.1.path)
        durable := durable } := by
  have hEvents : spool.box.events = part.2.map (·.1) ++ rest.events := h.events
  have hCut : spool.box.events.drop (GoSort.search spool.box.events.length fun i =>
      spool.box.events[i]?.any (decide <| part.1.last < ·.seq)) = rest.events := by
    rw [GoSort.drop_search, h.filter_last (hFull part mem_cons_self)]
    refine h.sorted.imp fun hLT hLast => ?_
    exact decide_eq_true ((of_decide_eq_true hLast).trans hLT)
  obtain ⟨first, hPos, hNext, hSeqs⟩ := h.seqs
  have hPaths := pairwise_cons.mp h.paths
  refine ⟨rfl, hCut, ?_, ?_, ?_, ?_, ?_, fun hNil => absurd hNil hRest, ?_, hPaths.2, ?_⟩
  · show Files.remove part.1.path spool.files = _
    rw [Files.remove, h.files, map_cons, filter_cons_of_neg (by simp),
      filter_eq_self]
    intro file hFile
    obtain ⟨other, hMem, rfl⟩ := List.mem_map.mp hFile
    exact decide_eq_true (hPaths.1 other hMem).ne'
  · show spool.complete.filter _ = spool.box.events.drop _
    rw [hCut, h.complete, hEvents, filter_append, filter_eq_nil_iff.mpr,
      filter_eq_self.mpr, nil_append]
    · intro stored hStored
      obtain ⟨other, hMem, entry, hEntry, rfl⟩ := Parts.mem_events.mp hStored
      rw [(h.holds other (mem_cons_of_mem _ hMem)).inside entry hEntry]
      exact decide_eq_true (hPaths.1 other hMem).ne'
    · intro stored hStored
      obtain ⟨entry, hEntry, rfl⟩ := List.mem_map.mp hStored
      rw [(h.holds part mem_cons_self).inside entry hEntry]
      simp
  · exact fun other hMem => h.holds other (mem_cons_of_mem _ hMem)
  · exact fun other hMem => h.written other (mem_cons_of_mem _ hMem)
  · rw [hEvents, length_append, ← range'_append_1, map_append] at hSeqs
    obtain ⟨_, hSeqs⟩ := append_inj hSeqs (by simp)
    refine ⟨first + (part.2.map (·.1)).length, by omega, ?_, ?_⟩
    · rw [hEvents, length_append] at hNext
      show _ + (spool.box.events.drop _).length = spool.box.nextSeq
      rw [hCut]
      omega
    · show (spool.box.events.drop _).map (·.seq) = List.range' _ (spool.box.events.drop _).length
      rw [hCut, hSeqs]
  · have hTotal := h.total
    rw [h.segments, map_cons, map_cons, sum_cons] at hTotal
    show spool.box.totalBytes - part.1.size = ((rest.map (·.1)).map (·.size)).sum
    omega
  · rcases h.current with ⟨_, hNil⟩ | ⟨path, hCurrent, hPath⟩
    · cases hNil
    · refine Or.inr ⟨path, hCurrent, ?_⟩
      rwa [getLast?_cons_of_ne_nil hRest] at hPath

theorem Parts.Full.of_suffix {kept : Parts} (hFull : parts.Full) (hSuffix : kept <:+ parts) :
    kept.Full :=
  fun part hMem => hFull part (hSuffix.subset hMem)

/-- A prune leaves the last part. -/
theorem Laid.pruneSegments (cutoff : Time) (h : Laid json parts spool) (hFull : parts.Full) :
    ∃ kept, kept <:+ parts ∧ (parts ≠ [] → kept ≠ []) ∧
      Laid json kept (Spool.pruneSegments cutoff (parts.map (·.1)) spool) := by
  induction parts generalizing spool with
  | nil => exact ⟨[], suffix_refl _, fun hNil => hNil, h⟩
  | cons part rest ih =>
    cases rest with
    | nil => exact ⟨[part], suffix_refl _, fun hNil => hNil, h⟩
    | cons next rest =>
      rw [map_cons, map_cons, Spool.pruneSegments]
      dsimp only
      split
      · exact ⟨part :: next :: rest, suffix_refl _, fun hNil => hNil, h⟩
      · have hDropped := h.drop (cons_ne_nil next rest) hFull
          (spool.durable.filter (·.segment ≠ part.1.path))
        obtain ⟨kept, hSuffix, hNonempty, hLaid⟩ :=
          ih hDropped (hFull.of_suffix (suffix_cons part _))
        exact ⟨kept, hSuffix.trans (suffix_cons part _),
          fun _ => hNonempty (cons_ne_nil next rest), hLaid⟩

theorem Laid.durable (h : Laid json parts spool) (durable : List StoredEvent) :
    Laid json parts { spool with durable := durable } :=
  { h with }

theorem Laid.sync (h : Laid json parts spool) (unsynced : Bool) (error : Option String) :
    Laid json parts (spool.syncIfLocked unsynced error).1 := by
  obtain ⟨durable, hSync⟩ := syncIfLocked_eq unsynced error spool
  rw [hSync]
  exact h.durable durable

theorem syncIfLocked_none (unsynced : Bool)
    (hCurrent : ∀ handle, spool.box.current = some handle → handle.isOpen = true) :
    ∃ durable, spool.syncIfLocked unsynced none = ({ spool with durable := durable }, none) := by
  unfold Spool.syncIfLocked
  split
  · rename_i handle hHandle
    rw [if_pos (hCurrent handle hHandle)]
    exact ⟨_, rfl⟩
  · exact ⟨spool.durable, rfl⟩

theorem Laid.current_open (h : Laid json parts spool) :
    ∀ handle, spool.box.current = some handle → handle.isOpen = true := by
  intro handle hHandle
  rcases h.current with ⟨hNone, _⟩ | ⟨path, hSome, _⟩
  · rw [hNone] at hHandle
    cases hHandle
  · rw [hSome] at hHandle
    cases hHandle
    rfl

end Steps

/-- Only the write of a round may fail. One that does has written nothing, and is not the first one
to its segment. -/
def EventIO.Gentle (rotates : Bool) (io : EventIO) : Prop :=
  io.sync = none ∧ io.close = none ∧ io.open = none ∧
    ∀ failed ∈ io.write, failed.1 = 0 ∧ rotates = false

instance (rotates : Bool) (io : EventIO) : Decidable (io.Gentle rotates) :=
  inferInstanceAs (Decidable (_ ∧ _ ∧ _ ∧ ∀ failed ∈ io.write, failed.1 = 0 ∧ rotates = false))

/-- What a round of the loop does to the parts. -/
inductive Appends {α : Type} (json : JSON α) (event : Event) : Parts → Parts → Prop where
  | nothing (parts : Parts) : Appends json event parts parts
  | grows {rest : Parts} {seg grown : Segment} {block : List (StoredEvent × Bytes)}
      {stored : StoredEvent} {text : Bytes} (hEvent : stored.toEvent = event)
      (hText : json.marshal event = .ok text)
      (hFits : grown.size ≤ maxSegmentBytes) :
      Appends json event (rest ++ [(seg, block)]) (rest ++ [(grown, block ++ [(stored, text)])])
  | starts {parts : Parts} {seg : Segment} {stored : StoredEvent} {text : Bytes}
      (hEvent : stored.toEvent = event) (hText : json.marshal event = .ok text) :
      Appends json event parts (parts ++ [(seg, [(stored, text)])])

theorem Appends.full {α : Type} {json : JSON α} {parts grown : Parts}
    (h : Appends json event parts grown) (hFull : parts.Full) : grown.Full := by
  cases h with
  | nothing => exact hFull
  | grows => exact forall_mem_concat.mpr ⟨fun part hMem => hFull part (mem_append_left _ hMem), by simp⟩
  | starts => exact forall_mem_concat.mpr ⟨hFull, by simp⟩

section Round

variable {α : Type} {json : JSON α} {parts : Parts} {spool : Spool} {io : EventIO} {event : Event}
  {text : Bytes}

variable {line : Bytes}

theorem writeLine_ok {path : Nat} (hWrite : io.write = none)
    (hCurrent : spool.box.current = some { path := path, isOpen := true }) :
    spool.writeLine io event line = (spool.addLine path event line, none) := by
  simp only [Spool.writeLine, hCurrent, hWrite, if_true]

theorem writeLine_nothing {path : Nat} {error : String} (hWrite : io.write = some (0, error))
    (hCurrent : spool.box.current = some { path := path, isOpen := true }) :
    spool.writeLine io event line = (spool, some error) := by
  have hFiles : spool.files.append path [] = spool.files := by
    refine map_id'' (fun file => ?_) spool.files
    by_cases hPath : file.1 = path
    · simp [← hPath]
    · exact if_neg hPath
  simp only [Spool.writeLine, hCurrent, hWrite, if_true, take_zero, hFiles]

/-- A write to a new segment. -/
theorem Laid.rotate_write (h : Laid json parts spool) (hFull : parts.Full) (created : Time)
    (hSeq : event.seq = spool.box.nextSeq)
    (hPayload : ∃ value, json.marshalPayload value = .ok event.payload)
    (hText : json.marshal event = .ok text) (hGentle : io.Gentle true) :
    ∃ grown, Appends json event parts grown ∧
      ∃ after, Laid json grown after ∧
        (spool.newSegment event.seq created).writeLine io event (text ++ [newline]) = (after, none) := by
  have hWrite : io.write = none := by
    cases hWrite : io.write with
    | none => rfl
    | some failed => cases (hGentle.2.2.2 failed hWrite).2
  rw [hSeq]
  have hRotated := h.rotate hFull created
  exact ⟨_, .starts rfl hText, _, hRotated.write hSeq (fun _ => rfl) ⟨hPayload, hText⟩,
    writeLine_ok hWrite rfl⟩

/-- A write to the current segment. -/
theorem Laid.write_current (h : Laid json parts spool) (hFull : parts.Full)
    (hSeq : event.seq = spool.box.nextSeq)
    (hPayload : ∃ value, json.marshalPayload value = .ok event.payload)
    (hText : json.marshal event = .ok text) (now : Time)
    (hRotates : spool.box.needsRotation (text ++ [newline]).length now = false)
    (hGentle : io.Gentle false) :
    ∃ grown, Appends json event parts grown ∧
      ∃ after error, Laid json grown after ∧
        spool.writeLine io event (text ++ [newline]) = (after, error) := by
  rcases h.current with ⟨hNone, _⟩ | ⟨path, hCurrent, hPath⟩
  · rw [Outbox.needsRotation, hNone] at hRotates
    cases hRotates
  · obtain ⟨⟨seg, block⟩, hLast, rfl⟩ := map_eq_some_iff.mp hPath
    obtain ⟨rest, rfl⟩ := getLast?_eq_some_iff.mp hLast
    cases hWrite : io.write with
    | some failed =>
      obtain ⟨written, error⟩ := failed
      obtain ⟨rfl, _⟩ := hGentle.2.2.2 (written, error) hWrite
      exact ⟨_, .nothing _, spool, some error, h, writeLine_nothing hWrite hCurrent⟩
    | none =>
      have hFits : seg.size + ↑(text ++ [newline]).length ≤ (maxSegmentBytes : Int) := by
        rw [Outbox.needsRotation, hCurrent, h.segments] at hRotates
        simp only [map_append, map_singleton, getLast?_concat,
          Bool.or_eq_false_iff, decide_eq_false_iff_not, gt_iff_lt] at hRotates
        exact Int.not_lt.mp hRotates.1
      refine ⟨_, .grows rfl hText hFits, _, none,
        h.write hSeq (fun hNil => ?_) ⟨hPayload, hText⟩, writeLine_ok hWrite hCurrent⟩
      exact absurd hNil (hFull (seg, block) (by simp))

/-- The condition of a round, for the line that it writes. -/
def Outbox.Gentle (json : JSON α) (box : Outbox) (item : BatchEvent α) (payload : Bytes)
    (io : EventIO) : Prop :=
  ∀ text, json.marshal (box.event io item payload) = .ok text →
    io.Gentle (box.needsRotation (text ++ [newline]).length io.now)

/-- What follows a write changes nothing but what is durable. -/
theorem write_spool {after : Spool} {error : Option String} (appended : List Event)
    (unsynced : Bool) (h : spool.writeLine io event line = (after, error)) :
    ∃ durable, (Appending.write io event line ⟨spool, unsynced, appended⟩).1.spool =
      { after with durable := durable } := by
  unfold Appending.write
  rw [h]
  cases error with
  | none => exact ⟨after.durable, rfl⟩
  | some error => exact syncIfLocked_eq ..

/-- A gentle round adds at most one line, to the last part or to a new one. -/
theorem Laid.append {state : Appending} {item : BatchEvent α} {payload : Bytes}
    (h : Laid json parts state.spool) (hFull : parts.Full)
    (hPayload : json.marshalPayload item.payload = .ok payload)
    (hGentle : state.spool.box.Gentle json item payload io) :
    ∃ grown, Appends json (state.spool.box.event io item payload) parts grown ∧
      Laid json grown (state.append json io item payload).1.spool := by
  unfold Appending.append
  dsimp only
  cases hText : json.marshal (state.spool.box.event io item payload) with
  | error error =>
    exact ⟨parts, .nothing parts, h.sync ..⟩
  | ok text =>
    have hGentle := hGentle text hText
    dsimp only
    split
    · rename_i hRotates
      rw [hRotates] at hGentle
      rw [hGentle.1]
      obtain ⟨synced, hSync⟩ := syncIfLocked_none state.unsynced h.current_open
      have hSynced := h.durable synced
      rw [hSync]
      dsimp only
      rw [rotateLocked_ok hGentle.2.1 hGentle.2.2.1 hSynced.current_open]
      obtain ⟨grown, hAppends, after, hLaid, hWrite⟩ :=
        hSynced.rotate_write hFull io.created rfl ⟨_, hPayload⟩ hText hGentle
      obtain ⟨durable, hAfter⟩ := write_spool state.appended false hWrite
      dsimp only
      rw [hAfter]
      exact ⟨grown, hAppends, hLaid.durable durable⟩
    · rename_i hRotates
      rw [Bool.eq_false_iff.mpr hRotates] at hGentle
      obtain ⟨grown, hAppends, after, error, hLaid, hWrite⟩ :=
        h.write_current hFull rfl ⟨_, hPayload⟩ hText io.now (Bool.eq_false_iff.mpr hRotates) hGentle
      obtain ⟨durable, hAfter⟩ := write_spool state.appended state.unsynced hWrite
      rw [hAfter]
      exact ⟨grown, hAppends, hLaid.durable durable⟩

end Round

section Batch

variable {α : Type} (json : JSON α) (ok : Outbox → BatchEvent α → Bytes → EventIO → Prop)

/-- Every round that is made meets a condition. -/
def Appending.Meets : List (BatchEvent α × Bytes × EventIO) → Appending → Prop
  | [], _ => True
  | (item, payload, io) :: rest, state =>
    ok state.spool.box item payload io ∧
      match state.append json io item payload with
      | (_, some _) => True
      | (next, none) => Meets rest next

/-- Every round of a batch meets a condition. -/
def Spool.Meets (batch : List (BatchEvent α × EventIO)) (spool : Spool) : Prop :=
  match marshalPayloads json batch with
  | .error _ => True
  | .ok items => Appending.Meets json ok items { spool := spool }

instance Appending.Meets.decidable
    [∀ box item payload io, Decidable (ok box item payload io)] :
    ∀ (items : List (BatchEvent α × Bytes × EventIO)) (state : Appending),
      Decidable (Appending.Meets json ok items state)
  | [], _ => isTrue trivial
  | (item, payload, io) :: rest, state => by
    unfold Appending.Meets
    match state.append json io item payload with
    | (_, some _) => exact inferInstanceAs (Decidable (_ ∧ True))
    | (next, none) =>
      have := Appending.Meets.decidable rest next
      exact inferInstanceAs (Decidable (_ ∧ Appending.Meets json ok rest next))

instance [∀ box item payload io, Decidable (ok box item payload io)]
    (batch : List (BatchEvent α × EventIO)) (spool : Spool) : Decidable (spool.Meets json ok batch) := by
  unfold Spool.Meets
  match marshalPayloads json batch with
  | .error _ => exact isTrue trivial
  | .ok items => exact Appending.Meets.decidable json ok items { spool := spool }

variable {json ok} (Inv : Spool → Prop)

theorem marshalPayloads_cons {item : BatchEvent α} {io : EventIO}
    {batch : List (BatchEvent α × EventIO)} {items : List (BatchEvent α × Bytes × EventIO)}
    (h : marshalPayloads json ((item, io) :: batch) = .ok items) :
    ∃ payload rest, json.marshalPayload item.payload = .ok payload ∧
      marshalPayloads json batch = .ok rest ∧ items = (item, payload, io) :: rest := by
  rw [marshalPayloads] at h
  cases hPayload : json.marshalPayload item.payload with
  | error error =>
    rw [hPayload] at h
    cases h
  | ok payload =>
    cases hRest : marshalPayloads json batch with
    | error error =>
      rw [hPayload, hRest] at h
      cases h
    | ok rest =>
      rw [hPayload, hRest] at h
      cases h
      exact ⟨payload, rest, rfl, rfl, rfl⟩

theorem marshalPayloads_mem {batch : List (BatchEvent α × EventIO)}
    {items : List (BatchEvent α × Bytes × EventIO)} (h : marshalPayloads json batch = .ok items) :
    ∀ entry ∈ items, (entry.1, entry.2.2) ∈ batch ∧
      json.marshalPayload entry.1.payload = .ok entry.2.1 := by
  induction batch generalizing items with
  | nil =>
    cases h
    simp
  | cons first batch ih =>
    obtain ⟨payload, rest, hPayload, hRest, rfl⟩ := marshalPayloads_cons h
    refine forall_mem_cons.mpr ⟨⟨mem_cons_self, hPayload⟩, fun entry hMem => ?_⟩
    exact ⟨mem_cons_of_mem _ (ih hRest entry hMem).1, (ih hRest entry hMem).2⟩

theorem Appending.Meets.of_forall {items : List (BatchEvent α × Bytes × EventIO)}
    (h : ∀ entry ∈ items, ∀ box, ok box entry.1 entry.2.1 entry.2.2) (state : Appending) :
    Appending.Meets json ok items state := by
  induction items generalizing state with
  | nil => trivial
  | cons entry rest ih =>
    rw [forall_mem_cons] at h
    refine ⟨h.1 state.spool.box, ?_⟩
    split
    · trivial
    · exact ih h.2 _

/-- A condition on the calls alone. -/
theorem Spool.Meets.of_forall {batch : List (BatchEvent α × EventIO)}
    (h : ∀ entry ∈ batch, ∀ box payload, ok box entry.1 payload entry.2) (spool : Spool) :
    spool.Meets json ok batch := by
  unfold Spool.Meets
  split
  · trivial
  · rename_i items hItems
    refine Appending.Meets.of_forall (fun entry hMem box => ?_) _
    exact h (entry.1, entry.2.2) (marshalPayloads_mem hItems entry hMem).1 box entry.2.1

/-- What every round keeps is kept by the loop. -/
theorem Appending.Meets.appendAll {items : List (BatchEvent α × Bytes × EventIO)}
    {state : Appending}
    (hRound : ∀ (state : Appending) item payload io, json.marshalPayload item.payload = .ok payload →
      ok state.spool.box item payload io → Inv state.spool →
        Inv (state.append json io item payload).1.spool)
    (hPayloads : ∀ entry ∈ items, json.marshalPayload entry.1.payload = .ok entry.2.1)
    (h : Appending.Meets json ok items state) (hInv : Inv state.spool) :
    Inv (state.appendAll json items).1.spool := by
  induction items generalizing state with
  | nil => exact hInv
  | cons entry rest ih =>
    obtain ⟨item, payload, io⟩ := entry
    rw [forall_mem_cons] at hPayloads
    have hNext := hRound state item payload io hPayloads.1 h.1 hInv
    have hRest := h.2
    rw [Appending.appendAll]
    cases hAppend : state.append json io item payload with
    | mk next error =>
      rw [hAppend] at hNext hRest
      cases error with
      | some error => exact hNext
      | none => exact ih hPayloads.2 hRest hNext

/-- What every round, a sync and a prune keep is kept by a batch. -/
theorem Spool.Meets.appendBatch {batch : List (BatchEvent α × EventIO)} {io : BatchIO}
    {spool : Spool}
    (hRound : ∀ (state : Appending) item payload io, json.marshalPayload item.payload = .ok payload →
      ok state.spool.box item payload io → Inv state.spool →
        Inv (state.append json io item payload).1.spool)
    (hSync : ∀ spool unsynced error, Inv spool → Inv (spool.syncIfLocked unsynced error).1)
    (hPrune : ∀ spool now, Inv spool → Inv (spool.pruneLocked now))
    (h : spool.Meets json ok batch) (hInv : Inv spool) : Inv (spool.appendBatch json io batch).1 := by
  unfold Spool.appendBatch
  split
  · exact hInv
  · unfold Spool.Meets at h
    split
    · exact hInv
    · rename_i items hItems
      rw [hItems] at h
      have hAll := h.appendAll Inv hRound (fun entry hMem => (marshalPayloads_mem hItems entry hMem).2) hInv
      split
      · rename_i state error hLoop
        rwa [hLoop] at hAll
      · rename_i state hLoop
        rw [hLoop] at hAll
        have hSynced := hSync state.spool state.unsynced io.sync hAll
        split
        · rename_i synced error hLast
          rwa [hLast] at hSynced
        · rename_i synced hLast
          rw [hLast] at hSynced
          exact hPrune synced io.now hSynced

/-- An outbox whose rounds are gentle is laid out in full parts. -/
theorem Laid.appendBatch {batch : List (BatchEvent α × EventIO)} {io : BatchIO} {spool : Spool}
    (h : spool.Meets json (Outbox.Gentle json) batch)
    (hLaid : ∃ parts, Laid json parts spool ∧ parts.Full) :
    ∃ parts, Laid json parts (spool.appendBatch json io batch).1 ∧ parts.Full := by
  refine h.appendBatch (fun spool => ∃ parts, Laid json parts spool ∧ parts.Full) ?_ ?_ ?_ hLaid
  · rintro state item payload io hPayload hGentle ⟨parts, hLaid, hFull⟩
    obtain ⟨grown, hAppends, hGrown⟩ := hLaid.append hFull hPayload hGentle
    exact ⟨grown, hGrown, hAppends.full hFull⟩
  · rintro spool unsynced error ⟨parts, hLaid, hFull⟩
    exact ⟨parts, hLaid.sync .., hFull⟩
  · rintro spool now ⟨parts, hLaid, hFull⟩
    obtain ⟨kept, hSuffix, _, hKept⟩ := hLaid.pruneSegments (now - maxRetention) hFull
    rw [← hLaid.segments] at hKept
    exact ⟨kept, hKept, hFull.of_suffix hSuffix⟩

/-- An append keeps the stream and never goes back, whatever fails. -/
theorem appendBatch_frame (json : JSON α) (io : BatchIO) (batch : List (BatchEvent α × EventIO)) (spool : Spool) :
    (spool.appendBatch json io batch).1.box.streamID = spool.box.streamID ∧
      spool.box.nextSeq ≤ (spool.appendBatch json io batch).1.box.nextSeq := by
  have hAny : spool.Meets json (fun _ _ _ _ => True) batch := .of_forall (fun _ _ _ _ => trivial) spool
  refine hAny.appendBatch
    (fun after => after.box.streamID = spool.box.streamID ∧ spool.box.nextSeq ≤ after.box.nextSeq)
    ?_ ?_ ?_ ⟨rfl, Nat.le_refl _⟩
  · intro state item payload io hPayload _ hInv
    obtain ⟨hStream, hNext⟩ := (append_acts io hPayload).frame
    exact ⟨hStream.trans hInv.1, hInv.2.trans hNext⟩
  · intro spool unsynced error hInv
    rw [syncIfLocked_box]
    exact hInv
  · intro spool now hInv
    obtain ⟨hStream, hNext⟩ := pruneLocked_frame now spool
    rw [hStream, hNext]
    exact hInv

end Batch

section New

variable {α : Type} {json : JSON α} {nodeID bootID streamHex : String} {modTime : Nat → Time}
  {now : Time} {spool : Spool}

/-- A new outbox, as `Open` makes it in an empty directory. -/
theorem open_nil (h : «open» json nodeID bootID streamHex none modTime now [] = .ok spool) :
    spool = { box := { nodeID := nodeID, streamID := "stream_" ++ streamHex, bootID := bootID } } ∧
      GoStrings.trimSpace ("stream_" ++ streamHex) ≠ "" := by
  unfold «open» load at h
  simp only [getD_none, mergeSort_nil, loadSegments] at h
  split at h
  · cases h
  · rename_i hLoad
    split at hLoad
    · cases hLoad
    · rename_i hName
      cases hLoad
      cases h
      exact ⟨rfl, hName⟩

theorem laid_new (json : JSON α) (nodeID streamID bootID : String) :
    Laid json [] { box := { nodeID := nodeID, streamID := streamID, bootID := bootID } } :=
  ⟨rfl, rfl, rfl, rfl, by simp, by simp, ⟨1, Nat.one_pos, rfl, rfl⟩, fun _ => rfl, rfl, .nil,
    .inl ⟨rfl, rfl⟩⟩

end New

def startEvents : List Event :=
  [{ seq := 1, occurredAt := 5, bootID := "boot", type := "daemon.started", payload := [123, 125] },
    { seq := 2, occurredAt := 6, bootID := "boot", type := "gpu.sample", payload := [123, 125] }]

def startBatch : List (BatchEvent Bytes × EventIO) :=
  startEvents.map fun event =>
    ({ type := event.type, payload := event.payload, occurredAt := event.occurredAt }, {})

def startSpool : Spool :=
  { box := { nodeID := "node", streamID := "stream_0123456789abcdef01234567", bootID := "boot" } }

theorem open_start :
    «open» JSON.plain "node" "boot" "0123456789abcdef01234567" none (fun _ => 0) 0 [] =
      .ok startSpool := by
  have hName : GoStrings.trimSpace ("stream_" ++ "0123456789abcdef01234567") ≠ "" := by decide +kernel
  simp only [«open», load, getD_none, hName, if_false, mergeSort_nil, loadSegments]
  rfl

end GPUardian.Telemetry
