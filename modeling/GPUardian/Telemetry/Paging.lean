import GPUardian.Telemetry.Segments
import Mathlib.Data.List.Forall2
import Mathlib.Data.Nat.Digits.Lemmas

/-! Reading the outbox page by page. A page takes the reader from its cursor over the next events to
a cursor after them, so that the pages together are the retained events after the first cursor. -/
namespace GPUardian.Telemetry

open GoLines List Interleaving Outbox

variable {parts : Parts} {spool : Spool} {seq : Nat} {encoded : String}

section Pages

variable (format : CursorFormat)

/-- The cursor of the stream at a sequence number. -/
def Outbox.cursor (seq : Nat) (box : Outbox) : String :=
  format.encodeCursor { version := schemaVersion, streamID := box.streamID, seq := seq }

/-- Calls of `Page`, each with the cursor that the one before returned, up to an empty page. -/
inductive Reads (limit : Int) (box : Outbox) : String → List Event → Prop where
  | done {cursor : String} {page : Page} (hPage : box.page format cursor limit = .ok page)
      (hEmpty : page.events = []) : Reads limit box cursor []
  | more {cursor : String} {page : Page} {rest : List Event}
      (hPage : box.page format cursor limit = .ok page) (hSome : page.events ≠ [])
      (hRest : Reads limit box page.nextCursor rest) : Reads limit box cursor (page.events ++ rest)

variable {format} {limit : Int} {box : Outbox}

/-- Sequence numbers ascend, from one on. -/
structure Outbox.Ascending (box : Outbox) : Prop where
  sorted : box.events.Pairwise fun earlier later => earlier.seq < later.seq
  positive : ∀ stored ∈ box.events, 0 < stored.seq
  below : ∀ stored ∈ box.events, stored.seq < box.nextSeq
  newest : ∀ stored, box.events.getLast? = some stored → stored.seq + 1 = box.nextSeq

theorem Laid.ascending {α : Type} {json : JSON α} (h : Laid json parts spool) :
    spool.box.Ascending :=
  ⟨h.sorted, fun _ => h.seq_pos, fun _ => h.seq_lt, fun _ => h.newest⟩

theorem Outbox.Ascending.bounds (h : box.Ascending) {stored : StoredEvent}
    (hMem : stored ∈ box.events) :
    0 < box.boundsLocked.1 ∧ box.boundsLocked.1 ≤ stored.seq ∧ stored.seq ≤ box.boundsLocked.2 ∧
      box.boundsLocked.2 < box.nextSeq := by
  obtain ⟨first, rest, hFirst⟩ := exists_cons_of_ne_nil (ne_nil_of_mem hMem)
  obtain ⟨before, last, hLast⟩ := (eq_nil_or_concat box.events).resolve_left
    (ne_nil_of_mem hMem)
  rw [concat_eq_append] at hLast
  have hBounds : box.boundsLocked = (first.seq, last.seq) := by
    unfold boundsLocked
    rw [show box.events.getLast? = some last by rw [hLast, getLast?_concat],
      show box.events.head? = some first by rw [hFirst]; rfl]
  rw [hBounds]
  have hSorted := h.sorted
  refine ⟨h.positive first (by rw [hFirst]; exact mem_cons_self), ?_, ?_,
    h.below last (by rw [hLast]; simp)⟩
  · rw [hFirst] at hMem hSorted
    rcases mem_cons.mp hMem with rfl | hMem
    · exact Nat.le_refl _
    · exact ((pairwise_cons.mp hSorted).1 stored hMem).le
  · rw [hLast] at hMem hSorted
    rcases mem_append.mp hMem with hMem | hMem
    · exact ((pairwise_append.mp hSorted).2.2 stored hMem last (mem_singleton_self _)).le
    · rw [mem_singleton.mp hMem]

/-- A page is the first of the events that it could have. -/
theorem fill_eq_take (limit used : Nat) (events : List StoredEvent) :
    ∃ count, fill limit used events = (events.take count).map (·.toEvent) := by
  induction events generalizing limit used with
  | nil => exact ⟨0, by simp [fill]⟩
  | cons stored rest ih =>
    rw [fill]
    split
    · exact ⟨0, rfl⟩
    · obtain ⟨count, hCount⟩ :=
        ih (limit - 1) (used + (stored.payload.length + stored.type.utf8ByteSize + 160))
      exact ⟨count + 1, by rw [hCount, take_succ_cons, map_cons]⟩

theorem fill_ne_nil {limit : Nat} {stored : StoredEvent} {rest : List StoredEvent}
    (hLimit : 0 < limit)
    (hSmall : stored.payload.length + stored.type.utf8ByteSize ≤ maxPageBytes - 672) :
    fill limit 512 (stored :: rest) ≠ [] := by
  have hFits : ¬ (limit = 0 ∨
      512 + (stored.payload.length + stored.type.utf8ByteSize + 160) > maxPageBytes) := by
    simp only [maxPageBytes] at hSmall ⊢
    omega
  rw [fill, if_neg hFits]
  exact cons_ne_nil _ _

theorem pageLimit_pos (limit : Int) : 0 < pageLimit limit := by
  unfold pageLimit
  split
  · decide
  · simp only [maxPageLimit]
    omega

/-- The cursors of the stream can be read back. -/
structure Outbox.Named (box : Outbox) : Prop where
  nonempty : box.streamID ≠ ""
  short : box.streamID.utf8ByteSize ≤ 31

theorem decodeCursor_cursor (hNamed : box.Named) (hSeq : seq < 2 ^ 64) :
    decodeCursor format (box.cursor format seq) =
      some { version := schemaVersion, streamID := box.streamID, seq := seq } := by
  have hShort : ¬ (box.cursor format seq).utf8ByteSize > 512 :=
    Nat.not_lt.mpr (format.short _ rfl hSeq hNamed.short)
  rw [decodeCursor, if_neg hShort, cursor, format.decode_encode _ hSeq]
  simp [Option.filter, hNamed.nonempty]

/-- Where a request with a cursor of the stream starts. -/
theorem position_cursor (hNamed : box.Named) (hSeq : seq < 2 ^ 64) :
    box.position format (box.cursor format seq) =
      if 0 < box.boundsLocked.2 ∧ box.boundsLocked.2 < seq then .error .invalidCursor
      else if 0 < box.boundsLocked.1 ∧ seq + 1 < box.boundsLocked.1 then
        .error (.gap (box.gapLocked format "retention" box.boundsLocked.1 box.boundsLocked.2))
      else .ok seq := by
  have hNonempty : box.cursor format seq ≠ "" := format.nonempty _
  unfold position
  rw [decodeCursor_cursor hNamed hSeq]
  simp [hNonempty]

/-- The page of a request that is accepted. -/
theorem page_of_position (limit : Int) (hAscending : box.Ascending)
    (h : box.position format encoded = .ok seq) :
    ∃ page, box.page format encoded limit = .ok page ∧
      page.events = fill (pageLimit limit) 512
        (box.events.filter (decide <| seq < ·.seq)) ∧
      page.nextCursor = box.cursor format ((page.events.getLast?.map (·.seq)).getD seq) := by
  have hStart : box.events.drop (GoSort.search box.events.length fun i =>
      box.events[i]?.any (decide <| seq < ·.seq)) = box.events.filter (decide <| seq < ·.seq) := by
    refine GoSort.drop_search (hAscending.sorted.imp fun hLT hAfter => ?_)
    exact decide_eq_true ((of_decide_eq_true hAfter).trans hLT)
  unfold page
  rw [h]
  dsimp only
  rw [hStart]
  exact ⟨_, rfl, rfl, rfl⟩

/-- A page with events ends at one of those it could have. -/
theorem page_split {page : Page} {used limit : Nat} {events : List StoredEvent}
    (hEvents : page.events = fill limit used events) (hSome : page.events ≠ []) :
    ∃ before last after, events = before ++ last :: after ∧
      page.events = (before ++ [last]).map (·.toEvent) := by
  obtain ⟨count, hTake⟩ := fill_eq_take limit used events
  rw [hEvents, hTake] at hSome
  have hTaken : events.take count ≠ [] := fun hNil => hSome (by rw [hNil]; rfl)
  obtain ⟨before, last, hLast⟩ := (eq_nil_or_concat (events.take count)).resolve_left hTaken
  rw [concat_eq_append] at hLast
  refine ⟨before, last, events.drop count, ?_, by rw [hEvents, hTake, hLast]⟩
  rw [← singleton_append, ← append_assoc, ← hLast, take_append_drop]

theorem filter_after {events before after : List StoredEvent} {last : StoredEvent}
    (hSorted : events.Pairwise fun earlier later => earlier.seq < later.seq)
    (hSplit : events.filter (decide <| seq < ·.seq) = before ++ last :: after) :
    events.filter (decide <| last.seq < ·.seq) = after := by
  have hLast : seq < last.seq := by
    have hMem : last ∈ events.filter (decide <| seq < ·.seq) := by
      rw [hSplit]
      exact mem_append_right before mem_cons_self
    exact of_decide_eq_true (mem_filter.mp hMem).2
  have hTwice : events.filter (decide <| last.seq < ·.seq) =
      (events.filter (decide <| seq < ·.seq)).filter (decide <| last.seq < ·.seq) := by
    rw [filter_filter]
    refine filter_congr fun stored _ => ?_
    by_cases hAbove : last.seq < stored.seq
    · simp [hAbove, hLast.trans hAbove]
    · simp [hAbove]
  rw [hTwice, hSplit]
  exact GoSort.filter_above (fun stored : StoredEvent => stored.seq)
    (hSplit ▸ hSorted.sublist filter_sublist)

/-- From a cursor that is not ahead of the stream nor behind its retention, the pages are the events
after the cursor. -/
theorem reads_after (hAscending : box.Ascending) (hNamed : box.Named) (hNext : box.nextSeq ≤ 2 ^ 64)
    (hSmall : ∀ stored ∈ box.events,
      stored.payload.length + stored.type.utf8ByteSize ≤ maxPageBytes - 672) (hSeq : seq < 2 ^ 64)
    (hLatest : ¬ (0 < box.boundsLocked.2 ∧ box.boundsLocked.2 < seq))
    (hEarliest : ¬ (0 < box.boundsLocked.1 ∧ seq + 1 < box.boundsLocked.1)) :
    Reads format limit box (box.cursor format seq)
      ((box.events.filter (decide <| seq < ·.seq)).map (·.toEvent)) := by
  generalize hCount : (box.events.filter (decide <| seq < ·.seq)).length = count
  induction count using Nat.strongRecOn generalizing seq with
  | ind count ih =>
    have hPosition : box.position format (box.cursor format seq) = .ok seq := by
      rw [position_cursor hNamed hSeq, if_neg hLatest, if_neg hEarliest]
    obtain ⟨page, hPage, hEvents, hCursor⟩ := page_of_position limit hAscending hPosition
    cases hAfter : box.events.filter (decide <| seq < ·.seq) with
    | nil =>
      refine .done hPage ?_
      rw [hEvents, hAfter, fill]
    | cons first rest =>
      have hFirst : first ∈ box.events := mem_of_mem_filter (hAfter ▸ mem_cons_self)
      have hSome : page.events ≠ [] := by
        rw [hEvents, hAfter]
        exact fill_ne_nil (pageLimit_pos limit) (hSmall first hFirst)
      obtain ⟨before, last, after, hSplit, hTaken⟩ := page_split hEvents hSome
      have hLast : last ∈ box.events :=
        mem_of_mem_filter (hSplit ▸ mem_append_right before mem_cons_self)
      have hBounds := hAscending.bounds hLast
      have hNextCursor : page.nextCursor = box.cursor format last.seq := by
        rw [hCursor, hTaken, map_append, map_singleton, getLast?_concat]
        rfl
      have hRemaining : box.events.filter (decide <| last.seq < ·.seq) = after :=
        filter_after hAscending.sorted hSplit
      have hLength : after.length < count := by
        rw [← hCount, hSplit, length_append, length_cons]
        omega
      have hRest := ih after.length hLength (by omega) (by omega) (by omega)
        (congrArg List.length hRemaining)
      rw [← hAfter, hSplit, show before ++ last :: after = (before ++ [last]) ++ after by simp,
        map_append, ← hTaken]
      rw [hRemaining, ← hNextCursor] at hRest
      exact .more hPage hSome hRest

theorem Outbox.Ascending.earliest_lt (h : box.Ascending) (hPos : 0 < box.boundsLocked.1) :
    box.boundsLocked.1 < box.nextSeq := by
  unfold boundsLocked at hPos ⊢
  split at hPos
  · rename_i first last hFirst _
    simp only [*]
    exact h.below first (mem_of_mem_head? hFirst)
  · exact absurd hPos (Nat.lt_irrefl 0)

/-- A cursor of the stream is never ahead of it. -/
theorem Outbox.Ascending.not_ahead (h : box.Ascending) (hSeq : seq < box.nextSeq) :
    ¬ (0 < box.boundsLocked.2 ∧ box.boundsLocked.2 < seq) := by
  rintro ⟨hPos, hAhead⟩
  unfold boundsLocked at hPos hAhead
  split at hPos
  · rename_i first last _ hLast
    simp only [*] at hAhead
    have hNewest := h.newest last hLast
    omega
  · exact absurd hPos (Nat.lt_irrefl 0)

/-- From a cursor of the stream either the events after it are read, or the reader is told to go on
with the earliest one. -/
theorem reads_or_gap (limit : Int) (hAscending : box.Ascending) (hNamed : box.Named)
    (hNext : box.nextSeq ≤ 2 ^ 64)
    (hSmall : ∀ stored ∈ box.events,
      stored.payload.length + stored.type.utf8ByteSize ≤ maxPageBytes - 672)
    (hSeq : seq < box.nextSeq) :
    Reads format limit box (box.cursor format seq)
        ((box.events.filter (decide <| seq < ·.seq)).map (·.toEvent)) ∨
      ∃ gap, box.page format (box.cursor format seq) limit = .error (.gap gap) ∧
        Reads format limit box gap.resumeCursor (box.events.map (·.toEvent)) := by
  have hLatest := hAscending.not_ahead hSeq
  by_cases hEarliest : 0 < box.boundsLocked.1 ∧ seq + 1 < box.boundsLocked.1
  · refine Or.inr ⟨box.gapLocked format "retention" box.boundsLocked.1 box.boundsLocked.2, ?_, ?_⟩
    · unfold page
      rw [position_cursor hNamed (by omega), if_neg hLatest, if_pos hEarliest]
    · have hAll : box.events.filter (decide <| box.boundsLocked.1 - 1 < ·.seq) = box.events := by
        refine filter_eq_self.mpr fun stored hMem => decide_eq_true ?_
        have hBounds := hAscending.bounds hMem
        omega
      have hResume : box.boundsLocked.1 - 1 < box.nextSeq := by
        have hFirst := hAscending.earliest_lt hEarliest.1
        omega
      have hReads : Reads format limit box (box.cursor format (box.boundsLocked.1 - 1)) _ :=
        reads_after hAscending hNamed hNext hSmall (by omega) (hAscending.not_ahead hResume) (by omega)
      rw [hAll] at hReads
      exact hReads
  · exact Or.inl (reads_after hAscending hNamed hNext hSmall (by omega) hLatest hEarliest)

end Pages

section Reader

variable {α : Type} (json : JSON α) (format : CursorFormat)

/-- The outbox with the cursors that it has issued. -/
structure Reader where
  spool : Spool
  issued : List String := []

inductive ReaderEvent (α : Type) where
  | append (batch : List (BatchEvent α × EventIO)) (io : BatchIO)
  | page (encoded : String) (limit : Int)

/-- No input or output fails. -/
def EventIO.Clean (io : EventIO) : Prop :=
  io.sync = none ∧ io.close = none ∧ io.open = none ∧ io.write = none

def ReaderEvent.Clean : ReaderEvent α → Prop
  | .append batch io => (∀ entry ∈ batch, entry.2.Clean) ∧ io.sync = none
  | .page _ _ => True

/-- The outbox issues the cursors of its pages and of its gaps. A cursor that it did not issue and
that it hands back while it has no event is not one of them. -/
def Reader.step (reader : Reader) : ReaderEvent α → Reader
  | .append batch io => { reader with spool := (reader.spool.appendBatch json io batch).1 }
  | .page encoded limit =>
    match reader.spool.box.page format encoded limit with
    | .ok page =>
      if encoded = "" ∨ encoded ∈ reader.issued ∨ reader.spool.box.events ≠ [] then
        { reader with issued := reader.issued ++ [page.nextCursor] }
      else reader
    | .error (.gap gap) => { reader with issued := reader.issued ++ [gap.resumeCursor] }
    | .error .invalidCursor => reader

variable {json format}

/-- Clean calls are gentle. -/
theorem meets_gentle {batch : List (BatchEvent α × EventIO)}
    (hClean : ∀ entry ∈ batch, entry.2.Clean) (spool : Spool) :
    spool.Meets json (Outbox.Gentle json) batch := by
  refine .of_forall (fun entry hMem box payload text _ => ?_) spool
  obtain ⟨hSync, hClose, hOpen, hWrite⟩ := hClean entry hMem
  exact ⟨hSync, hClose, hOpen, by simp [hWrite]⟩

/-- What holds of the outbox and of the cursors it has issued. -/
structure Reader.Sound (json : JSON α) (format : CursorFormat) (reader : Reader) : Prop where
  laid : ∃ parts, Laid json parts reader.spool ∧ parts.Full
  named : reader.spool.box.Named
  issued : reader.spool.box.nextSeq ≤ 2 ^ 64 → ∀ cursor ∈ reader.issued,
    ∃ seq < reader.spool.box.nextSeq, cursor = reader.spool.box.cursor format seq

theorem Laid.nextSeq_pos (h : Laid json parts spool) : 0 < spool.box.nextSeq := by
  obtain ⟨first, hFirst, hNext, _⟩ := h.seqs
  omega

variable {box : Outbox}

/-- An outbox with events accepts no position ahead of them. -/
theorem position_lt (hAscending : box.Ascending) (hPos : 0 < box.nextSeq)
    (h : box.position format encoded = .ok seq) (hEvents : encoded = "" ∨ box.events ≠ []) :
    seq < box.nextSeq := by
  unfold position at h
  dsimp only at h
  split at h
  · rename_i hEncoded
    obtain ⟨stored, hMem⟩ := exists_mem_of_ne_nil _ (hEvents.resolve_left hEncoded)
    have hBounds := hAscending.bounds hMem
    split at h
    · cases h
    · rename_i decoded _
      split at h
      · cases h
      · split at h
        · cases h
        · split at h
          · cases h
          · split at h
            · cases h
            · cases h
              omega
  · cases h
    by_cases hEarliest : 0 < box.boundsLocked.1
    · have hFirst := hAscending.earliest_lt hEarliest
      omega
    · omega

/-- The cursor after a page is one of the stream, if the page was asked for with one of its cursors
or has events to end at. -/
theorem nextCursor_issued {limit : Int} {page : Page} (hAscending : box.Ascending)
    (hPage : box.page format encoded limit = .ok page)
    (hPosition : ∀ seq, box.position format encoded = .ok seq → seq < box.nextSeq) :
    ∃ seq < box.nextSeq, page.nextCursor = box.cursor format seq := by
  cases hStart : box.position format encoded with
  | error error =>
    unfold Outbox.page at hPage
    rw [hStart] at hPage
    cases hPage
  | ok seq =>
    obtain ⟨found, hFound, hEvents, hCursor⟩ := page_of_position limit hAscending hStart
    rw [hPage] at hFound
    cases hFound
    by_cases hSome : page.events = []
    · exact ⟨seq, hPosition seq hStart, by rw [hCursor, hSome]; rfl⟩
    · obtain ⟨before, last, after, hSplit, hTaken⟩ := page_split hEvents hSome
      have hLast : last ∈ box.events :=
        mem_of_mem_filter (hSplit ▸ mem_append_right before mem_cons_self)
      refine ⟨last.seq, hAscending.below last hLast, ?_⟩
      rw [hCursor, hTaken, map_append, map_singleton, getLast?_concat]
      rfl

theorem gap_issued {limit : Int} {gap : CursorGap} (hAscending : box.Ascending)
    (hPos : 0 < box.nextSeq) (hPage : box.page format encoded limit = .error (.gap gap)) :
    ∃ seq < box.nextSeq, gap.resumeCursor = box.cursor format seq := by
  have hResume : box.boundsLocked.1 - 1 < box.nextSeq := by
    by_cases hEarliest : 0 < box.boundsLocked.1
    · have hFirst := hAscending.earliest_lt hEarliest
      omega
    · omega
  refine ⟨box.boundsLocked.1 - 1, hResume, ?_⟩
  unfold page at hPage
  split at hPage
  · rename_i error hPosition
    cases hPage
    unfold position at hPosition
    dsimp only at hPosition
    grind [gapLocked, cursor]
  · cases hPage

variable {reader : Reader}

theorem Reader.Sound.page (h : reader.Sound json format) (encoded : String) (limit : Int) :
    (reader.step json format (.page encoded limit)).Sound json format := by
  obtain ⟨parts, hLaid, hFull⟩ := h.laid
  have hAscending := hLaid.ascending
  unfold Reader.step
  dsimp only
  split
  · rename_i page hPage
    split
    · rename_i hAsked
      refine ⟨h.laid, h.named, fun hBound => ?_⟩
      rw [forall_mem_append, forall_mem_singleton]
      refine ⟨h.issued hBound, nextCursor_issued hAscending hPage fun seq hPosition => ?_⟩
      by_cases hEvents : encoded = "" ∨ reader.spool.box.events ≠ []
      · exact position_lt hAscending hLaid.nextSeq_pos hPosition hEvents
      · have hIssued : encoded ∈ reader.issued := by tauto
        obtain ⟨issued, hLT, rfl⟩ := h.issued hBound encoded hIssued
        rw [position_cursor h.named (hLT.trans_le hBound)] at hPosition
        split at hPosition
        · cases hPosition
        · split at hPosition
          · cases hPosition
          · cases hPosition
            exact hLT
    · exact h
  · rename_i gap hPage
    refine ⟨h.laid, h.named, fun hBound => ?_⟩
    rw [forall_mem_append, forall_mem_singleton]
    exact ⟨h.issued hBound, gap_issued hAscending hLaid.nextSeq_pos hPage⟩
  · exact h

theorem Reader.Sound.append (h : reader.Sound json format) {batch : List (BatchEvent α × EventIO)}
    {io : BatchIO} (hClean : ∀ entry ∈ batch, entry.2.Clean) :
    (reader.step json format (.append batch io)).Sound json format := by
  obtain ⟨hStream, hNext⟩ := appendBatch_frame json io batch reader.spool
  refine ⟨Laid.appendBatch (meets_gentle hClean _) h.laid, ?_, ?_⟩
  · exact ⟨by rw [Reader.step, hStream]; exact h.named.nonempty,
      by rw [Reader.step, hStream]; exact h.named.short⟩
  · intro hBound cursor hMem
    obtain ⟨seq, hSeq, hCursor⟩ := h.issued (hNext.trans hBound) cursor hMem
    refine ⟨seq, hSeq.trans_le hNext, ?_⟩
    rw [hCursor, Outbox.cursor, Outbox.cursor, Reader.step, hStream]

theorem Reader.Sound.run {events : List (ReaderEvent α)} (h : reader.Sound json format)
    (hClean : ∀ event ∈ events, event.Clean) :
    (run (Reader.step json format) reader events).Sound json format := by
  induction events generalizing reader with
  | nil => exact h
  | cons event events ih =>
    rw [forall_mem_cons] at hClean
    refine ih ?_ hClean.2
    cases event with
    | append batch io => exact h.append hClean.1.1
    | page encoded limit => exact h.page encoded limit

/-- The retained events are numbered without gaps, the segments hold them block by block, and
`totalBytes` counts the segments. -/
structure Outbox.Partitioned (box : Outbox) : Prop where
  contiguous : ∃ first, box.events.map (·.seq) = List.range' first box.events.length
  blocks : ∃ blocks : List (List StoredEvent), box.events = blocks.flatten ∧
    List.Forall₂ (fun seg block => block.head?.map (·.seq) = some seg.first ∧
      block.getLast?.map (·.seq) = some seg.last ∧ ∀ stored ∈ block, stored.segment = seg.path)
      box.segments blocks
  total : box.totalBytes = (box.segments.map (·.size)).sum

theorem Laid.partitioned (h : Laid json parts spool) (hFull : parts.Full) :
    spool.box.Partitioned where
  contiguous := by
    obtain ⟨first, _, _, hSeqs⟩ := h.seqs
    exact ⟨first, hSeqs⟩
  blocks := by
    refine ⟨parts.map fun part => part.2.map (·.1), by rw [h.events, Parts.events, flatMap_def], ?_⟩
    rw [h.segments, forall₂_map_left_iff, forall₂_map_right_iff, forall₂_same]
    intro part hMem
    have hHolds := h.holds part hMem
    refine ⟨?_, ?_, ?_⟩
    · obtain ⟨entry, rest, hBlock⟩ := exists_cons_of_ne_nil (hFull part hMem)
      rw [head?_map, Option.map_map, ← hHolds.first entry (by rw [hBlock]; rfl), hBlock]
      rfl
    · obtain ⟨before, entry, hBlock⟩ := (eq_nil_or_concat part.2).resolve_left (hFull part hMem)
      rw [concat_eq_append] at hBlock
      rw [getLast?_map, Option.map_map,
        ← (hHolds.last entry (by rw [hBlock, getLast?_concat])).1, hBlock, getLast?_concat]
      rfl
    · intro stored hStored
      obtain ⟨entry, hEntry, rfl⟩ := mem_map.mp hStored
      exact hHolds.inside entry hEntry
  total := h.total

/-- A new outbox, as `Open` makes it in an empty directory. -/
theorem sound_of_open {nodeID bootID streamHex : String} {modTime : Nat → Time} {now : Time}
    (hHex : streamHex.utf8ByteSize = 24)
    (hOpen : «open» json nodeID bootID streamHex none modTime now [] = .ok spool) :
    Reader.Sound json format { spool := spool } := by
  obtain ⟨rfl, _⟩ := open_nil hOpen
  have hSize : ("stream_" ++ streamHex).utf8ByteSize = 31 := by
    rw [String.utf8ByteSize_append, hHex]
    rfl
  refine ⟨⟨[], laid_new .., by simp [Parts.Full]⟩, ⟨?_, hSize.le⟩, by simp⟩
  exact fun hEmpty => absurd (hSize.symm.trans (congrArg String.utf8ByteSize hEmpty)) (by decide)

end Reader

def digitChar (digit : Nat) : Char := Char.ofNat (48 + digit)

/-- Cursors as plain text: the version in strokes, the sequence number in decimal digits, the lowest
one first, and the stream. -/
def plainCursor (cursor : Cursor) : List Char :=
  List.replicate cursor.version 'v' ++ '/' :: ((Nat.digits 10 cursor.seq).map digitChar ++
    '/' :: cursor.streamID.toList)

theorem digitChar_toNat : ∀ digit < 10, (digitChar digit).toNat - 48 = digit := by decide

theorem digitChar_ne_slash : ∀ digit < 10, digitChar digit ≠ '/' := by decide

theorem utf8ByteSize_ofList_le (chars : List Char) :
    (String.ofList chars).utf8ByteSize ≤ 4 * chars.length := by
  induction chars with
  | nil => exact Nat.le_refl _
  | cons c chars ih =>
    have hOne := Char.utf8Size_le_four c
    rw [String.ofList_cons, String.utf8ByteSize_append, String.utf8ByteSize_singleton,
      length_cons]
    omega

def CursorFormat.plain : CursorFormat where
  encodeCursor cursor := String.ofList (plainCursor cursor)
  decode text :=
    let rest := (text.toList.dropWhile (· == 'v')).drop 1
    some
      { version := (text.toList.takeWhile (· == 'v')).length
        seq := Nat.ofDigits 10 ((rest.takeWhile (· != '/')).map (·.toNat - 48))
        streamID := String.ofList ((rest.dropWhile (· != '/')).drop 1) }
  decode_encode := by
    intro cursor _
    have hStrokes : ∀ c ∈ List.replicate cursor.version 'v', (c == 'v') = true := by
      intro c hMem
      rw [(mem_replicate.mp hMem).2]
      rfl
    have hDigits : ∀ c ∈ (Nat.digits 10 cursor.seq).map digitChar, (c != '/') = true := by
      intro c hMem
      obtain ⟨digit, hDigit, rfl⟩ := mem_map.mp hMem
      exact bne_iff_ne.mpr (digitChar_ne_slash digit (Nat.digits_lt_base (by decide) hDigit))
    have hBack : ((Nat.digits 10 cursor.seq).map digitChar).map (·.toNat - 48) =
        Nat.digits 10 cursor.seq := by
      rw [map_map]
      refine (map_congr_left fun digit hDigit => ?_).trans (map_id' _)
      exact digitChar_toNat digit (Nat.digits_lt_base (by decide) hDigit)
    simp only [String.toList_ofList, plainCursor, takeWhile_append_of_pos hStrokes,
      dropWhile_append_of_pos hStrokes]
    simp [takeWhile_append_of_pos hDigits, dropWhile_append_of_pos hDigits, hBack,
      Nat.ofDigits_digits]
  nonempty := by
    intro cursor hEmpty
    have hLength := congrArg (·.toList.length) hEmpty
    simp [plainCursor] at hLength
  short := by
    intro cursor hVersion hSeq hStream
    have hDigits : (Nat.digits 10 cursor.seq).length ≤ 20 :=
      (Nat.digits_length_le_iff (by decide) _).mpr (hSeq.trans (by decide))
    have hStart := utf8ByteSize_ofList_le
      (List.replicate cursor.version 'v' ++ '/' :: (Nat.digits 10 cursor.seq).map digitChar ++ ['/'])
    have hSplit : plainCursor cursor = (List.replicate cursor.version 'v' ++
        '/' :: (Nat.digits 10 cursor.seq).map digitChar ++ ['/']) ++ cursor.streamID.toList := by
      simp [plainCursor]
    rw [hSplit, String.ofList_append, String.utf8ByteSize_append, String.ofList_toList]
    simp only [length_append, length_replicate, length_cons, length_map,
      length_nil, hVersion, schemaVersion] at hStart ⊢
    omega

section Issued

variable {α : Type} {json : JSON α} {format : CursorFormat}

/-- In every state that appends without failures of the disk lead to, the outbox is partitioned into
its segments, and whoever reads on from a cursor that it issued reads every event it retains. -/
theorem outbox_read_from_issued_cursor {nodeID bootID streamHex : String} {modTime : Nat → Time}
    {now : Time} {spool : Spool} {events : List (ReaderEvent α)}
    (hHex : streamHex.utf8ByteSize = 24)
    (hOpen : «open» json nodeID bootID streamHex none modTime now [] = .ok spool)
    (hClean : ∀ event ∈ events, event.Clean) :
    let reader := run (Reader.step json format) { spool := spool } events
    let box := reader.spool.box
    box.Partitioned ∧
      (box.nextSeq ≤ 2 ^ 64 →
        (∀ stored ∈ box.events,
          stored.payload.length + stored.type.utf8ByteSize ≤ maxPageBytes - 672) →
        ∀ limit, ∀ cursor ∈ reader.issued, ∃ seq, cursor = box.cursor format seq ∧
          (Reads format limit box cursor
              ((box.events.filter (decide <| seq < ·.seq)).map (·.toEvent)) ∨
            ∃ gap, box.page format cursor limit = .error (.gap gap) ∧
              Reads format limit box gap.resumeCursor (box.events.map (·.toEvent)))) := by
  intro reader box
  have hSound : reader.Sound json format := (sound_of_open hHex hOpen).run hClean
  obtain ⟨parts, hLaid, hFull⟩ := hSound.laid
  refine ⟨hLaid.partitioned hFull, fun hBound hSmall limit cursor hMem => ?_⟩
  obtain ⟨seq, hSeq, rfl⟩ := hSound.issued hBound cursor hMem
  exact ⟨seq, rfl, reads_or_gap limit hLaid.ascending hSound.named hBound hSmall hSeq⟩

end Issued

theorem outbox_read_from_issued_cursor_start :
    let reader := run (Reader.step JSON.plain .plain)
      { spool := startSpool } [.append startBatch {}, .page "" 1]
    let box := reader.spool.box
    box.events.map (·.toEvent) = startEvents ∧ reader.issued.length = 1 ∧ box.Partitioned ∧
      ∀ cursor ∈ reader.issued, ∃ seq, cursor = box.cursor .plain seq ∧
        (Reads .plain 1 box cursor ((box.events.filter (decide <| seq < ·.seq)).map (·.toEvent)) ∨
          ∃ gap, box.page .plain cursor 1 = .error (.gap gap) ∧
            Reads .plain 1 box gap.resumeCursor (box.events.map (·.toEvent))) := by
  have hClean : ∀ event ∈ [ReaderEvent.append startBatch {}, .page "" 1], event.Clean := by
    rw [forall_mem_cons, forall_mem_singleton]
    refine ⟨⟨fun entry hMem => ?_, rfl⟩, trivial⟩
    obtain ⟨event, _, rfl⟩ := mem_map.mp hMem
    exact ⟨rfl, rfl, rfl, rfl⟩
  have hResult := @outbox_read_from_issued_cursor _ _ .plain _ _ _ _ _ _ _ (by decide) open_start hClean
  refine ⟨by decide +kernel, by decide +kernel, hResult.1, ?_⟩
  exact hResult.2 (by decide +kernel) (by decide +kernel) 1

end GPUardian.Telemetry
