import GPUardian.Telemetry.Paging
import GPUardian.Telemetry.Recovery

/-! Crashes. What was synced survives a crash, of the other lines any first part; what was served
before is still served, unless a crash has taken it. -/
namespace GPUardian.Telemetry

open GoLines List Function Interleaving

section Model

variable {α : Type} (json : JSON α)

/-- What a crash leaves of the complete lines in the directory. -/
def Spool.kept (count : Nat) (spool : Spool) : List StoredEvent :=
  let unsynced := spool.complete.filter (· ∉ spool.durable)
  spool.complete.filter fun stored => stored ∈ spool.durable ∨ stored ∈ unsynced.take count

def lineOf (stored : StoredEvent) : Bytes :=
  match json.marshal stored.toEvent with
  | .ok text => text ++ [newline]
  | .error _ => []

/-- The lines of a segment file. -/
def pathText (path : Nat) (events : List StoredEvent) : Bytes :=
  (events.filter (·.segment = path)).flatMap (lineOf json)

/-- The directory after a crash. -/
def Spool.crash (count : Nat) (spool : Spool) : Spool :=
  { spool with
    complete := spool.kept count
    files := spool.files.map fun file => (file.1, pathText json file.1 (spool.kept count)) }

/-- A batch that is not finished: its last sync and its prune have not been made. -/
def Spool.interrupted (batch : List (BatchEvent α × EventIO)) (spool : Spool) : Spool :=
  match marshalPayloads json batch with
  | .error _ => spool
  | .ok items => (Appending.appendAll json items { spool := spool }).1.spool

/-- The outbox of a node with the events that it has served. While it could not be opened, `spool`
has the outbox as it was in memory before. -/
structure Recorder where
  spool : Spool
  up : Bool := true
  served : List (String × Event) := []

/-- A crash may come while a batch is appended. -/
inductive RecorderEvent (α : Type) where
  | append (batch : List (BatchEvent α × EventIO)) (io : BatchIO)
  | page (encoded : String) (limit : Int)
  | crash (batch : List (BatchEvent α × EventIO)) (count : Nat) (bootID : String)
      (modTime : Nat → Time) (now : Time)

variable (format : CursorFormat)

def Recorder.step (recorder : Recorder) : RecorderEvent α → Recorder
  | .append batch io =>
    if recorder.up then { recorder with spool := (recorder.spool.appendBatch json io batch).1 }
    else recorder
  | .page encoded limit =>
    let box := recorder.spool.box
    match recorder.up, box.page format encoded limit with
    | true, .ok page =>
      { recorder with served := recorder.served ++ page.events.map fun event => (box.streamID, event) }
    | _, _ => recorder
  | .crash batch count bootID modTime now =>
    let box := recorder.spool.box
    let spool := if recorder.up then recorder.spool.interrupted json batch else recorder.spool
    let crashed := spool.crash json count
    match load json box.nodeID bootID "" (some box.streamID) modTime crashed.files with
    | .ok loaded =>
      { recorder with spool := Spool.pruneLocked now { crashed with box := loaded }, up := true }
    | .error _ =>
      { recorder with spool := { crashed with box := { box with current := none } }, up := false }

/-- Where a crash does not strike an event in memory whose line is not synced in the directory. -/
def Recorder.Safe (recorder : Recorder) : RecorderEvent α → Prop
  | .crash .. => ∀ stored ∈ recorder.spool.box.events, stored ∈ recorder.spool.durable
  | _ => True

instance (recorder : Recorder) (event : RecorderEvent α) : Decidable (recorder.Safe event) := by
  cases event <;> unfold Recorder.Safe <;> infer_instance

end Model

variable {box : Outbox} {stored : StoredEvent} {path next : Nat} {events : List StoredEvent}
variable {files : Files} {after : Spool} {event : Event}

section Invariant

variable {α : Type}

/-- The lines in the directory, numbered below `next`. -/
structure Stored (json : JSON α) (next : Nat) (spool : Spool) : Prop where
  distinct : (spool.files.map (·.1)).Nodup
  filed : ∀ stored ∈ spool.complete, stored.segment ∈ spool.files.map (·.1)
  durable : ∀ stored ∈ spool.durable, stored ∈ spool.complete
  written : ∀ stored ∈ spool.complete, ∃ text, Written json (stored, text)
  named : ∀ stored ∈ spool.complete, 0 < stored.seq ∧ stored.segment ≤ stored.seq
  sizes : ∀ path, (pathText json path spool.complete).length ≤ maxSegmentBytes ∨
    (spool.complete.filter (·.segment = path)).length ≤ 1
  sorted : spool.complete.Pairwise fun earlier later =>
    earlier.seq < later.seq ∧ earlier.segment ≤ later.segment
  below : ∀ stored ∈ spool.complete, stored.seq < next

/-- The segments and the handle of an outbox that is written to. -/
structure Writable (json : JSON α) (spool : Spool) : Prop where
  positive : 0 < spool.box.nextSeq
  lasts : ∀ seg ∈ spool.box.segments, seg.last < spool.box.nextSeq
  ahead : ∀ handle ∈ spool.box.current, handle.path ≤ spool.box.nextSeq ∧
    ∀ stored ∈ spool.complete, stored.segment ≤ handle.path
  size : ∀ handle ∈ spool.box.current, ∀ seg ∈ spool.box.segments.getLast?,
    seg.path = handle.path ∧ (handle.path ∈ spool.files.map (·.1) →
      (pathText json handle.path spool.complete).length = seg.size)
  agree : ∀ stored ∈ spool.box.events, ∀ other ∈ spool.complete,
    other.seq = stored.seq → other.toEvent = stored.toEvent

/-- The events in memory. -/
structure Outbox.Recalled (box : Outbox) : Prop where
  sorted : box.events.Pairwise fun earlier later => earlier.seq < later.seq
  newest : ∀ stored ∈ box.events.getLast?, stored.seq + 1 = box.nextSeq
  start : box.events = [] → box.nextSeq = 1

/-- What was served is what is in the directory and in memory under its number. -/
structure Constant (served : List Event) (spool : Spool) : Prop where
  below : ∀ event ∈ served, event.seq < spool.box.nextSeq
  complete : ∀ event ∈ served, ∀ stored ∈ spool.complete,
    stored.seq = event.seq → stored.toEvent = event
  memory : ∀ event ∈ served, ∀ stored ∈ spool.box.events,
    stored.seq = event.seq → stored.toEvent = event

structure Running (json : JSON α) (served : List Event) (spool : Spool) : Prop where
  stored : Stored json spool.box.nextSeq spool
  writable : Writable json spool
  recalled : spool.box.Recalled
  constant : Constant served spool

variable {json : JSON α} {spool : Spool} {served : List Event}

theorem Outbox.Recalled.below (h : box.Recalled) (hMem : stored ∈ box.events) :
    stored.seq < box.nextSeq := by
  obtain ⟨before, last, hLast⟩ := (eq_nil_or_concat box.events).resolve_left
    (ne_nil_of_mem hMem)
  rw [concat_eq_append] at hLast
  have hNewest := h.newest last (by rw [hLast, getLast?_concat]; rfl)
  have hSorted := h.sorted
  rw [hLast] at hMem hSorted
  rcases mem_concat.mp hMem with hMem | rfl
  · have hLT := (pairwise_append.mp hSorted).2.2 stored hMem last (mem_singleton_self _)
    omega
  · omega

variable {text : Bytes}

theorem lineOf_written (h : Written json (stored, text)) :
    lineOf json stored = text ++ [newline] := by
  rw [lineOf, h.2]

theorem pathText_concat (path : Nat) (events : List StoredEvent) (stored : StoredEvent) :
    pathText json path (events ++ [stored]) =
      pathText json path events ++ (if stored.segment = path then lineOf json stored else []) := by
  unfold pathText
  rw [filter_append, flatMap_append]
  by_cases hPath : stored.segment = path <;> simp [hPath]

/-- A file without text has no lines. -/
theorem filter_of_pathText (hWritten : ∀ stored ∈ events, ∃ text, Written json (stored, text))
    (h : (pathText json path events).length = 0) : events.filter (·.segment = path) = [] := by
  by_contra hSome
  obtain ⟨stored, hMem⟩ := exists_mem_of_ne_nil _ hSome
  obtain ⟨text, hText⟩ := hWritten stored (mem_of_mem_filter hMem)
  have hLine : newline ∈ pathText json path events := by
    refine mem_flatMap.mpr ⟨stored, hMem, ?_⟩
    rw [lineOf_written hText]
    simp
  exact absurd (length_pos_of_mem hLine) (by omega)

theorem Running.sync {durable : List StoredEvent} (h : Running json served spool)
    (hDurable : ∀ stored ∈ durable, stored ∈ spool.complete) :
    Running json served { spool with durable := durable } :=
  ⟨{ h.stored with durable := hDurable }, { h.writable with }, h.recalled, { h.constant with }⟩

theorem Running.close (h : Running json served spool) :
    Running json served { spool with
      box := { spool.box with current := spool.box.current.map ({ · with isOpen := false }) } } := by
  have hHandle : ∀ handle ∈ spool.box.current.map ({ · with isOpen := false }),
      ∃ before ∈ spool.box.current, before.path = handle.path := by
    intro handle hMem
    obtain ⟨before, hBefore, rfl⟩ := Option.map_eq_some_iff.mp hMem
    exact ⟨before, hBefore, rfl⟩
  refine ⟨{ h.stored with }, { h.writable with ahead := ?_, size := ?_ }, { h.recalled with },
    { h.constant with }⟩
  · intro handle hMem
    obtain ⟨before, hBefore, hPath⟩ := hHandle handle hMem
    rw [← hPath]
    exact h.writable.ahead before hBefore
  · intro handle hMem
    obtain ⟨before, hBefore, hPath⟩ := hHandle handle hMem
    rw [← hPath]
    exact h.writable.size before hBefore

theorem create_paths (h : (files.map (·.1)).Nodup) (path : Nat) :
    ((files.create path).map (·.1)).Nodup ∧
      ∀ other ∈ files.map (·.1), other ∈ (files.create path).map (·.1) := by
  unfold Files.create
  split
  · exact ⟨h, fun _ hMem => hMem⟩
  · rename_i hNew
    have hNew : path ∉ files.map (·.1) := by simpa using hNew
    rw [map_append, map_singleton]
    refine ⟨?_, fun other hMem => mem_append_left _ hMem⟩
    rw [nodup_append]
    refine ⟨h, nodup_singleton path, fun other hOther last hLast => ?_⟩
    rw [mem_singleton.mp hLast]
    exact fun hSame : other = path => hNew (hSame ▸ hOther)

theorem Running.newSegment (h : Running json served spool) (created : Time) :
    Running json served (spool.newSegment spool.box.nextSeq created) := by
  have hBefore : ∀ stored ∈ spool.complete, stored.segment < spool.box.nextSeq := fun stored hMem =>
    (h.stored.named stored hMem).2.trans_lt (h.stored.below stored hMem)
  have hEmpty : spool.complete.filter (·.segment = spool.box.nextSeq) = [] :=
    filter_eq_nil_iff.mpr fun stored hMem => by simpa using (hBefore stored hMem).ne
  obtain ⟨hDistinct, hPaths⟩ := create_paths h.stored.distinct spool.box.nextSeq
  refine ⟨{ h.stored with
      distinct := hDistinct, filed := fun stored hMem => hPaths _ (h.stored.filed stored hMem) },
    { h.writable with lasts := ?_, ahead := ?_, size := ?_ }, { h.recalled with }, { h.constant with }⟩
  · exact forall_mem_concat.mpr
      ⟨h.writable.lasts, h.writable.positive⟩
  · intro handle hHandle
    cases hHandle
    exact ⟨Nat.le_refl _, fun stored hMem => (hBefore stored hMem).le⟩
  · intro handle hHandle seg hSeg
    cases hHandle
    rw [Spool.newSegment, getLast?_concat] at hSeg
    cases hSeg
    refine ⟨rfl, fun _ => ?_⟩
    show ((pathText json spool.box.nextSeq spool.complete).length : Int) = 0
    rw [pathText, hEmpty]
    rfl

theorem append_paths (path : Nat) (bytes : Bytes) (files : Files) :
    (files.append path bytes).map (·.1) = files.map (·.1) := by
  unfold Files.append
  rw [map_map]
  refine map_congr_left fun file _ => ?_
  by_cases hPath : file.1 = path
  · simp [hPath]
  · simp [hPath]

theorem Running.tear (h : Running json served spool) (path : Nat) (part : Bytes) :
    Running json served { spool with files := spool.files.append path part } := by
  have hPaths := append_paths path part spool.files
  refine ⟨{ h.stored with distinct := ?_, filed := ?_ }, { h.writable with size := ?_ }, h.recalled,
    { h.constant with }⟩
  all_goals rw [hPaths]
  · exact h.stored.distinct
  · exact h.stored.filed
  · exact h.writable.size

/-- A line more in the newest file of the directory. -/
theorem Stored.concat (h : Stored json next spool)
    (hFiles : files.map (·.1) = spool.files.map (·.1))
    (hFile : stored.segment ∈ spool.files.map (·.1)) (hWritten : Written json (stored, text))
    (hSeq : stored.seq = next) (hPos : 0 < next) (hName : stored.segment ≤ next)
    (hAhead : ∀ other ∈ spool.complete, other.segment ≤ stored.segment)
    (hSize : (pathText json stored.segment spool.complete).length + (text ++ [newline]).length ≤
        maxSegmentBytes ∨ (pathText json stored.segment spool.complete).length = 0) :
    Stored json (next + 1)
      { spool with box := box, files := files, complete := spool.complete ++ [stored] } where
  distinct := hFiles ▸ h.distinct
  filed := by
    rw [hFiles]
    exact forall_mem_concat.mpr ⟨h.filed, hFile⟩
  durable := fun other hMem => mem_append_left _ (h.durable other hMem)
  written := forall_mem_concat.mpr ⟨h.written, ⟨text, hWritten⟩⟩
  named := forall_mem_concat.mpr
    ⟨h.named, ⟨hSeq ▸ hPos, hSeq ▸ hName⟩⟩
  sizes := by
    intro path
    rw [pathText_concat, filter_append]
    by_cases hPath : stored.segment = path
    · subst hPath
      rcases hSize with hFits | hEmpty
      · left
        rw [if_pos rfl, lineOf_written hWritten, length_append]
        exact hFits
      · right
        rw [filter_of_pathText h.written hEmpty]
        simp
    · simpa [hPath] using h.sizes path
  sorted := by
    rw [pairwise_append]
    refine ⟨h.sorted, pairwise_singleton _ _, fun other hOther last hLast => ?_⟩
    rw [mem_singleton.mp hLast, hSeq]
    exact ⟨h.below other hOther, hAhead other hOther⟩
  below := forall_mem_append.mpr
    ⟨fun other hMem => (h.below other hMem).trans (Nat.lt_succ_self _),
      forall_mem_singleton.mpr (by omega)⟩

theorem Outbox.Recalled.concat (h : box.Recalled) (hSeq : stored.seq = box.nextSeq)
    (segments : List Segment) (totalBytes : Int) :
    Outbox.Recalled { box with
      segments := segments
      totalBytes := totalBytes
      events := box.events ++ [stored]
      nextSeq := box.nextSeq + 1 } where
  sorted := by
    rw [pairwise_append]
    refine ⟨h.sorted, pairwise_singleton _ _, fun other hOther last hLast => ?_⟩
    rw [mem_singleton.mp hLast, hSeq]
    exact h.below hOther
  newest := by
    intro other hOther
    rw [getLast?_concat] at hOther
    cases hOther
    exact congrArg (· + 1) hSeq
  start := by simp

/-- What was served keeps its number when a new one is given. -/
theorem Constant.concat (h : Constant served spool) (hSeq : stored.seq = spool.box.nextSeq)
    (hNext : after.box.nextSeq = spool.box.nextSeq + 1)
    (hComplete : ∀ other ∈ after.complete, other ∈ spool.complete ∨ other = stored)
    (hEvents : after.box.events = spool.box.events ++ [stored]) : Constant served after where
  below := fun event hMem => by
    have hBelow := h.below event hMem
    omega
  complete := fun event hMem other hOther hSame => by
    have hBelow := h.below event hMem
    rcases hComplete other hOther with hOther | rfl
    · exact h.complete event hMem other hOther hSame
    · omega
  memory := fun event hMem other hOther hSame => by
    have hBelow := h.below event hMem
    rw [hEvents] at hOther
    rcases mem_concat.mp hOther with hOther | rfl
    · exact h.memory event hMem other hOther hSame
    · omega

variable {seg : Segment}

/-- The next line, once it is written, is stored and recalled. -/
theorem Running.write (h : Running json served spool)
    (hCurrent : spool.box.current = some { path := path })
    (hLine : NextLine json spool seg event text) :
    Running json served (spool.addLine path event (text ++ [newline])) := by
  obtain ⟨hLast, hSeq, hPayload, hText, hFits⟩ := hLine
  obtain ⟨hPath, hSize⟩ := h.writable.size _ hCurrent seg hLast
  obtain ⟨hName, hAhead⟩ := h.writable.ahead _ hCurrent
  have hPaths := append_paths path (text ++ [newline]) spool.files
  have hWritten : Written json ({ event with segment := path }, text) := ⟨hPayload, hText⟩
  have hFile : spool.files.any (·.1 == path) = true ↔ path ∈ spool.files.map (·.1) := by simp
  rw [Spool.addLine, record_of_getLast? hLast, hPath]
  dsimp only at hPath hSize hName hAhead ⊢
  set stored : StoredEvent := { event with segment := path }
  have hComplete : ∀ other ∈ (if spool.files.any (·.1 == path) then spool.complete ++ [stored]
      else spool.complete), other ∈ spool.complete ∨ other = stored := by
    intro other hMem
    split at hMem
    · simpa using hMem
    · exact .inl hMem
  refine ⟨?_, ⟨Nat.succ_pos _, ?_, ?_, ?_, ?_⟩, h.recalled.concat hSeq _ _,
    h.constant.concat hSeq rfl hComplete rfl⟩
  · by_cases hHere : path ∈ spool.files.map (·.1)
    · rw [if_pos (hFile.mpr hHere)]
      refine h.stored.concat hPaths hHere hWritten hSeq h.writable.positive hName hAhead ?_
      have hSame := hSize hHere
      rcases hFits with hFits | hZero
      · left
        show (pathText json path spool.complete).length + _ ≤ _
        omega
      · right
        show (pathText json path spool.complete).length = 0
        omega
    · rw [if_neg (mt hFile.mp hHere)]
      exact { h.stored with
        distinct := hPaths ▸ h.stored.distinct, filed := hPaths ▸ h.stored.filed
        below := fun other hMem => (h.stored.below other hMem).trans (Nat.lt_succ_self _) }
  · refine forall_mem_concat.mpr ⟨fun other hMem => ?_, ?_⟩
    · exact (h.writable.lasts other (mem_of_mem_dropLast hMem)).trans (Nat.lt_succ_self _)
    · show event.seq < spool.box.nextSeq + 1
      omega
  · intro handle hHandle
    rw [hCurrent] at hHandle
    cases hHandle
    refine ⟨hName.trans (Nat.le_succ _), fun other hMem => ?_⟩
    rcases hComplete other hMem with hMem | rfl
    · exact hAhead other hMem
    · exact Nat.le_refl _
  · intro handle hHandle other hOther
    rw [hCurrent] at hHandle
    cases hHandle
    rw [getLast?_concat] at hOther
    cases hOther
    refine ⟨rfl, fun hHere => ?_⟩
    rw [hPaths] at hHere
    rw [if_pos (hFile.mpr hHere), pathText_concat, if_pos rfl, lineOf_written hWritten,
      length_append]
    have hSame := hSize hHere
    show ((pathText json path spool.complete).length + (text ++ [newline]).length : Int) =
      seg.size + (text ++ [newline]).length
    omega
  · intro mine hMine other hOther hSame
    rcases mem_concat.mp hMine with hMine | rfl
    · have hBelow := h.recalled.below hMine
      rcases hComplete other hOther with hOther | rfl
      · exact h.writable.agree mine hMine other hOther hSame
      · have hNew : stored.seq = spool.box.nextSeq := hSeq
        omega
    · rcases hComplete other hOther with hOther | rfl
      · have hBelow := h.stored.below other hOther
        have hNew : stored.seq = spool.box.nextSeq := hSeq
        omega
      · rfl

/-- Every action of an append keeps the invariant. -/
theorem Acts.running (hActs : Acts json spool after) (h : Running json served spool) :
    Running json served after := by
  cases hActs with
  | sync hCurrent =>
    refine h.sync fun stored hMem => ?_
    rcases mem_append.mp hMem with hMem | hMem
    · exact h.stored.durable stored hMem
    · exact mem_of_mem_filter hMem
  | close => exact h.close
  | newSegment created => exact h.newSegment created
  | tear part hCurrent => exact h.tear _ part
  | write hCurrent hLine => exact h.write hCurrent hLine

theorem Acting.running (hActing : Acting json spool after) (h : Running json served spool) :
    Running json served after := by
  induction hActing with
  | refl => exact h
  | tail _ hLast ih => exact hLast.running ih

/-- The newest event is not in a segment that could be pruned. -/
def Outbox.NewestLast (box : Outbox) : Prop :=
  ∀ seg ∈ box.segments.dropLast, seg.last + 1 < box.nextSeq

/-- Fewer lines in the directory. -/
theorem Stored.sub (h : Stored json next spool) (hComplete : after.complete.Sublist spool.complete)
    (hDurable : ∀ stored ∈ after.durable, stored ∈ after.complete)
    (hDistinct : (after.files.map (·.1)).Nodup)
    (hFiled : ∀ stored ∈ after.complete, stored.segment ∈ after.files.map (·.1)) :
    Stored json next after where
  distinct := hDistinct
  filed := hFiled
  durable := hDurable
  written := fun stored hMem => h.written stored (hComplete.subset hMem)
  named := fun stored hMem => h.named stored (hComplete.subset hMem)
  sizes := by
    intro path
    have hLines := hComplete.filter (·.segment = path)
    rcases h.sizes path with hSize | hOne
    · exact .inl ((hLines.flatMap (lineOf json)).length_le.trans hSize)
    · exact .inr (hLines.length_le.trans hOne)
  sorted := h.sorted.sublist hComplete
  below := fun stored hMem => h.below stored (hComplete.subset hMem)

theorem pathText_filter_ne {other : Nat} (hPath : path ≠ other) (events : List StoredEvent) :
    pathText json path (events.filter (·.segment ≠ other)) = pathText json path events := by
  unfold pathText
  rw [filter_filter]
  congr 1
  refine filter_congr fun stored _ => ?_
  by_cases hStored : stored.segment = path <;> simp [hStored, hPath]

theorem mem_remove {other : Nat} :
    other ∈ (files.remove path).map (·.1) ↔ other ∈ files.map (·.1) ∧ other ≠ path := by
  simp only [Files.remove, mem_map, mem_filter, decide_eq_true_eq]
  constructor
  · rintro ⟨file, ⟨hMem, hNe⟩, rfl⟩
    exact ⟨⟨file, hMem, rfl⟩, hNe⟩
  · rintro ⟨⟨file, hMem, rfl⟩, hNe⟩
    exact ⟨file, ⟨hMem, hNe⟩, rfl⟩

/-- The newest event stays in memory. -/
theorem Outbox.Recalled.filter {cut : Nat} (h : box.Recalled) (hCut : cut + 1 < box.nextSeq)
    (hEvents : events = box.events.filter (decide <| cut < ·.seq)) (segments : List Segment)
    (totalBytes : Int) :
    Outbox.Recalled { box with totalBytes := totalBytes, segments := segments, events := events } := by
  rcases eq_nil_or_concat box.events with hNil | ⟨before, last, hLast⟩
  · have hNext := h.start hNil
    omega
  · rw [concat_eq_append] at hLast
    have hNewest := h.newest last (by rw [hLast, getLast?_concat]; rfl)
    have hFilter : events = before.filter (decide <| cut < ·.seq) ++ [last] := by
      have hAbove : cut < last.seq := by omega
      rw [hEvents, hLast, filter_append]
      simp [hAbove]
    refine ⟨hEvents ▸ h.sorted.sublist filter_sublist, ?_, ?_⟩
    · intro stored hStored
      rw [hFilter, getLast?_concat] at hStored
      cases hStored
      exact hNewest
    · intro hEmpty
      rw [show events = [] from hEmpty] at hFilter
      simp at hFilter

/-- A prune drops one segment from the front. -/
theorem Running.drop {next : Segment} {rest : List Segment} (h : Running json served spool)
    (hSegments : spool.box.segments = seg :: next :: rest)
    (hNewest : seg.last + 1 < spool.box.nextSeq) :
    Running json served
      { box := { spool.box with
          totalBytes := spool.box.totalBytes - seg.size
          segments := next :: rest
          events := spool.box.events.drop
            (GoSort.search spool.box.events.length fun i =>
              spool.box.events[i]?.any (decide <| seg.last < ·.seq)) }
        files := spool.files.remove seg.path
        complete := spool.complete.filter (·.segment ≠ seg.path)
        durable := spool.durable.filter (·.segment ≠ seg.path) } := by
  have hCut : spool.box.events.drop (GoSort.search spool.box.events.length fun i =>
      spool.box.events[i]?.any (decide <| seg.last < ·.seq)) =
        spool.box.events.filter (decide <| seg.last < ·.seq) := by
    refine GoSort.drop_search (h.recalled.sorted.imp fun hLT hLast => ?_)
    exact decide_eq_true ((of_decide_eq_true hLast).trans hLT)
  have hEvents : ∀ stored ∈ spool.box.events.drop (GoSort.search spool.box.events.length fun i =>
      spool.box.events[i]?.any (decide <| seg.last < ·.seq)), stored ∈ spool.box.events :=
    fun stored hMem => mem_of_mem_drop hMem
  refine ⟨h.stored.sub filter_sublist ?_ ?_ ?_, ⟨h.writable.positive, ?_, ?_, ?_, ?_⟩,
    h.recalled.filter hNewest hCut _ _, ⟨h.constant.below, ?_, ?_⟩⟩
  · intro stored hMem
    rw [mem_filter] at hMem ⊢
    exact ⟨h.stored.durable stored hMem.1, hMem.2⟩
  · exact h.stored.distinct.sublist (filter_sublist.map _)
  · intro stored hMem
    rw [mem_filter] at hMem
    exact mem_remove.mpr ⟨h.stored.filed stored hMem.1, of_decide_eq_true hMem.2⟩
  · intro other hMem
    exact h.writable.lasts other (by rw [hSegments]; exact mem_cons_of_mem _ hMem)
  · intro handle hHandle
    obtain ⟨hName, hAhead⟩ := h.writable.ahead handle hHandle
    exact ⟨hName, fun stored hMem => hAhead stored (mem_of_mem_filter hMem)⟩
  · intro handle hHandle last hLast
    obtain ⟨hPath, hSize⟩ := h.writable.size handle hHandle last (by
      rw [hSegments, getLast?_cons_cons]
      exact hLast)
    refine ⟨hPath, fun hFile => ?_⟩
    obtain ⟨hFile, hNe⟩ := mem_remove.mp hFile
    rw [pathText_filter_ne hNe]
    exact hSize hFile
  · intro stored hMem other hOther
    exact h.writable.agree stored (hEvents stored hMem) other (mem_of_mem_filter hOther)
  · intro event hMem stored hStored
    exact h.constant.complete event hMem stored (mem_of_mem_filter hStored)
  · intro event hMem stored hStored
    exact h.constant.memory event hMem stored (hEvents stored hStored)

theorem Running.pruneSegments (cutoff : Time) {segments : List Segment}
    (h : Running json served spool) (hSegments : spool.box.segments = segments)
    (hNewest : spool.box.NewestLast) :
    Running json served (Spool.pruneSegments cutoff segments spool) := by
  induction segments generalizing spool with
  | nil => exact h
  | cons seg rest ih =>
    cases rest with
    | nil => exact h
    | cons next rest =>
      have hDropLast : spool.box.segments.dropLast = seg :: (next :: rest).dropLast := by
        rw [hSegments]
        rfl
      unfold Outbox.NewestLast at hNewest
      rw [hDropLast, forall_mem_cons] at hNewest
      rw [Spool.pruneSegments]
      split
      · exact h
      · exact ih (h.drop hSegments hNewest.1) rfl hNewest.2

theorem Running.pruneLocked (now : Time) (h : Running json served spool)
    (hNewest : spool.box.NewestLast) : Running json served (spool.pruneLocked now) :=
  h.pruneSegments _ rfl hNewest

theorem newestLast_record {size : Nat} (h : Writable json spool)
    (hLast : spool.box.segments.getLast? = some seg) :
    (spool.box.record event size).NewestLast := by
  rw [record_of_getLast? hLast]
  intro other hMem
  rw [dropLast_concat] at hMem
  exact Nat.succ_lt_succ (h.lasts other (mem_of_mem_dropLast hMem))

/-- The loop keeps the invariant; if it ends without an error, the last segment has the newest
event. -/
theorem Running.appendAll {items : List (BatchEvent α × Bytes × EventIO)} {state : Appending}
    (hPayloads : ∀ entry ∈ items, json.marshalPayload entry.1.payload = .ok entry.2.1)
    (h : Running json served state.spool) (hSome : items ≠ []) {last : Appending}
    (hLast : state.appendAll json items = (last, none)) : last.spool.box.NewestLast := by
  induction items generalizing state with
  | nil => exact absurd rfl hSome
  | cons entry rest ih =>
    obtain ⟨item, payload, io⟩ := entry
    rw [forall_mem_cons] at hPayloads
    rw [Appending.appendAll] at hLast
    split at hLast
    · cases hLast
    · rename_i next hAppend
      cases rest with
      | nil =>
        cases hLast
        obtain ⟨middle, seg, size, hActing, hSeg, hBox⟩ := append_ok_records io hAppend
        rw [hBox]
        exact newestLast_record (hActing.running h).writable hSeg
      | cons second rest =>
        have hNext : Running json served next.spool := by
          have hRound := (append_acts io hPayloads.1).running h
          rwa [hAppend] at hRound
        exact ih hPayloads.2 hNext (cons_ne_nil _ _) hLast

theorem Running.appendBatch (h : Running json served spool) (io : BatchIO)
    (batch : List (BatchEvent α × EventIO)) :
    Running json served (spool.appendBatch json io batch).1 := by
  unfold Spool.appendBatch
  split
  · exact h
  · rename_i hSome
    split
    · exact h
    · rename_i items hItems
      have hPayloads := fun entry hMem => (marshalPayloads_mem hItems entry hMem).2
      have hAll := (appendAll_acts { spool := spool } hPayloads).running h
      split
      · rename_i state error hLoop
        rwa [hLoop] at hAll
      · rename_i state hLoop
        rw [hLoop] at hAll
        have hSynced := (syncIfLocked_acts json state.unsynced io.sync state.spool).running hAll
        split
        · rename_i synced error hSync
          rwa [hSync] at hSynced
        · rename_i synced hSync
          have hBox := syncIfLocked_box state.unsynced io.sync state.spool
          rw [hSync] at hSynced hBox
          refine hSynced.pruneLocked io.now ?_
          rw [show synced.box = state.spool.box from hBox]
          refine Running.appendAll hPayloads h ?_ hLoop
          obtain ⟨entry, rest, rfl⟩ := exists_cons_of_ne_nil (by simpa using hSome)
          obtain ⟨payload, encoded, _, _, rfl⟩ := marshalPayloads_cons hItems
          exact cons_ne_nil _ _

end Invariant

variable {modTime : Nat → Time} {spool : Spool} {bootID : String} {loaded : Outbox}

section Restart

variable {α : Type} {json : JSON α}

/-- A line that is cut off by the limit of the reader does not fit the buffer either. -/
theorem scan_cut_off {entry : StoredEvent × Bytes} (hWritten : Written json entry)
    (hLong : maxSegmentBytes < (entry.2 ++ [newline]).length) :
    (scan maxLineBytes [] ((entry.2 ++ [newline]).take (maxSegmentBytes + 1))).2 = true := by
  have hLimit : maxLineBytes ≤ maxSegmentBytes := by decide
  rw [length_append, length_singleton] at hLong
  have hSplit : (entry.2 ++ [newline]).take (maxSegmentBytes + 1) = entry.2.take maxLineBytes ++
      ((entry.2 ++ [newline]).take (maxSegmentBytes + 1)).drop maxLineBytes := by
    have hStart : ((entry.2 ++ [newline]).take (maxSegmentBytes + 1)).take maxLineBytes =
        entry.2.take maxLineBytes := by
      rw [take_take, Nat.min_eq_left (by omega), take_append_of_le_length (by omega)]
    rw [← hStart, take_append_drop]
  rw [hSplit, scan_line [] fun hMem => hWritten.no_control (by decide) (mem_of_mem_take hMem)]
  refine scan_outgrown _ _ (by decide) ?_
  rw [nil_append, length_take]
  omega

theorem fits_of_loaded {block : List (StoredEvent × Bytes)}
    (hWritten : ∀ entry ∈ block, Written json entry)
    (hSize : (fileText block).length ≤ maxSegmentBytes ∨ block.length ≤ 1)
    (h : (scan maxLineBytes [] ((fileText block).take (maxSegmentBytes + 1))).2 = false) :
    (fileText block).length ≤ maxSegmentBytes ∧ ∀ entry ∈ block, entry.2.length < maxLineBytes := by
  have hShort : (fileText block).length ≤ maxSegmentBytes := by
    by_contra hLong
    cases block with
    | nil => exact hLong (Nat.zero_le _)
    | cons entry rest =>
      have hNil : rest = [] := by
        have hOne := hSize.resolve_left hLong
        rw [length_cons] at hOne
        exact length_eq_zero_iff.mp (by omega)
      subst hNil
      have hText : fileText [entry] = entry.2 ++ [newline] := by simp [fileText]
      rw [hText] at h hLong
      rw [scan_cut_off (hWritten entry mem_cons_self) (Nat.not_le.mp hLong)] at h
      cases h
  refine ⟨hShort, fun entry hMem => ?_⟩
  rw [take_of_length_le (by omega), fileText_eq] at h
  refine fits_of_scan (by decide) ?_ h _ (mem_map_of_mem hMem)
  intro line hLine
  obtain ⟨other, hOther, rfl⟩ := mem_map.mp hLine
  exact (hWritten other hOther).no_control (by decide)

/-- Reading a segment file back either fails or adds its events, and a segment that ends with the
last of them. -/
theorem loadSegment_ok {block : List (StoredEvent × Bytes)} {after : Outbox}
    (hWritten : ∀ entry ∈ block, Written json entry)
    (hInside : ∀ entry ∈ block, entry.1.segment = path) (hSeq : ∀ entry ∈ block, 0 < entry.1.seq)
    (hSize : (fileText block).length ≤ maxSegmentBytes ∨ block.length ≤ 1)
    (h : loadSegment json modTime path (fileText block) box = .ok after) :
    after.events = box.events ++ block.map (·.1) ∧ after.streamID = box.streamID ∧
      after.current = box.current ∧
      ∃ added, after.segments = box.segments ++ added ∧
        (added.map (·.last)).Sublist (block.map (·.1.seq)) := by
  cases hTooLong : (scan maxLineBytes [] ((fileText block).take (maxSegmentBytes + 1))).2 with
  | true =>
    unfold loadSegment at h
    rw [show scan maxLineBytes [] ((fileText block).take (maxSegmentBytes + 1)) =
      ((scan maxLineBytes [] ((fileText block).take (maxSegmentBytes + 1))).1, true) by
        rw [← hTooLong]] at h
    dsimp only at h
    split at h
    · cases h
    · cases h
  | false =>
    obtain ⟨hShort, hFits⟩ := fits_of_loaded hWritten hSize hTooLong
    unfold loadSegment at h
    rw [take_of_length_le (by omega), scan_written hWritten hFits] at h
    dsimp only at h
    rw [loadLines_written hWritten hInside hSeq] at h
    split at h
    · cases h
    · rename_i events hEvents
      split at hEvents
      · cases hEvents
        rw [if_neg Bool.false_ne_true] at h
        split at h
        · rename_i first last _ hLast
          cases h
          refine ⟨rfl, rfl, rfl, _, rfl, ?_⟩
          rw [map_singleton, singleton_sublist]
          obtain ⟨entry, hEntry, rfl⟩ := mem_map.mp (mem_of_mem_getLast? hLast)
          exact mem_map_of_mem hEntry
        · rename_i hNone
          cases h
          cases block with
          | nil => exact ⟨by simp, rfl, rfl, [], by simp, by simp⟩
          | cons entry rest =>
            exact absurd (getLast?_eq_some_getLast (cons_ne_nil _ _)) (hNone _ _ rfl)
      · cases hEvents

/-- Events with the texts that were written for them. -/
def withText (json : JSON α) (stored : StoredEvent) : StoredEvent × Bytes :=
  (stored, (lineOf json stored).dropLast)

theorem written_withText (h : ∃ text, Written json (stored, text)) :
    Written json (withText json stored) := by
  obtain ⟨text, hText⟩ := h
  rw [withText, lineOf_written hText, dropLast_concat]
  exact hText

theorem pathText_eq_fileText (path : Nat)
    (hWritten : ∀ stored ∈ events, ∃ text, Written json (stored, text)) :
    pathText json path events =
      fileText ((events.filter (·.segment = path)).map (withText json)) := by
  rw [fileText, flatMap_map, pathText]
  refine flatMap_congr fun stored hMem => ?_
  obtain ⟨text, hText⟩ := hWritten stored (mem_of_mem_filter hMem)
  rw [withText, lineOf_written hText, dropLast_concat]

/-- The files of a directory, in the order of their names, are read one after the other. -/
theorem loadSegments_ok {paths : List Nat} {after : Outbox}
    (hWritten : ∀ stored ∈ events, ∃ text, Written json (stored, text))
    (hSeq : ∀ stored ∈ events, 0 < stored.seq)
    (hSizes : ∀ path, (pathText json path events).length ≤ maxSegmentBytes ∨
      (events.filter (·.segment = path)).length ≤ 1)
    (h : loadSegments json modTime (paths.map fun path => (path, pathText json path events)) box =
      .ok after) :
    after.events = box.events ++ paths.flatMap (fun path => events.filter (·.segment = path)) ∧
      after.streamID = box.streamID ∧ after.current = box.current ∧
      ∃ added, after.segments = box.segments ++ added ∧
        (added.map (·.last)).Sublist
          ((paths.flatMap fun path => events.filter (·.segment = path)).map (·.seq)) := by
  induction paths generalizing box with
  | nil =>
    cases h
    exact ⟨by simp, rfl, rfl, [], by simp, by simp⟩
  | cons path paths ih =>
    rw [map_cons, loadSegments] at h
    split at h
    · cases h
    · rename_i middle hMiddle
      obtain ⟨hEvents, hStream, hCurrent, added, hAdded, hSub⟩ := ih h
      set block := (events.filter (·.segment = path)).map (withText json) with hBlock
      have hMem : ∀ entry ∈ block, ∃ stored ∈ events, stored.segment = path ∧
          withText json stored = entry := by
        intro entry hEntry
        obtain ⟨stored, hStored, rfl⟩ := mem_map.mp hEntry
        exact ⟨stored, mem_of_mem_filter hStored,
          of_decide_eq_true (mem_filter.mp hStored).2, rfl⟩
      have hBack : block.map (·.1) = events.filter (·.segment = path) := by
        simp [hBlock, withText, map_map, comp_def]
      rw [pathText_eq_fileText path hWritten, ← hBlock] at hMiddle
      obtain ⟨hFirst, hFirstStream, hFirstCurrent, one, hOne, hOneSub⟩ := loadSegment_ok
        (fun entry hEntry => by
          obtain ⟨stored, hStored, _, rfl⟩ := hMem entry hEntry
          exact written_withText (hWritten stored hStored))
        (fun entry hEntry => by
          obtain ⟨stored, _, hPath, rfl⟩ := hMem entry hEntry
          exact hPath)
        (fun entry hEntry => by
          obtain ⟨stored, hStored, _, rfl⟩ := hMem entry hEntry
          exact hSeq stored hStored)
        (by
          rw [hBlock, ← pathText_eq_fileText path hWritten, length_map]
          exact hSizes path)
        hMiddle
      rw [hBack] at hFirst
      refine ⟨?_, hStream.trans hFirstStream, hCurrent.trans hFirstCurrent, one ++ added, ?_, ?_⟩
      · rw [hEvents, hFirst, flatMap_cons, append_assoc]
      · rw [hAdded, hOne, append_assoc]
      · rw [map_append, flatMap_cons, map_append, ← hBack, map_map]
        exact hOneSub.append hSub

/-- The files of a directory in the order of their names. -/
theorem files_by_path (text : Nat → Bytes) (hDistinct : (files.map (·.1)).Nodup)
    (hTexts : ∀ file ∈ files, file.2 = text file.1) :
    ∃ paths : List Nat,
      files.mergeSort (fun a b => decide (a.1 ≤ b.1)) = paths.map (fun path => (path, text path)) ∧
        paths.Pairwise (· < ·) ∧ ∀ path ∈ files.map (·.1), path ∈ paths := by
  have hPerm := mergeSort_perm files (fun a b => decide (a.1 ≤ b.1))
  have hSorted : (files.mergeSort (fun a b => decide (a.1 ≤ b.1))).Pairwise
      (fun a b => decide (a.1 ≤ b.1) = true) :=
    pairwise_mergeSort
      (fun a b c hab hbc => decide_eq_true ((of_decide_eq_true hab).trans (of_decide_eq_true hbc)))
      (fun a b => by simpa using Nat.le_total a.1 b.1) files
  set sorted := files.mergeSort (fun a b => decide (a.1 ≤ b.1))
  have hNodup : (sorted.map (·.1)).Nodup := (hPerm.map _).nodup_iff.mpr hDistinct
  refine ⟨sorted.map (·.1), ?_, ?_, fun path hMem => (hPerm.map _).mem_iff.mpr hMem⟩
  · rw [map_map]
    refine (List.map_id sorted).symm.trans (map_congr_left fun file hMem => ?_)
    exact Prod.ext rfl (hTexts file (hPerm.mem_iff.mp hMem))
  · rw [pairwise_map]
    refine (hSorted.and (pairwise_map.mp hNodup)).imp fun hBoth => ?_
    exact lt_of_le_of_ne (of_decide_eq_true hBoth.1) hBoth.2

variable {nodeID streamID : String}

/-- What `load` reads from a directory of complete lines, if it succeeds. -/
theorem load_ok (hStored : Stored json next spool)
    (hFiles : ∀ file ∈ spool.files, file.2 = pathText json file.1 spool.complete)
    (h : load json nodeID bootID "" (some streamID) modTime spool.files = .ok loaded) :
    loaded.events = spool.complete ∧ loaded.streamID = streamID ∧ loaded.current = none ∧
      loaded.nextSeq = (spool.complete.getLast?.map (·.seq + 1)).getD 1 ∧
      (loaded.segments.map (·.last)).Sublist (spool.complete.map (·.seq)) := by
  obtain ⟨paths, hSort, hPaths, hAll⟩ := files_by_path (fun path => pathText json path spool.complete) hStored.distinct hFiles
  have hGroups : paths.flatMap (fun path => spool.complete.filter (·.segment = path)) =
      spool.complete :=
    GoSort.flatMap_groups (fun stored : StoredEvent => stored.segment) hPaths
      (fun stored hMem => hAll _ (hStored.filed stored hMem)) (hStored.sorted.imp fun hBoth => hBoth.2)
  unfold load at h
  rw [hSort] at h
  dsimp only at h
  split at h
  · cases h
  · split at h
    · cases h
    · rename_i box hBox
      cases h
      obtain ⟨hEvents, hStream, hCurrent, added, hAdded, hSub⟩ := loadSegments_ok hStored.written
        (fun stored hMem => (hStored.named stored hMem).1) hStored.sizes hBox
      rw [hGroups] at hEvents hSub
      refine ⟨hEvents, hStream, hCurrent, ?_, ?_⟩
      · rw [hEvents]
        rfl
      · rw [hAdded]
        exact hSub

theorem eq_of_seq (hSorted : events.Pairwise fun earlier later => earlier.seq < later.seq)
    {first second : StoredEvent} (hFirst : first ∈ events) (hSecond : second ∈ events)
    (hSeq : first.seq = second.seq) : first = second := by
  have hNodup : (events.map (·.seq)).Nodup :=
    (pairwise_map.mpr hSorted).imp fun hLT => Nat.ne_of_lt hLT
  exact inj_on_of_nodup_map hNodup hFirst hSecond hSeq

theorem recalled_of_load (hStored : Stored json next spool)
    (hFiles : ∀ file ∈ spool.files, file.2 = pathText json file.1 spool.complete)
    (hLoad : load json nodeID bootID "" (some streamID) modTime spool.files = .ok loaded) :
    loaded.Recalled ∧ 0 < loaded.nextSeq := by
  obtain ⟨hEvents, _, _, hNext, _⟩ := load_ok hStored hFiles hLoad
  refine ⟨⟨?_, fun stored hMem => ?_, fun hNil => ?_⟩, ?_⟩
  · rw [hEvents]
    exact hStored.sorted.imp fun hBoth => hBoth.1
  · rw [hEvents] at hMem
    rw [hNext, hMem]
    rfl
  · rw [hNext, ← hEvents, hNil]
    rfl
  · rw [hNext]
    cases spool.complete.getLast? <;> simp

/-- An outbox that was read back keeps what was served, unless its numbers fall behind. -/
theorem running_of_load {served : List Event} (hStored : Stored json next spool)
    (hFiles : ∀ file ∈ spool.files, file.2 = pathText json file.1 spool.complete)
    (hLoad : load json nodeID bootID "" (some streamID) modTime spool.files = .ok loaded)
    (hComplete : ∀ event ∈ served, ∀ stored ∈ spool.complete,
      stored.seq = event.seq → stored.toEvent = event)
    (hBelow : ∀ event ∈ served, event.seq < loaded.nextSeq) :
    Running json served { spool with box := loaded } ∧ loaded.NewestLast := by
  obtain ⟨hEvents, _, hCurrent, _, hLasts⟩ := load_ok hStored hFiles hLoad
  have hSorted : spool.complete.Pairwise fun earlier later => earlier.seq < later.seq :=
    hStored.sorted.imp fun hBoth => hBoth.1
  obtain ⟨hRecalled, hPositive⟩ := recalled_of_load hStored hFiles hLoad
  have hAllBelow : ∀ stored ∈ spool.complete, stored.seq < loaded.nextSeq := fun stored hMem =>
    hRecalled.below (hEvents ▸ hMem)
  have hSegments : ∀ seg ∈ loaded.segments, seg.last < loaded.nextSeq := by
    intro seg hMem
    obtain ⟨stored, hStoredMem, hSame⟩ := mem_map.mp (hLasts.subset (mem_map_of_mem hMem))
    rw [← hSame]
    exact hAllBelow stored hStoredMem
  refine ⟨⟨?_, ⟨hPositive, hSegments, ?_, ?_, ?_⟩, hRecalled, ⟨hBelow, hComplete, ?_⟩⟩, ?_⟩
  · exact { hStored with below := hAllBelow }
  · simp [hCurrent]
  · simp [hCurrent]
  · intro stored hMem other hOther hSeq
    rw [hEvents] at hMem
    rw [eq_of_seq hSorted hOther hMem hSeq]
  · intro event hMem stored hStoredMem hSeq
    rw [hEvents] at hStoredMem
    exact hComplete event hMem stored hStoredMem hSeq
  · intro seg hMem
    obtain ⟨before, last, hLast⟩ := (eq_nil_or_concat loaded.segments).resolve_left (by
      rintro hNil
      simp [hNil] at hMem)
    rw [concat_eq_append] at hLast
    have hPairs : (loaded.segments.map (·.last)).Pairwise (· < ·) :=
      (pairwise_map.mpr hSorted).sublist hLasts
    rw [hLast, map_append, pairwise_append] at hPairs
    rw [hLast, dropLast_concat] at hMem
    have hLT := hPairs.2.2 _ (mem_map_of_mem hMem) last.last (by simp)
    have hEnd := hSegments last (by simp [hLast])
    omega

theorem Acting.durable (h : Acting json spool after) :
    ∀ stored ∈ spool.durable, stored ∈ after.durable := by
  induction h with
  | refl => exact fun _ hMem => hMem
  | tail _ hLast ih =>
    intro stored hMem
    cases hLast with
    | sync => exact mem_append_left _ (ih stored hMem)
    | _ => exact ih stored hMem

theorem interrupted_acts (json : JSON α) (batch : List (BatchEvent α × EventIO)) (spool : Spool) :
    Acting json spool (spool.interrupted json batch) := by
  unfold Spool.interrupted
  split
  · exact .refl
  · rename_i items hItems
    exact appendAll_acts { spool := spool } fun entry hMem => (marshalPayloads_mem hItems entry hMem).2

theorem kept_sublist (count : Nat) (spool : Spool) : (spool.kept count).Sublist spool.complete :=
  filter_sublist

theorem durable_kept (h : Stored json next spool) (count : Nat) :
    ∀ stored ∈ spool.durable, stored ∈ spool.kept count := by
  intro stored hMem
  exact mem_filter.mpr ⟨h.durable stored hMem, by simp [hMem]⟩

theorem crash_paths (json : JSON α) (count : Nat) (spool : Spool) :
    (spool.crash json count).files.map (·.1) = spool.files.map (·.1) := by
  simp [Spool.crash, map_map, comp_def]

theorem Stored.crash (h : Stored json next spool) (count : Nat) :
    Stored json next (spool.crash json count) := by
  refine h.sub (kept_sublist count spool) (durable_kept h count) ?_ ?_
  · rw [crash_paths]
    exact h.distinct
  · intro stored hMem
    rw [crash_paths]
    exact h.filed stored ((kept_sublist count spool).subset hMem)

theorem crash_files (json : JSON α) (count : Nat) (spool : Spool) :
    ∀ file ∈ (spool.crash json count).files,
      file.2 = pathText json file.1 (spool.crash json count).complete := by
  intro file hMem
  obtain ⟨before, _, rfl⟩ := mem_map.mp hMem
  rfl

end Restart

section Recorder

variable {α : Type} {json : JSON α} {format : CursorFormat}

/-- What holds of a node's outbox and of what it has served, between crashes and after one that it
could not be opened after. -/
structure Recorder.Sound (json : JSON α) (recorder : Recorder) : Prop where
  unique : ∀ first ∈ recorder.served, ∀ second ∈ recorder.served,
    first.2.seq = second.2.seq → first.2 = second.2
  recalled : recorder.spool.box.Recalled
  constant : Constant (recorder.served.map (·.2)) recorder.spool
  stored : ∃ next, Stored json next recorder.spool
  running : recorder.up = true → Running json (recorder.served.map (·.2)) recorder.spool

variable {recorder : Recorder}

theorem Recorder.Sound.append (h : recorder.Sound json) (batch : List (BatchEvent α × EventIO))
    (io : BatchIO) : (recorder.step json format (.append batch io)).Sound json := by
  unfold Recorder.step
  dsimp only
  split
  · rename_i hUp
    have hRunning := (h.running hUp).appendBatch io batch
    exact ⟨h.unique, hRunning.recalled, hRunning.constant, ⟨_, hRunning.stored⟩, fun _ => hRunning⟩
  · exact h

theorem page_mem {encoded : String} {limit : Int} {page : Page}
    (h : box.page format encoded limit = .ok page) (hMem : event ∈ page.events) :
    ∃ stored ∈ box.events, stored.toEvent = event := by
  unfold Outbox.page at h
  split at h
  · cases h
  · cases h
    dsimp only at hMem
    obtain ⟨count, hTake⟩ := fill_eq_take (Outbox.pageLimit limit) 512 (box.events.drop _)
    rw [hTake] at hMem
    obtain ⟨stored, hStored, rfl⟩ := mem_map.mp hMem
    exact ⟨stored, mem_of_mem_drop (mem_of_mem_take hStored), rfl⟩

/-- What is served from memory agrees with what was served before. -/
theorem Constant.serve {served more : List Event} (h : Constant served spool)
    (hRecalled : spool.box.Recalled) (hWritable : Writable json spool)
    (hMore : ∀ event ∈ more, ∃ stored ∈ spool.box.events, stored.toEvent = event) :
    Constant (served ++ more) spool where
  below := by
    refine forall_mem_append.mpr ⟨h.below, fun event hMem => ?_⟩
    obtain ⟨stored, hStored, rfl⟩ := hMore event hMem
    exact hRecalled.below hStored
  complete := by
    refine forall_mem_append.mpr ⟨h.complete, fun event hMem other hOther hSeq => ?_⟩
    obtain ⟨stored, hStored, rfl⟩ := hMore event hMem
    exact hWritable.agree stored hStored other hOther hSeq
  memory := by
    refine forall_mem_append.mpr ⟨h.memory, fun event hMem other hOther hSeq => ?_⟩
    obtain ⟨stored, hStored, rfl⟩ := hMore event hMem
    rw [eq_of_seq hRecalled.sorted hOther hStored hSeq]

/-- A page serves only what the outbox recalls. -/
theorem Recorder.Sound.page (h : recorder.Sound json) (encoded : String) (limit : Int) :
    (recorder.step json format (.page encoded limit)).Sound json := by
  unfold Recorder.step
  dsimp only
  split
  · rename_i page hUp hPage
    have hRunning := h.running hUp
    have hMore : ∀ event ∈ page.events, ∃ stored ∈ recorder.spool.box.events, stored.toEvent = event :=
      fun event hMem => page_mem hPage hMem
    have hServed : (recorder.served ++ page.events.map fun event =>
        (recorder.spool.box.streamID, event)).map (·.2) = recorder.served.map (·.2) ++ page.events := by
      simp [map_map, comp_def]
    have hConstant := h.constant.serve h.recalled hRunning.writable hMore
    rw [← hServed] at hConstant
    refine ⟨?_, h.recalled, hConstant, h.stored,
      fun _ => { hRunning with constant := hConstant }⟩
    have hNew : ∀ event ∈ page.events, ∀ first ∈ recorder.served, first.2.seq = event.seq →
        first.2 = event := by
      intro event hMem first hFirst hSeq
      obtain ⟨stored, hStored, rfl⟩ := hMore event hMem
      exact (h.constant.memory first.2 (mem_map_of_mem hFirst) stored hStored hSeq.symm).symm
    intro first hFirst second hSecond hSeq
    simp only [mem_append, mem_map] at hFirst hSecond
    rcases hFirst with hFirst | ⟨event, hEvent, rfl⟩
    · rcases hSecond with hSecond | ⟨other, hOther, rfl⟩
      · exact h.unique first hFirst second hSecond hSeq
      · exact hNew other hOther first hFirst hSeq
    · rcases hSecond with hSecond | ⟨other, hOther, rfl⟩
      · exact (hNew event hEvent second hSecond hSeq.symm).symm
      · obtain ⟨stored, hStored, rfl⟩ := hMore event hEvent
        obtain ⟨another, hAnother, rfl⟩ := hMore other hOther
        rw [eq_of_seq h.recalled.sorted hStored hAnother hSeq]
  · exact h

/-- The numbers of an outbox that was read back do not fall behind, if all of its events survive. -/
theorem nextSeq_le_of_load (h : box.Recalled) (hLoaded : loaded.Recalled)
    (hPositive : 0 < loaded.nextSeq) (hSurvive : ∀ stored ∈ box.events, stored ∈ loaded.events) :
    box.nextSeq ≤ loaded.nextSeq := by
  rcases eq_nil_or_concat box.events with hNil | ⟨before, last, hLast⟩
  · rw [h.start hNil]
    exact hPositive
  · rw [concat_eq_append] at hLast
    have hNewest := h.newest last (by rw [hLast, getLast?_concat]; rfl)
    have hBelow := hLoaded.below (hSurvive last (by simp [hLast]))
    omega

/-- What a crash finds, whether or not a batch is being appended. -/
theorem Recorder.Sound.interrupted (h : recorder.Sound json) (batch : List (BatchEvent α × EventIO)) :
    let spool := if recorder.up then recorder.spool.interrupted json batch else recorder.spool
    (∃ next, Stored json next spool) ∧
      (∀ event ∈ recorder.served.map (·.2), ∀ stored ∈ spool.complete,
        stored.seq = event.seq → stored.toEvent = event) ∧
      ∀ stored ∈ recorder.spool.durable, stored ∈ spool.durable := by
  dsimp only
  split
  · rename_i hUp
    have hActing := interrupted_acts json batch recorder.spool
    have hRunning := hActing.running (h.running hUp)
    exact ⟨⟨_, hRunning.stored⟩, hRunning.constant.complete, hActing.durable⟩
  · exact ⟨h.stored, h.constant.complete, fun _ hMem => hMem⟩

/-- After a crash that loses no event, the numbers go on from there. -/
theorem Recorder.Sound.crash (h : recorder.Sound json) {batch : List (BatchEvent α × EventIO)}
    {count : Nat} {now : Time}
    (hSafe : ∀ stored ∈ recorder.spool.box.events, stored ∈ recorder.spool.durable) :
    (recorder.step json format (.crash batch count bootID modTime now)).Sound json := by
  obtain ⟨⟨next, hStored⟩, hComplete, hDurable⟩ := h.interrupted batch
  unfold Recorder.step
  dsimp only at hStored hComplete hDurable ⊢
  set middle := if recorder.up then recorder.spool.interrupted json batch else recorder.spool
  have hCrashed := hStored.crash count
  have hKept : ∀ event ∈ recorder.served.map (·.2), ∀ stored ∈ (middle.crash json count).complete,
      stored.seq = event.seq → stored.toEvent = event := fun event hMem stored hStoredMem =>
    hComplete event hMem stored ((kept_sublist count middle).subset hStoredMem)
  split
  · rename_i loaded hLoad
    have hFiles := crash_files json count middle
    obtain ⟨hLoaded, hPositive⟩ := recalled_of_load hCrashed hFiles hLoad
    have hEvents := (load_ok hCrashed hFiles hLoad).1
    have hNext := nextSeq_le_of_load h.recalled hLoaded hPositive fun stored hMem => by
      rw [hEvents]
      exact durable_kept hStored count stored (hDurable stored (hSafe stored hMem))
    obtain ⟨hRunning, hNewest⟩ := running_of_load hCrashed hFiles hLoad hKept fun event hMem =>
      (h.constant.below event hMem).trans_le hNext
    have hPruned := hRunning.pruneLocked now hNewest
    exact ⟨h.unique, hPruned.recalled, hPruned.constant, ⟨_, hPruned.stored⟩, fun _ => hPruned⟩
  · refine ⟨h.unique, { h.recalled with }, { h.constant with complete := hKept },
      ⟨next, { hCrashed with }⟩, fun hUp => ?_⟩
    cases hUp

theorem sound_new (json : JSON α) (nodeID streamID bootID : String) :
    Recorder.Sound json
      { spool := { box := { nodeID := nodeID, streamID := streamID, bootID := bootID } } } := by
  have hStored : Stored json 1
      { box := { nodeID := nodeID, streamID := streamID, bootID := bootID } } :=
    ⟨.nil, by simp, by simp, by simp, by simp, fun _ => .inr (by simp), .nil, by simp⟩
  have hRecalled : Outbox.Recalled { nodeID := nodeID, streamID := streamID, bootID := bootID } :=
    ⟨.nil, by simp, fun _ => rfl⟩
  have hConstant : Constant []
      { box := { nodeID := nodeID, streamID := streamID, bootID := bootID } } :=
    ⟨by simp, by simp, by simp⟩
  exact ⟨by simp, hRecalled, hConstant, ⟨1, hStored⟩, fun _ =>
    ⟨hStored, ⟨Nat.one_pos, by simp, by simp, by simp, by simp⟩, hRecalled, hConstant⟩⟩

/-- No two events are served under one number, as long as no crash strikes an event in memory whose
line is not synced in the directory. -/
theorem served_once_per_number {nodeID bootID streamHex : String} {modTime : Nat → Time} {now : Time}
    {start : Spool} {events : List (RecorderEvent α)}
    (hOpen : «open» json nodeID bootID streamHex none modTime now [] = .ok start)
    (hRun : Along (Recorder.step json format) Recorder.Safe { spool := start } events) :
    ∀ first ∈ (run (Recorder.step json format) { spool := start } events).served,
      ∀ second ∈ (run (Recorder.step json format) { spool := start } events).served,
        first.1 = second.1 → first.2.seq = second.2.seq → first.2 = second.2 := by
  obtain ⟨rfl, _⟩ := open_nil hOpen
  have hSound := hRun.invariant (Recorder.Sound json) (fun recorder event hSafe h => by
    cases event with
    | append batch io => exact h.append batch io
    | page encoded limit => exact h.page encoded limit
    | crash batch count bootID modTime now => exact h.crash hSafe) (sound_new json ..)
  exact fun first hFirst second hSecond _ => hSound.unique first hFirst second hSecond

end Recorder

/-- A crash with one segment file in the directory. -/
theorem run_crash_singleton {α : Type} {json : JSON α} {format : CursorFormat} {start : Recorder}
    (first rest : List (RecorderEvent α)) {batch : List (BatchEvent α × EventIO)} {count : Nat}
    {bootID : String} {modTime : Nat → Time} {now : Time} (path : Nat) (text : Bytes) (loaded : Outbox) :
    let recorder := run (Recorder.step json format) start first
    let crashed := (recorder.spool.interrupted json batch).crash json count
    recorder.up = true ∧ GoStrings.trimSpace recorder.spool.box.streamID ≠ "" ∧
        crashed.files = [(path, text)] ∧
        loadSegment json modTime path text
          { nodeID := recorder.spool.box.nodeID, streamID := recorder.spool.box.streamID
            bootID := bootID } = .ok loaded →
      run (Recorder.step json format) start
          (first ++ .crash batch count bootID modTime now :: rest) =
        run (Recorder.step json format)
          { recorder with
            spool := Spool.pruneLocked now { crashed with
              box := { loaded with nextSeq := (loaded.events.getLast?.map (·.seq + 1)).getD 1 } } }
          rest := by
  rintro recorder crashed ⟨hUp, hName, hFiles, hLoad⟩
  rw [Interleaving.run_append, Interleaving.run_cons]
  show run _ (Recorder.step json format recorder _) rest = _
  congr 1
  unfold Recorder.step
  simp only [hUp, if_true]
  simp only [show (recorder.spool.interrupted json batch).crash json count = crashed from rfl, hFiles,
    load, Option.getD_some, hName, if_false, mergeSort_singleton, loadSegments, hLoad]

/-- An event is served before and after a crash, and the next one after it. -/
theorem served_once_per_number_start :
    let events : List (RecorderEvent Bytes) :=
      [.append (startBatch.take 1) {}, .page "" 10] ++ .crash [] 0 "boot" (fun _ => 0) 6 ::
        [.append (startBatch.drop 1) {}, .page "" 10]
    let served := (run (Recorder.step JSON.plain .plain) { spool := startSpool } events).served
    served.map (·.2) = startEvents.take 1 ++ startEvents ∧
      ∀ first ∈ served, ∀ second ∈ served,
        first.1 = second.1 → first.2.seq = second.2.seq → first.2 = second.2 := by
  intro events served
  have hRun : Along (Recorder.step JSON.plain .plain) Recorder.Safe
      { spool := startSpool } events := by
    decide +kernel
  refine ⟨?_, served_once_per_number open_start hRun⟩
  have hServed := @run_crash_singleton _ JSON.plain .plain { spool := startSpool }
    [.append (startBatch.take 1) {}, .page "" 10] [.append (startBatch.drop 1) {}, .page "" 10]
    [] 0 "boot" (fun _ => 0) 6 1 (startLine ++ [newline])
    { nodeID := "node", streamID := startSpool.box.streamID, bootID := "boot"
      events := [{ startEvents.head (by decide) with segment := 1 }]
      segments := [{ path := 1, first := 1, last := 1, size := startLine.length + 1, lastAt := 5 }]
      totalBytes := startLine.length + 1 }
    (by decide +kernel)
  rw [show served = _ from congrArg Recorder.served hServed]
  decide +kernel

/-- An event that could not be synced is served, and after a crash another one under its number. -/
theorem number_served_twice :
    ¬ ∀ events : List (RecorderEvent Bytes),
      let served := (run (Recorder.step JSON.plain .plain) { spool := startSpool } events).served
      ∀ first ∈ served, ∀ second ∈ served,
        first.1 = second.1 → first.2.seq = second.2.seq → first.2 = second.2 := by
  intro hAll
  have hServed := hAll
    ([.append (startBatch.take 1) { sync := some "input/output error" }, .page "" 10] ++
      .crash [] 0 "boot" (fun _ => 0) 6 :: [.append (startBatch.drop 1) {}, .page "" 10])
  rw [run_crash_singleton _ _ 1 []
    { nodeID := "node", streamID := startSpool.box.streamID, bootID := "boot" }
    (by decide +kernel)] at hServed
  revert hServed
  decide +kernel

end GPUardian.Telemetry
