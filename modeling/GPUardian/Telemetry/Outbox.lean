import GPUardian.Model.State
import GPUardian.Library.Lines
import GPUardian.Library.Search
import GPUardian.Library.Strings
import Mathlib.Data.Nat.Digits.Defs

/-! The telemetry outbox: a log of events in segment files, read page by page. An append may fail at
every step of its input and output, and leaves what it has done until then. -/
namespace GPUardian.Telemetry

open GoLines GoStrings List

def schemaVersion : Nat := 1

def defaultPageLimit : Nat := 128

def maxPageLimit : Nat := 256

def maxPageBytes : Nat := 2 ^ 20

def maxSegmentBytes : Nat := 8 * 2 ^ 20

def maxSegmentAge : Duration := 60 * 60 * second

def maxOutboxBytes : Nat := 256 * 2 ^ 20

def maxRetention : Duration := 24 * 60 * 60 * second

/-- The buffer of the scanner that reads a segment back. -/
def maxLineBytes : Nat := 512 * 2 ^ 10

structure Event where
  seq : Nat
  occurredAt : Time
  bootID : String
  type : String
  payload : Bytes
deriving DecidableEq, Repr

/-- An event in memory, with the segment it was written to. A segment file is known by the number
in its name: names have twenty digits and so sort like the numbers. -/
structure StoredEvent extends Event where
  segment : Nat
deriving DecidableEq, Repr

structure Segment where
  path : Nat
  first : Nat := 0
  last : Nat := 0
  size : Int := 0
  created : Time := 0
  lastAt : Time := 0
deriving DecidableEq, Repr

/-- What retention goes by. -/
def Segment.lastTime (seg : Segment) : Time := if seg.lastAt = 0 then seg.created else seg.lastAt

/-- A handle on a segment file. It stays in `current` after it was closed. -/
structure Handle where
  path : Nat
  isOpen : Bool := true
deriving DecidableEq, Repr

structure Outbox where
  nodeID : String
  streamID : String
  bootID : String
  nextSeq : Nat := 1
  events : List StoredEvent := []
  segments : List Segment := []
  totalBytes : Int := 0
  current : Option Handle := none
deriving DecidableEq, Repr

structure BatchEvent (α : Type) where
  type : String
  payload : α
  occurredAt : Time := 0

/-- The JSON encoding of payloads and events. An event whose payload was encoded is read back as it
was, and its text has no control characters. -/
structure JSON (α : Type) where
  marshalPayload : α → Except String Bytes
  marshal : Event → Except String Bytes
  unmarshal : Bytes → Option Event
  unmarshal_marshal : ∀ value event line, marshalPayload value = .ok event.payload →
    marshal event = .ok line → unmarshal line = some event
  printable : ∀ event line, marshal event = .ok line → ∀ byte ∈ line, 32 ≤ byte

/-- Numbers in decimal digits, the lowest one first, each with a comma after it. -/
def numbersText (numbers : List Nat) : Bytes :=
  numbers.flatMap fun number =>
    (Nat.digits 10 number).map (fun digit => UInt8.ofNat (48 + digit)) ++ [44]

def readNumbers : List Nat → Bytes → List Nat
  | _, [] => []
  | digits, byte :: rest =>
    if byte = 44 then Nat.ofDigits 10 digits :: readNumbers [] rest
    else readNumbers (digits ++ [byte.toNat - 48]) rest

theorem digit_byte : ∀ digit < 10,
    UInt8.ofNat (48 + digit) ≠ 44 ∧ (UInt8.ofNat (48 + digit)).toNat - 48 = digit := by decide

theorem readNumbers_digits (start digits : List Nat) (rest : Bytes) (h : ∀ digit ∈ digits, digit < 10) :
    readNumbers start (digits.map (fun digit => UInt8.ofNat (48 + digit)) ++ rest) =
      readNumbers (start ++ digits) rest := by
  induction digits generalizing start with
  | nil => simp
  | cons digit digits ih =>
    rw [forall_mem_cons] at h
    obtain ⟨hComma, hDigit⟩ := digit_byte digit h.1
    rw [map_cons, cons_append, readNumbers, if_neg hComma, hDigit, ih _ h.2,
      append_assoc, singleton_append]

theorem readNumbers_numbersText (numbers : List Nat) :
    readNumbers [] (numbersText numbers) = numbers := by
  induction numbers with
  | nil => rfl
  | cons number numbers ih =>
    rw [numbersText, flatMap_cons, append_assoc,
      readNumbers_digits [] _ _ fun digit hDigit => Nat.digits_lt_base (by decide) hDigit,
      singleton_append, readNumbers, if_pos rfl, nil_append, Nat.ofDigits_digits]
    exact congrArg _ ih

/-- The numbers of an event; texts come with their length. -/
def eventNumbers (event : Event) : List Nat :=
  [event.seq, event.occurredAt.toNat, (-event.occurredAt).toNat, event.bootID.toList.length,
    event.type.toList.length] ++ event.bootID.toList.map (·.toNat) ++ event.type.toList.map (·.toNat) ++
    event.payload.map (·.toNat)

def numbersEvent : List Nat → Option Event
  | seq :: after :: before :: boot :: type :: rest =>
    some
      { seq := seq, occurredAt := (after : Int) - before
        bootID := String.ofList ((rest.take boot).map Char.ofNat)
        type := String.ofList (((rest.drop boot).take type).map Char.ofNat)
        payload := ((rest.drop boot).drop type).map UInt8.ofNat }
  | _ => none

theorem numbersEvent_eventNumbers (event : Event) :
    numbersEvent (eventNumbers event) = some event := by
  obtain ⟨seq, occurredAt, bootID, type, payload⟩ := event
  have hTime : ((occurredAt.toNat : Int) - (-occurredAt).toNat) = occurredAt := by omega
  have hText : ∀ text : String, String.ofList ((text.toList.map (·.toNat)).map Char.ofNat) = text := by
    intro text
    simp [map_map, Function.comp_def]
  have hBytes : (payload.map (·.toNat)).map UInt8.ofNat = payload := by
    simp [map_map, Function.comp_def]
  have hLength : ∀ text : String, text.toList.length = (text.toList.map (·.toNat)).length := by simp
  simp only [eventNumbers, cons_append, nil_append, numbersEvent, append_assoc]
  rw [hLength bootID, hLength type, take_left, drop_left, take_left, drop_left,
    hText, hText, hBytes, hTime]

/-- An encoding of every event. -/
def JSON.plain : JSON Bytes where
  marshalPayload := .ok
  marshal event := .ok (numbersText (eventNumbers event))
  unmarshal line := numbersEvent (readNumbers [] line)
  unmarshal_marshal := by
    intro _ event line _ hLine
    cases hLine
    rw [readNumbers_numbersText, numbersEvent_eventNumbers]
  printable := by
    intro event line hLine byte hByte
    cases hLine
    obtain ⟨number, _, hByte⟩ := mem_flatMap.mp hByte
    rcases mem_concat.mp hByte with hByte | rfl
    · obtain ⟨digit, hDigit, rfl⟩ := mem_map.mp hByte
      exact (show ∀ digit < 10, 32 ≤ UInt8.ofNat (48 + digit) by decide) digit
        (Nat.digits_lt_base (by decide) hDigit)
    · decide

/-- The segment files of the outbox directory, by the numbers in their names. -/
abbrev Files := List (Nat × Bytes)

namespace Files

def create (path : Nat) (files : Files) : Files :=
  if files.any (·.1 == path) then files else files ++ [(path, [])]

/-- A write at the end of a file. One that was removed while it was open is not there. -/
def append (path : Nat) (bytes : Bytes) (files : Files) : Files :=
  files.map fun file => if file.1 = path then (path, file.2 ++ bytes) else file

def remove (path : Nat) (files : Files) : Files := files.filter (·.1 ≠ path)

end Files

/-- The outbox with its directory. Beside them the events whose line, newline included, is in a file
of the directory, and those of them whose line was synced. -/
structure Spool where
  box : Outbox
  files : Files := []
  complete : List StoredEvent := []
  durable : List StoredEvent := []

/-- What the append of one event finds: the clock where it is read, and the errors of its steps. A
write that fails has written a part of the line. -/
structure EventIO where
  stamp : Time := 0
  now : Time := 0
  created : Time := 0
  sync : Option String := none
  close : Option String := none
  «open» : Option String := none
  write : Option (Nat × String) := none

/-- The end of a batch: the error of the last sync and the clock of the prune. -/
structure BatchIO where
  sync : Option String := none
  now : Time := 0

/-- `errors.Join`. -/
def joinErrors (error : String) : Option String → String
  | none => error
  | some second => error ++ "\n" ++ second

namespace Outbox

def boundsLocked (box : Outbox) : Nat × Nat :=
  match box.events.head?, box.events.getLast? with
  | some first, some last => (first.seq, last.seq)
  | _, _ => (0, 0)

/-- Whether the next line goes to a new segment. -/
def needsRotation (size : Nat) (now : Time) (box : Outbox) : Bool :=
  match box.current, box.segments.getLast? with
  | some _, some last =>
    decide (last.size + size > maxSegmentBytes) || decide (maxSegmentAge ≤ now - last.created)
  | _, _ => true

/-- The event of an item of a batch. -/
def event {α : Type} (io : EventIO) (item : BatchEvent α) (payload : Bytes) (box : Outbox) : Event :=
  { seq := box.nextSeq
    occurredAt := if item.occurredAt = 0 then io.stamp else item.occurredAt
    bootID := box.bootID, type := item.type, payload := payload }

/-- The bookkeeping of an event whose line was written. -/
def record (event : Event) (size : Nat) (box : Outbox) : Outbox :=
  match box.segments.getLast? with
  | none => box
  | some last =>
    { box with
      segments := box.segments.dropLast ++
        [{ last with last := event.seq, size := last.size + size, lastAt := event.occurredAt }]
      totalBytes := box.totalBytes + size
      events := box.events ++ [{ event with segment := last.path }]
      nextSeq := box.nextSeq + 1 }

end Outbox

namespace Spool

/-- The sync of the current segment, where there is something to sync. -/
def syncIfLocked (unsynced : Bool) (error : Option String) (spool : Spool) :
    Spool × Option String :=
  match unsynced, spool.box.current with
  | true, some handle =>
    if handle.isOpen then
      match error with
      | some error => (spool, some error)
      | none =>
        ({ spool with
            durable := spool.durable ++ spool.complete.filter (·.segment = handle.path) }, none)
    else (spool, some "file already closed")
  | _, _ => (spool, none)

/-- The spool with a new segment, opened. -/
def newSegment (first : Nat) (created : Time) (spool : Spool) : Spool :=
  { spool with
    box := { spool.box with
      current := some { path := first }
      segments := spool.box.segments ++ [{ path := first, first := first, created := created }] }
    files := spool.files.create first }

/-- A new segment. The handle of the old one is closed first, and stays where it is if that or the
open fails. -/
def rotateLocked (io : EventIO) (first : Nat) (spool : Spool) : Spool × Option String :=
  let closed := { spool with
    box := { spool.box with current := spool.box.current.map ({ · with isOpen := false }) } }
  let opened : Spool × Option String :=
    match io.open with
    | some error => (closed, some error)
    | none => (closed.newSegment first io.created, none)
  match spool.box.current with
  | none => opened
  | some handle =>
    if handle.isOpen then
      match io.close with
      | some error => (closed, some error)
      | none => opened
    else (spool, some "file already closed")

/-- A whole line at the end of the segment. -/
def addLine (path : Nat) (event : Event) (line : Bytes) (spool : Spool) : Spool :=
  { spool with
    box := spool.box.record event line.length
    files := spool.files.append path line
    complete := if spool.files.any (·.1 == path)
      then spool.complete ++ [{ event with segment := path }] else spool.complete }

/-- The write of a line to the current segment. One that fails has not written all of the line. -/
def writeLine (io : EventIO) (event : Event) (line : Bytes) (spool : Spool) :
    Spool × Option String :=
  match spool.box.current with
  | none => (spool, some "invalid argument")
  | some handle =>
    if handle.isOpen then
      match io.write with
      | none => (spool.addLine handle.path event line, none)
      | some (written, error) =>
        ({ spool with files := spool.files.append handle.path (line.dropLast.take written) },
          some error)
    else (spool, some "file already closed")

/-- The loop that drops segments from the front. -/
def pruneSegments (cutoff : Time) : List Segment → Spool → Spool
  | seg :: next :: rest, spool =>
    if spool.box.totalBytes ≤ maxOutboxBytes ∧ ¬ seg.lastTime < cutoff then spool
    else
      let events := spool.box.events
      let cut := GoSort.search events.length fun i => events[i]?.any (decide <| seg.last < ·.seq)
      pruneSegments cutoff (next :: rest)
        { box := { spool.box with
            totalBytes := spool.box.totalBytes - seg.size
            segments := next :: rest
            events := events.drop cut }
          files := spool.files.remove seg.path
          complete := spool.complete.filter (·.segment ≠ seg.path)
          durable := spool.durable.filter (·.segment ≠ seg.path) }
  | _, spool => spool

def pruneLocked (now : Time) (spool : Spool) : Spool :=
  pruneSegments (now - maxRetention) spool.box.segments spool

end Spool

/-- A batch that is being appended. -/
structure Appending where
  spool : Spool
  unsynced : Bool := false
  appended : List Event := []

namespace Appending

/-- The write of a line, and what follows it. -/
def write (io : EventIO) (event : Event) (line : Bytes) (state : Appending) :
    Appending × Option String :=
  match state.spool.writeLine io event line with
  | (spool, some error) =>
    let (spool, second) := spool.syncIfLocked state.unsynced io.sync
    ({ state with spool := spool }, some (joinErrors error second))
  | (spool, none) =>
    ({ spool := spool, unsynced := true, appended := state.appended ++ [event] }, none)

variable {α : Type} (json : JSON α)

/-- One round of the loop of `AppendBatch`. -/
def append (io : EventIO) (item : BatchEvent α) (payload : Bytes) (state : Appending) :
    Appending × Option String :=
  let event := state.spool.box.event io item payload
  match json.marshal event with
  | .error error =>
    let (spool, second) := state.spool.syncIfLocked state.unsynced io.sync
    ({ state with spool := spool }, some (joinErrors error second))
  | .ok text =>
    let line := text ++ [newline]
    if state.spool.box.needsRotation line.length io.now then
      match state.spool.syncIfLocked state.unsynced io.sync with
      | (spool, some error) => ({ state with spool := spool }, some error)
      | (spool, none) =>
        match spool.rotateLocked io event.seq with
        | (spool, some error) => ({ state with spool := spool, unsynced := false }, some error)
        | (spool, none) => write io event line { state with spool := spool, unsynced := false }
    else write io event line state

/-- The loop; it ends with the first error. -/
def appendAll : List (BatchEvent α × Bytes × EventIO) → Appending → Appending × Option String
  | [], state => (state, none)
  | (item, payload, io) :: rest, state =>
    match state.append json io item payload with
    | (state, some error) => (state, some error)
    | (state, none) => state.appendAll rest

end Appending

section Append

variable {α : Type} (json : JSON α)

/-- The payloads are encoded before anything is appended. -/
def marshalPayloads : List (BatchEvent α × EventIO) →
    Except String (List (BatchEvent α × Bytes × EventIO))
  | [] => .ok []
  | (item, io) :: rest => do
      let payload ← json.marshalPayload item.payload
      let encoded ← marshalPayloads rest
      return (item, payload, io) :: encoded

/-- `AppendBatch`: the spool after it, the events it returns and its error. -/
def Spool.appendBatch (io : BatchIO) (batch : List (BatchEvent α × EventIO)) (spool : Spool) :
    Spool × List Event × Option String :=
  if batch.isEmpty then (spool, [], none)
  else match marshalPayloads json batch with
  | .error error => (spool, [], some error)
  | .ok items =>
    match Appending.appendAll json items { spool := spool } with
    | (state, some error) => (state.spool, state.appended, some error)
    | (state, none) =>
      match state.spool.syncIfLocked state.unsynced io.sync with
      | (spool, some error) => (spool, state.appended, some error)
      | (spool, none) => (spool.pruneLocked io.now, state.appended, none)

end Append

section Paging

structure Cursor where
  version : Nat
  streamID : String
  seq : Nat
deriving DecidableEq, Repr

/-- The text of a cursor, JSON in base64. The cursors of streams whose ids are no longer than those
the outbox draws fit the limit of `decodeCursor`. -/
structure CursorFormat where
  encodeCursor : Cursor → String
  decode : String → Option Cursor
  decode_encode : ∀ cursor, cursor.seq < 2 ^ 64 → decode (encodeCursor cursor) = some cursor
  nonempty : ∀ cursor, encodeCursor cursor ≠ ""
  short : ∀ cursor, cursor.version = schemaVersion → cursor.seq < 2 ^ 64 →
    cursor.streamID.utf8ByteSize ≤ 31 → (encodeCursor cursor).utf8ByteSize ≤ 512

structure CursorGap where
  code : String
  reason : String
  streamID : String
  resumeCursor : String
  earliestSeq : Nat
  latestSeq : Nat
  firstRetainedAt : Time
deriving DecidableEq, Repr

inductive PageError where
  | invalidCursor
  | gap (gap : CursorGap)
deriving DecidableEq, Repr

structure Page where
  schemaVersion : Nat
  nodeID : String
  streamID : String
  bootID : String
  events : List Event
  nextCursor : String
  hasMore : Bool
  earliestSeq : Nat
  latestSeq : Nat
deriving DecidableEq, Repr

variable (format : CursorFormat)

def decodeCursor (value : String) : Option Cursor :=
  if value.utf8ByteSize > 512 then none
  else (format.decode value).filter (·.streamID ≠ "")

namespace Outbox

def gapLocked (reason : String) (earliest latest : Nat) (box : Outbox) : CursorGap :=
  { code := "telemetry_cursor_gap", reason := reason, streamID := box.streamID
    resumeCursor := format.encodeCursor
      { version := schemaVersion, streamID := box.streamID, seq := earliest - 1 }
    earliestSeq := earliest, latestSeq := latest
    firstRetainedAt := if 0 < earliest then (box.events.head?.map (·.occurredAt)).getD 0 else 0 }

/-- The events of a page, `used` being the bytes that it takes so far. -/
def fill (limit : Nat) : Nat → List StoredEvent → List Event
  | _, [] => []
  | used, stored :: rest =>
    let size := stored.payload.length + stored.type.utf8ByteSize + 160
    if limit = 0 ∨ used + size > maxPageBytes then []
    else stored.toEvent :: fill (limit - 1) (used + size) rest
termination_by structural _ events => events

def pageLimit (limit : Int) : Nat :=
  if limit ≤ 0 then defaultPageLimit else min limit.toNat maxPageLimit

/-- The position that a request starts from. -/
def position (encoded : String) (box : Outbox) : Except PageError Nat :=
  let (earliest, latest) := box.boundsLocked
  if encoded ≠ "" then
    match decodeCursor format encoded with
    | none => .error .invalidCursor
    | some decoded =>
      if decoded.version ≠ schemaVersion then .error .invalidCursor
      else if decoded.streamID ≠ box.streamID then
        .error (.gap (box.gapLocked format "stream_reset" earliest latest))
      else if 0 < latest ∧ latest < decoded.seq then .error .invalidCursor
      else if 0 < earliest ∧ decoded.seq + 1 < earliest then
        .error (.gap (box.gapLocked format "retention" earliest latest))
      else .ok decoded.seq
  else .ok (earliest - 1)

def page (encoded : String) (limit : Int) (box : Outbox) : Except PageError Page :=
  match box.position format encoded with
  | .error error => .error error
  | .ok position =>
    let (earliest, latest) := box.boundsLocked
    let start := GoSort.search box.events.length fun i =>
      box.events[i]?.any (decide <| position < ·.seq)
    let events := fill (pageLimit limit) 512 (box.events.drop start)
    let last := (events.getLast?.map (·.seq)).getD position
    .ok
      { schemaVersion := schemaVersion, nodeID := box.nodeID, streamID := box.streamID
        bootID := box.bootID, events := events
        nextCursor := format.encodeCursor
          { version := schemaVersion, streamID := box.streamID, seq := last }
        hasMore := decide (last < latest), earliestSeq := earliest, latestSeq := latest }

end Outbox

end Paging

section Load

variable {α : Type} (json : JSON α)

/-- The lines of a segment, each with an event of it. -/
def loadLines (path : Nat) : List Bytes → Except String (List StoredEvent)
  | [] => .ok []
  | line :: rest =>
    match json.unmarshal line with
    | none => .error s!"invalid telemetry segment {path}"
    | some event =>
      if event.seq = 0 ∨ event.type = "" then .error s!"invalid telemetry segment {path}"
      else do
        let events ← loadLines path rest
        return { event with segment := path } :: events

/-- A segment file; one without an event is not a segment of the outbox. -/
def loadSegment (modTime : Nat → Time) (path : Nat) (bytes : Bytes) (box : Outbox) :
    Except String Outbox :=
  let (lines, tooLong) := scan maxLineBytes [] (bytes.take (maxSegmentBytes + 1))
  match loadLines json path lines with
  | .error error => .error error
  | .ok events =>
    if tooLong then .error "bufio.Scanner: token too long"
    else match events.head?, events.getLast? with
    | some first, some last =>
      .ok { box with
        events := box.events ++ events
        segments := box.segments ++
          [{ path := path, first := first.seq, last := last.seq, size := bytes.length
             created := modTime path, lastAt := last.occurredAt }]
        totalBytes := box.totalBytes + bytes.length }
    | _, _ => .ok box

def loadSegments (modTime : Nat → Time) : List (Nat × Bytes) → Outbox → Except String Outbox
  | [], box => .ok box
  | (path, bytes) :: rest, box =>
    match loadSegment json modTime path bytes box with
    | .error error => .error error
    | .ok box => loadSegments modTime rest box

/-- What `load` reads from the directory. `streamID` is what the metadata names; without metadata a
new id is drawn. -/
def load (nodeID bootID streamHex : String) (streamID : Option String) (modTime : Nat → Time)
    (files : Files) : Except String Outbox :=
  let id := streamID.getD ("stream_" ++ streamHex)
  if trimSpace id = "" then .error "invalid telemetry metadata"
  else
    match loadSegments json modTime (files.mergeSort (fun a b => decide (a.1 ≤ b.1)))
      { nodeID := nodeID, streamID := id, bootID := bootID } with
    | .error error => .error error
    | .ok box => .ok { box with nextSeq := (box.events.getLast?.map (·.seq + 1)).getD 1 }

/-- `Open` on a directory with these files. -/
def «open» (nodeID bootID streamHex : String) (streamID : Option String) (modTime : Nat → Time)
    (now : Time) (files : Files) : Except String Spool :=
  match load json nodeID bootID streamHex streamID modTime files with
  | .error error => .error error
  | .ok box => .ok (Spool.pruneLocked now { box := box, files := files, complete := box.events })

end Load

end GPUardian.Telemetry
