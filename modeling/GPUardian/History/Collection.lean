import GPUardian.History.Quality
import GPUardian.Telemetry.Crashes

/-! The way of the events of a node into the history. A server's collector asks for the page after its
cursor and applies it; an event is applied if its number can be inserted, and retention deletes the
numbers after two days. A node that was removed and registered again has a new server, and the
collector of that starts without a cursor. -/
namespace GPUardian

open GoStrings Tables Telemetry List Interleaving

/-- What an event is known by. -/
abbrev EventKey := String × String × Nat

namespace Database

/-- The cursor of a server. -/
def syncCursor (serverID : String) (db : Database) : String :=
  ((db.syncStates.find? serverID).map (·.cursor)).getD ""

/-- A batch of the retention of `ingested_event_ids`: some of the rows that are old enough. -/
def pruneIngested (now : Time) (batch : IngestedEvent → Bool) (db : Database) : Database :=
  { db with
    ingested := db.ingested.delete fun row =>
      decide (row.ingestedAt < millis (now - ingestedEventRetention)) && batch row }

/-- The number of the event is in the table. -/
def Remembers (db : Database) (key : EventKey) : Prop := key ∈ db.ingested.rows.map IngestedEvent.key

instance (db : Database) (key : EventKey) : Decidable (db.Remembers key) :=
  inferInstanceAs (Decidable (key ∈ db.ingested.rows.map IngestedEvent.key))

variable [Unicode] [Digest]

/-- The events of a page whose numbers are inserted, and which are therefore applied. -/
def appliedEvents (format : PayloadFormat) (serverID serverName : String) (knownOwners : List String)
    (page : Page) (nowMS : Int) : Database → List Event → List EventKey
  | _, [] => []
  | db, event :: rest =>
    match db.ingestEvent format serverID serverName knownOwners page nowMS event with
    | .error _ => []
    | .ok after =>
      let key := (page.nodeID, page.streamID, event.seq)
      let others := appliedEvents format serverID serverName knownOwners page nowMS after rest
      if (db.ingested.find? key).isSome then others else key :: others

/-- The events that a page brings into the history. -/
def appliedByPage (format : PayloadFormat) (now : Time) (serverID serverName : String) (page : Page)
    (knownOwners : List String) (db : Database) : List EventKey :=
  match db.applyPageWithOwners format now serverID serverName page knownOwners with
  | .error _ => []
  | .ok _ => appliedEvents format serverID serverName knownOwners page (millis now)
      (db.seeNode page.nodeID serverID (millis now)) page.events

end Database

/-- A run of `collectNodeHistory` for a server, with the page that it has fetched. -/
structure Collector where
  serverID : String
  cursor : String
  page : Option Page := none

/-- A node and the history, with the events that were applied and the numbers that were deleted. -/
structure Collection where
  node : Recorder
  db : Database := {}
  collectors : Nat → Option Collector := fun _ => none
  applied : List EventKey := []
  forgotten : List EventKey := []

/-- The collectors are numbered. `stop` is the end of one for any other reason. -/
inductive CollectionEvent (α : Type) where
  | node (event : RecorderEvent α)
  | start (run : Nat) (serverID : String)
  | fetch (run : Nat) (now : Time)
  | apply (run : Nat) (serverName : String) (knownOwners : List String) (now : Time)
  | stop (run : Nat)
  | prune (now : Time) (batch : IngestedEvent → Bool)

namespace Collection

variable {α : Type}

/-- A collector goes on, or ends. -/
def become (run : Nat) (next : Option Collector) (collection : Collection) : Collection :=
  { collection with collectors := Function.update collection.collectors run next }

section Step

variable [Unicode] [Digest] (json : JSON α) (cursors : CursorFormat) (format : PayloadFormat)

def step (collection : Collection) : CollectionEvent α → Collection
  | .node event => { collection with node := collection.node.step json cursors event }
  | .start run serverID =>
    collection.become run (some { serverID, cursor := collection.db.syncCursor serverID })
  | .stop run => collection.become run none
  | .fetch run now =>
    match collection.collectors run with
    | some { serverID, cursor, page := none } =>
      if collection.node.up then
        match collection.node.spool.box.page cursors cursor maxPageLimit with
        | .ok page => collection.become run (some { serverID, cursor, page := some page })
        | .error (.gap gap) =>
          { collection with db := collection.db.markGap now serverID gap.reason }.become run
            (some { serverID, cursor := gap.resumeCursor })
        | .error .invalidCursor => collection.become run none
      else collection.become run none
    | _ => collection
  | .apply run serverName knownOwners now =>
    match collection.collectors run with
    | some { serverID, cursor := _, page := some page } =>
      match collection.db.applyPageWithOwners format now serverID serverName page knownOwners with
      | .error _ => collection.become run none
      | .ok after =>
        { collection with
          db := after
          applied := collection.applied ++
            collection.db.appliedByPage format now serverID serverName page knownOwners }.become
          run (if page.hasMore then some { serverID, cursor := page.nextCursor } else none)
    | _ => collection
  | .prune now batch =>
    let after := collection.db.pruneIngested now batch
    { collection with
      db := after
      forgotten := collection.forgotten ++
        (collection.db.ingested.rows.map IngestedEvent.key).filter (¬ after.Remembers ·) }

end Step

/-- A page that is applied brings back no event whose number retention has deleted. -/
def Fresh (collection : Collection) : CollectionEvent α → Prop
  | .apply run _ _ _ => ∀ collector ∈ collection.collectors run, ∀ page ∈ collector.page,
      ∀ event ∈ page.events, (page.nodeID, page.streamID, event.seq) ∉ collection.forgotten
  | _ => True

instance (collection : Collection) (event : CollectionEvent α) : Decidable (collection.Fresh event) := by
  cases event <;> unfold Fresh <;> infer_instance

end Collection

section Once

namespace Database

variable {nodeID : String} {db after : Database}

theorem addIngested_remembers {row : IngestedEvent} {key : EventKey} :
    (db.addIngested row).Remembers key ↔ key = row.key ∨ db.Remembers key :=
  Table.mem_keys_upsert fun _ => rfl

theorem addSummary_remembers {sessionID : String} {gpu : Int} {key : EventKey}
    (hKey : db.Remembers key) (h : db.addSummary sessionID gpu = .ok after) : after.Remembers key := by
  rw [addSummary_ok h]
  exact hKey

variable [Unicode] [Digest]

/-- The statements for an event forget no number. -/
theorem Statement.remembers {applied : EventPayload → Prop} (h : Statement nodeID applied db after)
    {key : EventKey} (hKey : db.Remembers key) :
    after.Remembers key := by
  cases h with
  | ingested row => exact addIngested_remembers.mpr (.inr hKey)
  | summary _ sessionID gpu hOwns h => exact addSummary_remembers hKey h
  | linkJob payload sessionID hOwns =>
    unfold Database.linkJob
    dsimp only
    split
    · exact hKey
    · exact hKey
  | claim _ serverID serverName payload occurredAt h =>
    unfold claimSession at h
    dsimp only at h
    split at h
    all_goals
      obtain ⟨history, hWrite, h⟩ := bind_ok h
      cases h
      exact hKey
  | jobGPU _ payload session gpu hSession hNode h =>
    obtain ⟨_, _, _, _, rfl⟩ := addJobGPU_ok h
    exact hKey
  | refresh _ payload h =>
    obtain ⟨history, hWrite, h⟩ := bind_ok h
    cases h
    exact hKey
  | sample _ payload session hSession hReaches h =>
    obtain ⟨history, hWrite, h⟩ := bind_ok h
    cases h
    exact hKey
  | _ => exact hKey

theorem Statements.remembers {applied : EventPayload → Prop}
    (h : Statements nodeID applied db after) {key : EventKey} (hKey : db.Remembers key) :
    after.Remembers key := by
  induction h with
  | refl => exact hKey
  | tail _ hStep ih => exact hStep.remembers ih

variable {format : PayloadFormat} {now : Time} {serverID serverName : String}
  {knownOwners : List String} {page : Page} {nowMS : Int} {event : Event}

/-- An event is remembered once it was ingested, and with it all that was remembered. -/
theorem ingestEvent_remembers
    (h : db.ingestEvent format serverID serverName knownOwners page nowMS event = .ok after) :
    after.Remembers (page.nodeID, page.streamID, event.seq) ∧
      ∀ key, db.Remembers key → after.Remembers key := by
  rcases ingestEvent_ok h with ⟨hOld, rfl⟩ | ⟨_, payload, _, hPayload⟩
  · exact ⟨Table.find?_isSome.mp hOld, fun _ hKey => hKey⟩
  · have hStatements : Statements page.nodeID (fun _ => True) _ after :=
      applyPayload_statements trivial hPayload
    exact ⟨hStatements.remembers (addIngested_remembers.mpr (.inl rfl)),
      fun key hKey => hStatements.remembers (addIngested_remembers.mpr (.inr hKey))⟩

/-- The events that are applied are different, were not remembered, and are from then on. -/
theorem appliedEvents_spec {events : List Event}
    (h : events.foldlM (ingestEvent format serverID serverName knownOwners page nowMS) db =
      .ok after) :
    let keys := appliedEvents format serverID serverName knownOwners page nowMS db events
    keys.Nodup ∧
      (∀ key ∈ keys, ¬ db.Remembers key ∧ after.Remembers key ∧
        ∃ event ∈ events, key = (page.nodeID, page.streamID, event.seq)) ∧
      ∀ key, db.Remembers key → after.Remembers key := by
  induction events generalizing db with
  | nil =>
    cases h
    exact ⟨nodup_nil, fun _ hKey => absurd hKey not_mem_nil, fun _ hKey => hKey⟩
  | cons event events ih =>
    rw [foldlM_cons] at h
    obtain ⟨next, hNext, hRest⟩ := bind_ok h
    obtain ⟨hNodup, hApplied, hMono⟩ := ih hRest
    obtain ⟨hNew, hKept⟩ := ingestEvent_remembers hNext
    have hOthers : ∀ key ∈ appliedEvents format serverID serverName knownOwners page nowMS next
        events, ¬ db.Remembers key ∧ after.Remembers key ∧
          ∃ event' ∈ event :: events, key = (page.nodeID, page.streamID, event'.seq) := by
      intro key hKey
      obtain ⟨hFresh, hLast, event', hEvent', hSame⟩ := hApplied key hKey
      exact ⟨fun hOld => hFresh (hKept key hOld), hLast, event', mem_cons_of_mem _ hEvent',
        hSame⟩
    simp only [appliedEvents, hNext]
    split
    · exact ⟨hNodup, hOthers, fun key hKey => hMono key (hKept key hKey)⟩
    · rename_i hNone
      refine ⟨nodup_cons.mpr ⟨fun hAgain => (hApplied _ hAgain).1 hNew, hNodup⟩, ?_,
        fun key hKey => hMono key (hKept key hKey)⟩
      intro key hKey
      rcases mem_cons.mp hKey with rfl | hOther
      · exact ⟨fun hOld => hNone (Table.find?_isSome.mpr hOld), hMono _ hNew, event,
          mem_cons_self, rfl⟩
      · exact hOthers key hOther

theorem appliedByPage_spec
    (h : db.applyPageWithOwners format now serverID serverName page knownOwners = .ok after) :
    let keys := db.appliedByPage format now serverID serverName page knownOwners
    keys.Nodup ∧
      (∀ key ∈ keys, ¬ db.Remembers key ∧ after.Remembers key ∧
        ∃ event ∈ page.events, key = (page.nodeID, page.streamID, event.seq)) ∧
      ∀ key, db.Remembers key → after.Remembers key := by
  unfold appliedByPage
  rw [h]
  dsimp only
  rcases applyPage_ok h with ⟨hIdle, rfl⟩ | ⟨ingested, syncStates, hEvents, rfl⟩
  · rw [hIdle]
    exact ⟨nodup_nil, fun _ hKey => absurd hKey not_mem_nil, fun _ hKey => hKey⟩
  · have hSpec := appliedEvents_spec hEvents
    exact hSpec

end Database

namespace Collection

variable {α : Type}

/-- No event was applied twice, and one that is not remembered was forgotten. -/
structure Sound (collection : Collection) : Prop where
  once : collection.applied.Nodup
  known : ∀ key ∈ collection.applied, collection.db.Remembers key ∨ key ∈ collection.forgotten

theorem Sound.keeps {collection after : Collection} (h : collection.Sound)
    (hApplied : after.applied = collection.applied)
    (hIngested : after.db.ingested = collection.db.ingested)
    (hForgotten : after.forgotten = collection.forgotten) : after.Sound := by
  refine ⟨hApplied ▸ h.once, ?_⟩
  rw [hApplied, hForgotten]
  unfold Database.Remembers
  rw [hIngested]
  exact h.known

variable [Unicode] [Digest] {json : JSON α} {cursors : CursorFormat} {format : PayloadFormat}

/-- Every step of nodes and collector keeps the invariant. -/
theorem step_sound (collection : Collection) (event : CollectionEvent α)
    (hFresh : collection.Fresh event) (h : collection.Sound) :
    (collection.step json cursors format event).Sound := by
  cases event with
  | node event => exact h.keeps rfl rfl rfl
  | start run serverID => exact h.keeps rfl rfl rfl
  | stop run => exact h.keeps rfl rfl rfl
  | fetch run now =>
    unfold step
    dsimp only
    split
    · split
      · split
        · exact h.keeps rfl rfl rfl
        · exact h.keeps rfl rfl rfl
        · exact h.keeps rfl rfl rfl
      · exact h.keeps rfl rfl rfl
    · exact h.keeps rfl rfl rfl
  | apply run serverName knownOwners now =>
    unfold step
    dsimp only
    split
    · rename_i serverID cursor page hCollector
      split
      · exact h.keeps rfl rfl rfl
      · rename_i after hPage
        obtain ⟨hNodup, hApplied, hMono⟩ := Database.appliedByPage_spec hPage
        constructor
        · refine h.once.append hNodup fun key hOld hNew => ?_
          obtain ⟨hUnknown, _, event, hEvent, rfl⟩ := hApplied key hNew
          rcases h.known _ hOld with hKnown | hForgotten
          · exact hUnknown hKnown
          · exact hFresh _ hCollector _ rfl event hEvent hForgotten
        · intro key hKey
          rcases mem_append.mp hKey with hOld | hNew
          · exact (h.known key hOld).imp_left (hMono key)
          · exact .inl (hApplied key hNew).2.1
    · exact h.keeps rfl rfl rfl
  | prune now batch =>
    refine ⟨h.once, fun key hKey => ?_⟩
    by_cases hStill : (collection.db.pruneIngested now batch).Remembers key
    · exact .inl hStill
    · refine .inr (mem_append.mpr ?_)
      rcases h.known key hKey with hKnown | hForgotten
      · exact .inr (mem_filter.mpr ⟨hKnown, by simpa using hStill⟩)
      · exact .inl hForgotten

/-- Every event is applied at most once, as long as no page brings back an event whose number
retention has deleted. -/
theorem events_applied_once {node : Recorder} {events : List (CollectionEvent α)}
    (hRun : Along (step json cursors format) Fresh { node } events) :
    (run (step json cursors format) { node } events).applied.Nodup :=
  (hRun.invariant Sound step_sound ⟨nodup_nil, fun _ h => absurd h not_mem_nil⟩).once

end Collection

end Once

section Samples

open scoped Plain

/-- The node reports a sample at noon and nothing after it. It is collected, then registered again
under a new id and collected once more, after retention has run at the given time. -/
def collectedAgain (prunedAt : Time) : List (CollectionEvent GoLines.Bytes) :=
  [.node (.append [({ type := "gpu.sample", payload := [], occurredAt := claimedNoon }, {})] {}),
    .start 0 "server_1", .fetch 0 claimedNoon, .apply 0 "alpha" [] claimedNoon,
    .prune prunedAt fun _ => true,
    .start 1 "server_2", .fetch 1 prunedAt, .apply 1 "alpha" [] prunedAt]

def noonSample : GPUSample :=
  { windowStart := claimedNoon, windowEnd := claimedNoon + 10 * second, status := "ok"
    gpus := [{ gpu := 0, utilizationPct := some 50 }] }

def sampleKey : EventKey := ("node", "stream_0123456789abcdef01234567", 1)

theorem events_applied_once_hour :
    let run := run
      (Collection.step JSON.plain .plain (listFormat [.gpuSample noonSample]))
      { node := { spool := startSpool } } (collectedAgain (claimedNoon + 3600 * second))
    run.applied = [sampleKey] ∧ run.applied.Nodup := by
  refine ⟨by decide +kernel, @Collection.events_applied_once _ ascii plain _ _ _ _ _ ?_⟩
  decide +kernel

/-- After two days the sample is counted again. -/
theorem event_applied_twice :
    let run := run
      (Collection.step JSON.plain .plain (listFormat [.gpuSample noonSample]))
      { node := { spool := startSpool } } (collectedAgain (claimedNoon + 49 * 3600 * second))
    run.applied = [sampleKey, sampleKey] ∧ run.db.nodeRollups.rows.map (·.observed) = [20000] := by
  decide +kernel

end Samples

end GPUardian
