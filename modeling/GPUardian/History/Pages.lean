import GPUardian.History.Statements

/-! Sequences of pages. A page is applied in one transaction, event by event; what every event keeps
that meets a condition, the pages keep whose events do. -/
namespace GPUardian

open GoStrings Interleaving

/-- A page with what the gateway applies it with. -/
structure PageCall where
  now : Time
  serverID : String
  serverName : String
  page : Telemetry.Page
  knownOwners : List String := []

namespace PageCall

variable [Unicode] [Digest] (format : PayloadFormat)

def apply (db : Database) (call : PageCall) : Database :=
  db.commit (db.applyPageWithOwners format call.now call.serverID call.serverName call.page
    call.knownOwners)

/-- The row that remembers an event. -/
def ingestedRow (call : PageCall) (event : Telemetry.Event) : IngestedEvent :=
  { nodeID := call.page.nodeID, streamID := call.page.streamID, seq := event.seq
    ingestedAt := millis call.now }

/-- The event is remembered, or it meets the condition in the state that it is applied in. -/
def MeetsEvent (ok : String → EventPayload → Database → Prop) (call : PageCall) (db : Database)
    (event : Telemetry.Event) : Prop :=
  (db.ingested.find? (call.ingestedRow event).key).isSome = true ∨
    ∀ payload ∈ (format.decode event).toOption,
      ok call.page.nodeID payload (db.addIngested (call.ingestedRow event))

/-- The events do, one after the other. -/
def MeetsEvents (ok : String → EventPayload → Database → Prop) (call : PageCall) :
    Database → List Telemetry.Event → Prop
  | _, [] => True
  | db, event :: rest => call.MeetsEvent format ok db event ∧
    ∀ after ∈ (db.ingestEvent format call.serverID call.serverName call.knownOwners call.page
      (millis call.now) event).toOption, MeetsEvents ok call after rest

/-- So do the events of a page. -/
def Meets (ok : String → EventPayload → Database → Prop) (db : Database) (call : PageCall) : Prop :=
  MeetsEvents format ok call (db.seeNode call.page.nodeID call.serverID (millis call.now))
    call.page.events

instance MeetsEvents.decidable (ok : String → EventPayload → Database → Prop)
    [∀ nodeID payload db, Decidable (ok nodeID payload db)] (call : PageCall) :
    ∀ db events, Decidable (MeetsEvents format ok call db events)
  | _, [] => isTrue trivial
  | _, _ :: rest =>
    have (after : Database) := MeetsEvents.decidable ok call after rest
    inferInstanceAs (Decidable ((_ ∨ _) ∧ _))

instance (ok : String → EventPayload → Database → Prop)
    [∀ nodeID payload db, Decidable (ok nodeID payload db)] (db : Database) (call : PageCall) :
    Decidable (call.Meets format ok db) :=
  MeetsEvents.decidable format ok call _ _

end PageCall

/-- Events that meet the condition keep the property, and so does the bookkeeping of the pages. -/
structure EventInvariant [Unicode] [Digest] (ok : String → EventPayload → Database → Prop)
    (Inv : Database → Prop) : Prop where
  node : ∀ db nodeID serverID nowMS, Inv db → Inv (db.seeNode nodeID serverID nowMS)
  ingested : ∀ db row, Inv db → Inv (db.addIngested row)
  sync : ∀ (db : Database) syncStates, Inv db → Inv { db with syncStates }
  event : ∀ nodeID serverID serverName knownOwners occurredAt db payload after,
    ok nodeID payload db → Inv db →
    db.applyPayload nodeID serverID serverName knownOwners occurredAt payload = .ok after → Inv after

namespace EventInvariant

variable [Unicode] [Digest] {format : PayloadFormat} {ok : String → EventPayload → Database → Prop}
  {Inv : Database → Prop}

theorem ingestEvent (h : EventInvariant ok Inv) {call : PageCall} {db after : Database}
    {event : Telemetry.Event}
    (hMeets : call.MeetsEvent format ok db event) (hInv : Inv db)
    (hIngest : db.ingestEvent format call.serverID call.serverName call.knownOwners call.page
      (millis call.now) event = .ok after) : Inv after := by
  rcases Database.ingestEvent_ok hIngest with ⟨_, rfl⟩ | ⟨hNew, payload, hDecode, hPayload⟩
  · exact hInv
  · have hOk := hMeets.resolve_left hNew payload (by rw [hDecode]; rfl)
    exact h.event _ _ _ _ _ _ _ _ hOk (h.ingested db _ hInv) hPayload

theorem events (h : EventInvariant ok Inv) {call : PageCall} {db after : Database}
    {events : List Telemetry.Event} (hMeets : PageCall.MeetsEvents format ok call db events)
    (hInv : Inv db)
    (hEvents : events.foldlM (Database.ingestEvent format call.serverID call.serverName
      call.knownOwners call.page (millis call.now)) db = .ok after) : Inv after := by
  induction events generalizing db with
  | nil =>
    cases hEvents
    exact hInv
  | cons event events ih =>
    rw [List.foldlM_cons] at hEvents
    obtain ⟨next, hNext, hRest⟩ := bind_ok hEvents
    exact ih (hMeets.2 next (by rw [hNext]; rfl)) (h.ingestEvent hMeets.1 hInv hNext) hRest

theorem page (h : EventInvariant ok Inv) (db : Database) (call : PageCall)
    (hMeets : call.Meets format ok db) (hInv : Inv db) : Inv (call.apply format db) := by
  unfold PageCall.apply
  cases hPage : db.applyPageWithOwners format call.now call.serverID call.serverName call.page
      call.knownOwners with
  | error message => exact hInv
  | ok after =>
    rcases Database.applyPage_ok hPage with ⟨_, rfl⟩ | ⟨ingested, syncStates, hEvents, rfl⟩
    · exact hInv
    · exact h.sync ingested _ (h.events hMeets (h.node db _ _ _ hInv) hEvents)

/-- The property holds after every sequence of pages whose events meet the condition. -/
theorem run (h : EventInvariant ok Inv) {calls : List PageCall} {db : Database}
    (hRun : Along (PageCall.apply format) (fun db call => call.Meets format ok db) db
      calls) (hInv : Inv db) : Inv (Interleaving.run (PageCall.apply format) db calls) :=
  hRun.invariant Inv h.page hInv

end EventInvariant

end GPUardian
