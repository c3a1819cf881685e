import GPUardian.History.Sessions
import GPUardian.Library.Interleaving
import GPUardian.Store.Groups
import Mathlib.Data.List.Destutter
import Mathlib.Data.List.Sort

/-! A gateway that reconciles its sessions with the snapshots of one node. The node serves
its own requests, the gateway fetches snapshots, records reservations and applies telemetry,
and a reconciliation compares the sessions with a snapshot that was fetched before. Each
transaction of the gateway, each call of the node's store and each fetch is one step. -/
namespace GPUardian

open GoStrings List Interleaving

namespace Reconcile

def fleetReconcileInterval : Duration := 30 * second

/-- The gateway's record of the node. -/
structure NodeRecord where
  nodeID : String
  serverID : String
  serverName : String

/-- The groups of a fetched snapshot. `granted` are the groups that the node has brought in
since it took the snapshot; the code does not keep them. -/
structure NodeGroups where
  groups : List String
  granted : List String := []
deriving DecidableEq, Repr

def NodeGroups.grant (more : List String) (snapshot : NodeGroups) : NodeGroups :=
  { snapshot with granted := more ++ snapshot.granted }

/-- A reconciliation that found sessions to close and is about to take the write lock. -/
structure ReconcileCall where
  snapshot : Nat
  now : Time
deriving DecidableEq, Repr

structure System where
  node : Store
  clock : Time
  history : History := .empty
  snapshots : List NodeGroups := []
  calls : List ReconcileCall := []
  reconcileSeen : Option (String × Time) := none

inductive Telemetry where
  | upsert (payload : History.ReservationUpsert) (occurredAt : Time)
  | ended (payload : History.ReservationEnded) (occurredAt : Time)

inductive Event where
  | serve (errors : SaveErrors) (op : Op)
  | tick (elapsed : Nat)
  | fetch
  | prepare (now : Time) (id owner purpose : String) (startsAt expiresAt : Time) (gpus : List Int)
  | confirm (now : Time) (id groupID : String) (reservationIDs : List String) (gpus : List Int)
  | drop (id : String)
  | ingest (events : List Telemetry) (knownOwners : List String)
  | compare (snapshot : Nat) (now : Time)
  | close (call : Nat)

def snapshotGroups (snapshot : NodeGroups) : List String := snapshot.groups.filter (· ≠ "")

/-- The sorted groups without repetition. -/
def signature (groups : List String) : String :=
  "\x00".intercalate ((groups.insertionSort (· ≤ ·)).destutter (· ≠ ·))

section Interleavings

variable [Unicode] [Digest] (codec : Codec) (record : NodeRecord)

def applyTelemetry (knownOwners : List String) (db : History) :
    Telemetry → Except String History
  | .upsert payload occurredAt =>
    db.applyReservation record.nodeID record.serverID record.serverName payload occurredAt
      knownOwners
  | .ended payload occurredAt => .ok (db.applyReservationEnded record.nodeID payload occurredAt)

namespace System

/-- A transaction that fails is rolled back. -/
def transact (s : System) (result : Except String History) : System :=
  match result with
  | .ok history => { s with history }
  | .error _ => s

def serve (errors : SaveErrors) (op : Op) (s : System) : System :=
  let node := (s.node.call codec errors op).1
  { s with
    node
    snapshots := s.snapshots.map
      (·.grant (grantedGroups s.clock s.node.state node.state op)) }

/-- `reconcileNodeHistory` as far as the first reading of the open sessions. -/
def compare (snapshot : NodeGroups) (index : Nat) (now : Time) (s : System) : System :=
  let groups := snapshotGroups snapshot
  if s.reconcileSeen.any fun (seen, seenAt) =>
      seen == signature groups && decide (now - seenAt < fleetReconcileInterval) then s
  else if trimSpace record.serverID = "" ∨ !timeIsSet now then s
  else if s.history.missingOpenSessions record.serverID (History.liveGroups groups)
      (millis now) = [] then { s with reconcileSeen := some (signature groups, now) }
  else { s with calls := s.calls ++ [⟨index, now⟩] }

/-- The transaction of `ReconcileOpenSessions`, which reads the open sessions again. -/
def close (snapshot : NodeGroups) (index : Nat) (now : Time) (s : System) : System :=
  let groups := snapshotGroups snapshot
  { s with
    history := s.history.closeSessions
      (s.history.missingOpenSessions record.serverID (History.liveGroups groups) (millis now))
      (millis now)
    calls := s.calls.eraseIdx index
    reconcileSeen := some (signature groups, now) }

def step (s : System) : Event → System
  | .serve errors op => s.serve codec errors op
  | .tick elapsed => { s with clock := s.clock + elapsed }
  | .fetch => { s with snapshots := s.snapshots ++ [⟨statusGroups s.clock s.node.state, []⟩] }
  | .prepare now id owner purpose startsAt expiresAt gpus =>
    s.transact (s.history.prepareSession now id record.nodeID record.serverID record.serverName
      owner purpose startsAt expiresAt gpus)
  | .confirm now id groupID reservationIDs gpus =>
    if groupID = "" then s
    else s.transact (s.history.confirmSession now id groupID reservationIDs gpus)
  | .drop id => { s with history := s.history.dropProvisioningSession id }
  | .ingest events knownOwners =>
    s.transact (events.foldlM (applyTelemetry record knownOwners) s.history)
  | .compare index now =>
    match s.snapshots[index]? with
    | some snapshot => s.compare record snapshot index now
    | none => s
  | .close index =>
    match s.calls[index]? with
    | some call =>
      match s.snapshots[call.snapshot]? with
      | some snapshot => s.close record snapshot index call.now
      | none => s
    | none => s

/-- The node's own requests come through its daemon, and its keys are drawn fresh. -/
def Served (s : System) : Event → Prop
  | .serve _ op => op.daemon = true ∧ FreshSecret s.node.state op
  | _ => True

/-- When a reconciliation closes sessions, no session that it looks at belongs to a group
that the node still lists and has brought in since it took the snapshot, or to one whose id
has white space around it. -/
def Current (s : System) : Event → Prop
  | .close index =>
    ∀ call ∈ s.calls[index]?, ∀ snapshot ∈ s.snapshots[call.snapshot]?,
      ∀ row ∈ s.history.sessions,
        History.openReservation record.serverID (millis call.now) row = true →
          ListsGroup s.clock s.node.state row.groupID →
            row.groupID ∉ snapshot.granted ∧ trimSpace row.groupID = row.groupID
  | _ => True

instance (s : System) : (event : Event) → Decidable (s.Current record event)
  | .close _ => inferInstanceAs (Decidable (∀ call ∈ _, _))
  | .serve .. | .tick _ | .fetch | .prepare .. | .confirm .. | .drop _ | .ingest .. | .compare .. =>
    isTrue trivial

/-- What the node lists now was in a snapshot, or came later. -/
structure Covered (s : System) : Prop where
  synced : s.node.Synced codec
  hashes : (s.node.state.tokens.map (·.hash)).Nodup
  snapshots : ∀ snapshot ∈ s.snapshots, ∀ group, ListsGroup s.clock s.node.state group →
    group ∈ snapshot.groups ∨ group ∈ snapshot.granted

variable {codec record}

theorem Covered.serve {s : System} (h : s.Covered codec) {errors : SaveErrors} {op : Op}
    (hDaemon : op.daemon = true) (hFresh : FreshSecret s.node.state op) :
    (s.serve codec errors op).Covered codec := by
  have hGrants : Grants s.clock s.node.state (s.node.call codec errors op).1.state
      (grantedGroups s.clock s.node.state (s.node.call codec errors op).1.state op) := by
    rcases Store.call_cases codec errors op h.synced with ⟨_, hSame⟩ | ⟨_, _, next, hNext, hCall⟩
    · rw [hSame]
      exact ⟨h.hashes, fun _ => .inl⟩
    · rw [hCall, hNext]
      exact Op.grants s.node.state op hDaemon h.hashes hFresh s.clock
  refine ⟨Store.call_synced codec errors op h.synced, hGrants.1, ?_⟩
  intro snapshot hSnapshot group hLists
  obtain ⟨old, hOld, rfl⟩ := mem_map.mp hSnapshot
  rcases hGrants.2 group hLists with hBefore | hGranted
  · exact (h.snapshots old hOld group hBefore).imp_right (mem_append_right _)
  · exact .inr (mem_append_left _ hGranted)

omit [Digest] in
theorem Covered.tick {s : System} (h : s.Covered codec) (elapsed : Nat) :
    ({ s with clock := s.clock + elapsed } : System).Covered codec :=
  ⟨h.synced, h.hashes, fun snapshot hSnapshot group hLists =>
    h.snapshots snapshot hSnapshot group
      (hLists.earlier (Int.le_add_of_nonneg_right (Int.natCast_nonneg elapsed)))⟩

omit [Digest] in
theorem Covered.fetch {s : System} (h : s.Covered codec) :
    ({ s with snapshots := s.snapshots ++ [⟨statusGroups s.clock s.node.state, []⟩] } :
      System).Covered codec := by
  refine { h with snapshots := forall_mem_concat.mpr ⟨h.snapshots, fun group hLists => ?_⟩ }
  exact .inl ((mem_statusGroups h.hashes hLists.1).mpr hLists)

omit [Digest] in
/-- The gateway's own steps change nothing that the coverage speaks of. -/
theorem Covered.of_same {s t : System} (h : s.Covered codec) (hNode : t.node = s.node)
    (hClock : t.clock = s.clock) (hSnapshots : t.snapshots = s.snapshots) : t.Covered codec := by
  obtain ⟨hSynced, hHashes, hCovered⟩ := h
  refine ⟨hNode ▸ hSynced, hNode ▸ hHashes, ?_⟩
  rw [hNode, hClock, hSnapshots]
  exact hCovered

omit [Digest] in
theorem Covered.transact {s : System} (h : s.Covered codec) (result : Except String History) :
    (s.transact result).Covered codec := by
  cases result with
  | ok history => exact h.of_same rfl rfl rfl
  | error message => exact h

theorem Covered.step {s : System} (h : s.Covered codec) (event : Event)
    (hServed : s.Served event) : (s.step codec record event).Covered codec := by
  cases event with
  | serve errors op => exact h.serve hServed.1 hServed.2
  | tick elapsed => exact h.tick elapsed
  | fetch => exact h.fetch
  | prepare now id owner purpose startsAt expiresAt gpus => exact h.transact _
  | confirm now id groupID reservationIDs gpus =>
    simp only [System.step]
    split
    · exact h
    · exact h.transact _
  | drop id => exact h.of_same rfl rfl rfl
  | ingest events knownOwners => exact h.transact _
  | compare index now =>
    simp only [System.step, System.compare]
    repeat' split
    all_goals exact h.of_same rfl rfl rfl
  | close index =>
    simp only [System.step]
    repeat' split
    all_goals exact h.of_same rfl rfl rfl

omit [Unicode] [Digest] in
/-- The groups of a snapshot reach the comparison as they are, up to white space. -/
theorem mem_liveGroups {snapshot : NodeGroups} {group : String} (hGroup : group ∈ snapshot.groups)
    (hNonempty : group ≠ "") (hTrimmed : trimSpace group = group) :
    group ∈ History.liveGroups (snapshotGroups snapshot) := by
  refine mem_filter.mpr ⟨mem_map.mpr ⟨group, ?_, hTrimmed⟩, by simpa using hNonempty⟩
  exact mem_filter.mpr ⟨hGroup, by simpa using hNonempty⟩

theorem close_keeps_listed {s : System} (h : s.Covered codec) {index : Nat}
    (hCurrent : s.Current record (.close index)) {row : SessionRow}
    (hRow : row ∈ s.history.sessions) (hLists : ListsGroup s.clock s.node.state row.groupID) :
    row ∈ (s.step codec record (.close index)).history.sessions := by
  simp only [System.step]
  split
  · rename_i call hCall
    split
    · rename_i snapshot hSnapshot
      refine History.closeSessions_keeps s.history hRow fun hOpen => ?_
      obtain ⟨hOld, hTrimmed⟩ := hCurrent call hCall snapshot hSnapshot row hRow hOpen hLists
      have hListed := (h.snapshots snapshot (mem_of_getElem? hSnapshot) row.groupID
        hLists).resolve_right hOld
      exact mem_liveGroups hListed hLists.1 hTrimmed
    · exact hRow
  · exact hRow

/-- In every interleaving in which no reconciliation looks at a group that is newer than its
snapshot, a reconciliation leaves the session of every group that the node still lists as
it is. -/
theorem listed_session_kept {start : System} (hSynced : start.node.Synced codec)
    (hHashes : (start.node.state.tokens.map (·.hash)).Nodup) (hSnapshots : start.snapshots = [])
    {events : List Event} (hServed : Along (step codec record) Served start events)
    (hCurrent : Along (step codec record) (Current record) start events)
    {first last : List Event} {index : Nat} (hEvents : events = first ++ .close index :: last)
    {row : SessionRow}
    (hRow : row ∈ (run (step codec record) start first).history.sessions)
    (hLists : ListsGroup (run (step codec record) start first).clock
      (run (step codec record) start first).node.state row.groupID) :
    row ∈ (run (step codec record) start
      (first ++ [.close index])).history.sessions := by
  subst hEvents
  rw [along_append] at hServed hCurrent
  have hStart : start.Covered codec :=
    ⟨hSynced, hHashes, fun _ hMem => absurd (hSnapshots ▸ hMem) not_mem_nil⟩
  have hCovered := hServed.1.invariant (Covered codec)
    (fun s event hOk h => h.step event hOk) hStart
  rw [Interleaving.run_append]
  exact close_keeps_listed hCovered hCurrent.2.1 hRow hLists

end System

end Interleavings

/-- A node whose only key is alice's. -/
def keyed : State :=
  { managedKeys := true
    tokens := [{ id := "usr_1", hash := "a", name := "alice", mode := "managed", managed := true }] }

def booked : State :=
  { keyed with reservations := [{ id := "res_1", groupID := "grp_1", tokenHash := "a"
                                  externalSessionID := "sess_1", holder := "alice"
                                  createdAt := 50, startsAt := 100, expiresAt := 10000000
                                  active := true }] }

def keyedCodec : Codec := tableCodec [keyed, booked]

def node1 : NodeRecord := ⟨"node-1", "srv-1", "lab"⟩

def keyedSystem : System :=
  { node := ⟨keyed, keyed, some (keyedCodec.encode keyed ++ "\n")⟩, clock := 50 }

def bookGPU : Event :=
  .serve {} (.registerManagedReservations (.ok true)
    { secretHex := "", tokenHex := "", groupHex := "1", reservationHex := fun _ => "1" } "usr_1" ""
    "sess_1" [0] 100 10000000 50)

/-- A booking in the web page: the session is prepared, the node books, and the session is
confirmed. -/
def webBooking : List Event :=
  [.prepare 50 "sess_1" "alice" "" 100 10000000 [0], bookGPU,
    .confirm 50 "sess_1" "grp_1" ["res_1"] [0]]

def webSession : SessionRow :=
  { sessionID := "sess_1", nodeID := "node-1", serverID := "srv-1", serverName := "lab"
    groupID := "grp_1", ownerUsername := "alice", ownerEditable := true, purpose := ""
    source := .web, createdAt := millis 50, startsAt := millis 100
    expiresAt := millis 10000000, historyQuality := .complete, provisioning := false
    updatedAt := millis 50 }

/-- A session of a group that the node does not know, and a snapshot that is fetched after
the node has taken the booking. -/
def fetchedAfter : List Event :=
  [.ingest [.upsert { groupID := "grp_0", holder := "bob", startsAt := 0, expiresAt := 10000000 }
    40] []] ++ webBooking ++ [.fetch, .compare 0 60]

open scoped Plain

theorem fetchedAfter_reached :
    let s := run (System.step keyedCodec node1) keyedSystem fetchedAfter
    ListsGroup s.clock s.node.state webSession.groupID ∧ webSession ∈ s.history.sessions ∧
      s.calls = [⟨0, 60⟩] := by
  decide +kernel

theorem fetchedAfter_current :
    Along (System.step keyedCodec node1) (System.Current node1) keyedSystem
      (fetchedAfter ++ [.close 0]) := by
  decide +kernel

theorem listed_session_kept_alice :
    webSession ∈ (run (System.step keyedCodec node1) keyedSystem
      (fetchedAfter ++ [.close 0])).history.sessions := by
  obtain ⟨hLists, hRow, _⟩ := fetchedAfter_reached
  exact @System.listed_session_kept ascii plain keyedCodec node1 keyedSystem
    ⟨rfl, decodeFile_encode keyedCodec keyed rfl, rfl⟩ (by decide) rfl _
    (by simp [fetchedAfter, webBooking, bookGPU, Along, System.Served, Op.daemon,
      FreshSecret])
    fetchedAfter_current fetchedAfter [] 0 rfl webSession hRow hLists

/-- The snapshot is fetched while the booking is on its way to the node. -/
def fetchedBefore : List Event := [.fetch] ++ webBooking ++ [.compare 0 60]

theorem listed_session_closed :
    let before := run (System.step keyedCodec node1) keyedSystem fetchedBefore
    let after := run (System.step keyedCodec node1) keyedSystem
      (fetchedBefore ++ [.close 0])
    before.history.sessions = [webSession] ∧
      after.history.sessions = [{ webSession with
        revokedAt := some (millis 60), finalizedAt := some (millis 60)
        historyQuality := .partly, updatedAt := millis 60 }] ∧
      ListsGroup after.clock after.node.state webSession.groupID := by
  decide +kernel

end Reconcile

end GPUardian
