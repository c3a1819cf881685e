import GPUardian.Daemon.Register
import GPUardian.History.Provisioning

/-! The report of a reservation on its way from the node that accepts it to the history of the
gateway. The node checks its requests to the nanosecond, the tables keep milliseconds. -/
namespace GPUardian

open GoStrings GoSlice List Interleaving

open History (ReservationUpsert)

/-- Keys and rows have a holder, and keys have a name. -/
structure Held (state : State) : Prop where
  tokens : ∀ token ∈ state.tokens, token.id ≠ "" ∧ token.name ≠ ""
  rows : ∀ row ∈ state.reservations, row.holder ≠ ""

variable {startsAt expiresAt : Time}

namespace Held

theorem empty : Held {} :=
  ⟨fun _ h => absurd h not_mem_nil, fun _ h => absurd h not_mem_nil⟩

variable {state after : State}

theorem shrinks (h : Held state) (hAfter : Shrinks state after) : Held after := by
  constructor
  · intro token hToken
    obtain ⟨old, hOld, hRevoked⟩ := hAfter.tokens.partner hToken
    rw [hRevoked.same]
    exact h.tokens old hOld
  · intro row hRow
    obtain ⟨old, hOld, hEnded⟩ := hAfter.rows.partner hRow
    rw [hEnded.same]
    exact h.rows old hOld

theorem newToken_named [Unicode] [Digest] (secretHex idHex mode name : String) (expiresAt now : Time) :
    (newToken secretHex idHex mode name expiresAt now).id ≠ "" ∧
      (newToken secretHex idHex mode name expiresAt now).name ≠ "" := by
  constructor
  · simp [newToken]
  · simp only [newToken]
    split
    · decide
    · assumption

/-- Rows are booked under a key that has a name. -/
theorem books (h : Held state) {fresh : Fresh} {token : Token} {groupID purpose session : String}
    {now : Time} {gpus : List Int} (hName : token.name ≠ "")
    (hRows : after.reservations = state.reservations ++ newReservations fresh
      (reservationRow token groupID purpose session startsAt expiresAt now) gpus)
    (hTokens : ∀ token ∈ after.tokens, token.id ≠ "" ∧ token.name ≠ "") : Held after := by
  refine ⟨hTokens, fun row hRow => ?_⟩
  rw [hRows] at hRow
  rcases mem_append.mp hRow with hOld | hNew
  · exact h.rows row hOld
  · obtain ⟨i, gpu, _, rfl⟩ := mem_newReservations hNew
    exact hName

end Held

section Operations

variable [Unicode] [Digest]

theorem Op.held (state : State) (op : Op) (hDraws : DrawsNames state op) (h : Held state) :
    Held ((op.effect state).edits.apply state) := by
  by_cases hNarrowing : op.narrowing = true
  · exact h.shrinks (Op.shrinks state op hNarrowing)
  have hAppend : ∀ secretHex idHex mode name expiresAt now, ∀ token ∈ state.tokens ++
      [newToken secretHex idHex mode name expiresAt now], token.id ≠ "" ∧ token.name ≠ "" :=
    fun _ _ _ _ _ _ => forall_mem_concat.mpr ⟨h.tokens, Held.newToken_named ..⟩
  refine Op.edits_ind fun edits hEdited => ?_
  cases hEdited with
  | quiet => exact h
  | issued => exact ⟨hAppend _ _ _ _ _ _, h.rows⟩
  | scheduled _ _ _ _ _ _ _ _ _ token hToken =>
    subst hToken
    exact h.books (Held.newToken_named ..).2 rfl (hAppend _ _ _ _ _ _)
  | managed _ _ _ _ _ _ _ _ _ token hToken => exact h.books (h.tokens token hToken).2 rfl h.tokens
  | confirmed => exact ⟨h.tokens, h.rows⟩
  | cutOver _ groupHex _ _ managed _ hAdmitted =>
    refine ⟨fun token hToken => ((admitManagedKeys_ok hAdmitted).2.filled token hToken).2, ?_⟩
    intro row hRow
    obtain ⟨i, old, _, hOld, rfl⟩ := mem_rebindReservations hRow
    exact h.rows old hOld
  | old op _ hOld => cases op <;> first | (cases hOld; done) | cases hDraws
  | _ => exact absurd rfl hNarrowing

theorem Store.run_held {codec : Codec} {calls : List (SaveErrors × Op)}
    (h : Store.Meets codec DrawsNames ⟨{}, {}, none⟩ calls) :
    Held ((⟨{}, {}, none⟩ : Store).run codec calls).state :=
  h.invariant codec (P := Held) Op.held (Store.synced_empty codec) .empty

end Operations

section Reports

variable [Unicode] [Digest] {request : BookingRequest} {rootKey : RootKeyCheck} {fresh : Fresh}
  {state : State} {token : Token} {rows : List Reservation}

/-- The booking as a call of the store. -/
def BookingRequest.op (request : BookingRequest) (rootKey : RootKeyCheck) (fresh : Fresh) : Op :=
  match request.booker with
  | .local name => .registerScheduledReservationsWithSession rootKey fresh name request.purpose
      request.session request.gpus request.startsAt request.expiresAt request.now
  | .managed userKeyID => .registerManagedReservations rootKey fresh userKeyID request.purpose
      request.session request.gpus request.startsAt request.expiresAt request.now

theorem BookingRequest.op_edits (request : BookingRequest) (rootKey : RootKeyCheck) (fresh : Fresh)
    (state : State) : ((request.op rootKey fresh).effect state).edits =
      (request.effect rootKey fresh state).edits := by
  unfold op effect
  cases request.booker with
  | «local» name => rfl
  | managed userKeyID => rfl

omit [Unicode] [Digest] in
/-- The rows of the answer stand in the store in their order. -/
theorem Booked.sublist {after : State} (h : Booked request state token rows after) :
    rows.Sublist after.reservations := by
  cases h with
  | replayed first more hRows hStored hFits hHash hToken hAfter =>
    rw [hAfter, ← hStored, BookingRequest.stored, sessionReservations]
    split
    · exact nil_sublist _
    · exact filter_sublist
  | added fresh groupID hStored hRows hToken hAfter =>
    rw [hAfter]
    exact sublist_append_right ..

omit [Unicode] [Digest] in
/-- They are booked for the window that was requested. -/
theorem Booked.window {after : State} (h : Booked request state token rows after) :
    ∀ row ∈ rows, reservationStartsAt row = request.start ∧ row.expiresAt = request.expiresAt := by
  intro row hRow
  cases h with
  | replayed first more hRows hStored hFits hHash hToken hAfter => exact hFits.window row hRow
  | added fresh groupID hStored hRows hToken hAfter =>
    rw [hRows] at hRow
    obtain ⟨i, gpu, _, rfl⟩ := mem_newReservations hRow
    exact ⟨reservationRow_startsAt token groupID request.purpose (trimSpace request.session)
      request.startsAt request.expiresAt request.now, rfl⟩

/-- A report that the node may send for a booking in the window. -/
structure WellReported (startsAt expiresAt : Time) (payload : ReservationUpsert) : Prop where
  group : payload.groupID ≠ ""
  holder : payload.holder ≠ ""
  members : (payload.members.map (·.reservationID)).Nodup
  starts : payload.startsAt = startsAt
  expires : payload.expiresAt = expiresAt

/-- What is reported of a booking that succeeds. -/
theorem emitReservation_wellReported (hNamed : Named state) (hHeld : Held state)
    (hDraws : DrawsNames state (request.op rootKey fresh))
    (h : (request.effect rootKey fresh state).result = .ok (token, rows)) :
    ∃ payload, emitReservation token rows = some payload ∧
      WellReported request.start request.expiresAt payload := by
  obtain ⟨hBookable, hBooked, hToken⟩ := BookingRequest.effect_ok h
  have hIDs := (Op.named state _ hDraws hNamed).distinct
  have hAfter := Op.held state _ hDraws hHeld
  rw [BookingRequest.op_edits] at hIDs hAfter
  obtain ⟨first, hFirst⟩ : ∃ first, rows.head? = some first := by
    obtain ⟨row, hRow, _⟩ := hBooked.exists_row hBookable.nonempty
    cases rows with
    | nil => cases hRow
    | cons first more => exact ⟨first, rfl⟩
  have hMem := mem_of_mem_head? hFirst
  have hWindow := hBooked.window first hMem
  refine ⟨_, by rw [emitReservation, hFirst, Option.map_some], ?_, ?_, ?_, hWindow.1, hWindow.2⟩
  · simp only [reservationTelemetryGroup]
    split
    · assumption
    · exact (hAfter.tokens token hToken).1
  · exact hAfter.rows first (hBooked.sublist.subset hMem)
  · rw [map_map]
    exact hIDs.sublist (hBooked.sublist.map _)

variable [DurationSyntax] (codec : Codec)

/-- The report that `register` sends once the store has answered. -/
def registerReport (gpuCount : Int) (world : RegisterWorld) (args : RegisterArgs) (store : Store) :
    Option ReservationUpsert :=
  match registerPlan gpuCount world args store.state with
  | .ok (.reserved startsAt expiresAt) =>
    let booking := args.booking startsAt expiresAt world.now
    let (_, answer) := store.perform codec world.errors
      (booking.effect (world.storeValidateRootKey args.rootKey) world.fresh store.state)
    answer.toOption.bind fun (token, rows) => emitReservation token rows
  | _ => none

variable {world : RegisterWorld} {args : RegisterArgs} {store : Store} {result : RegisterResult}

/-- A request that was accepted has booked. -/
theorem registerReport_accepted {gpuCount : Int}
    (hReserved : normalizeTokenMode args.mode = tokenModeReserved)
    (h : (register codec gpuCount world args store).2 = .ok result) :
    ∃ startsAt expiresAt token rows, requestedWindow args world.now = .ok (startsAt, expiresAt) ∧
      ((args.booking startsAt expiresAt world.now).effect (world.storeValidateRootKey args.rootKey)
        world.fresh store.state).result = .ok (token, rows) ∧
      registerReport codec gpuCount world args store = emitReservation token rows := by
  obtain ⟨startsAt, expiresAt, token, rows, hPlan, _, hCall⟩ := register_books codec hReserved h
  obtain ⟨_, _, hWindow, _, hPlanned, _⟩ := registerPlan_ok hReserved hPlan
  cases hPlanned
  refine ⟨startsAt, expiresAt, token, rows, hWindow,
    (Store.perform_ok codec (congrArg Prod.snd hCall)).1, ?_⟩
  simp only [registerReport, hPlan, hCall]
  rfl

end Reports

section Page

variable [Unicode] [Digest] {format : PayloadFormat} {now : Time} {serverID serverName : String}
  {page : Telemetry.Page} {knownOwners : List String} {db : Database} {event : Telemetry.Event}
  {payload : ReservationUpsert}

theorem Database.applyReservation_iff_history {nodeID : String} {occurredAt : Time} :
    (∃ after, db.applyReservation nodeID serverID serverName payload occurredAt knownOwners =
      .ok after) ↔ ∃ history, db.history.applyReservation nodeID serverID serverName payload
        occurredAt knownOwners = .ok history := by
  constructor
  · rintro ⟨after, h⟩
    unfold applyReservation at h
    obtain ⟨history, hHistory, _⟩ := bind_ok h
    exact ⟨history, hHistory⟩
  · rintro ⟨history, h⟩
    obtain ⟨after, hAfter, _⟩ := applyReservation_of_history h
    exact ⟨after, hAfter⟩

/-- A new event is applied if its report is. -/
theorem Database.ingestEvent_report_iff {nowMS : Int}
    (hReport : format.decode event = .ok (.reservationUpsert payload)) :
    (∃ after, db.ingestEvent format serverID serverName knownOwners page nowMS event = .ok after) ↔
      db.Ingested page event ∨ ∃ history, db.history.applyReservation page.nodeID serverID serverName
        payload event.occurredAt knownOwners = .ok history := by
  unfold ingestEvent applyEvent
  rw [hReport]
  dsimp only
  split
  · rename_i hIngested
    exact ⟨fun _ => .inl hIngested, fun _ => ⟨db, rfl⟩⟩
  · rename_i hNew
    have hHistory := @applyReservation_iff_history _ _ serverID serverName knownOwners
      (db.addIngested
        { nodeID := page.nodeID, streamID := page.streamID, seq := event.seq, ingestedAt := nowMS })
      payload page.nodeID event.occurredAt
    refine Iff.trans ?_ (hHistory.trans (or_iff_right hNew).symm)
    constructor
    · rintro ⟨after, h⟩
      split at h
      · rename_i applied hApplied
        exact ⟨applied, hApplied⟩
      · cases h
    · rintro ⟨after, h⟩
      refine ⟨after, ?_⟩
      split
      · rename_i applied hApplied
        exact hApplied.symm.trans h
      · rename_i message hFailed
        cases hFailed.symm.trans h

/-- A page with one report is applied if the report is. -/
theorem Database.applyPage_report_iff (hNode : trimSpace page.nodeID ≠ "")
    (hStream : trimSpace page.streamID ≠ "") (hEvents : page.events = [event])
    (hReport : format.decode event = .ok (.reservationUpsert payload)) :
    (∃ after, db.applyPageWithOwners format now serverID serverName page knownOwners = .ok after) ↔
      db.Ingested page event ∨ ∃ history, db.history.applyReservation page.nodeID serverID serverName
        payload event.occurredAt knownOwners = .ok history := by
  refine Iff.trans ?_ (@ingestEvent_report_iff _ _ format serverID serverName page knownOwners
    (db.seeNode page.nodeID serverID (millis now)) event payload (millis now) hReport)
  unfold applyPageWithOwners
  dsimp only
  rw [if_neg (not_or.mpr ⟨hNode, hStream⟩), hEvents, if_neg fun h => cons_ne_nil _ _ h.1,
    foldlM_cons]
  constructor
  · rintro ⟨after, h⟩
    obtain ⟨ingested, hIngested, _⟩ := bind_ok h
    obtain ⟨applied, hApplied, _⟩ := bind_ok hIngested
    exact ⟨applied, hApplied⟩
  · rintro ⟨after, h⟩
    rw [h]
    exact ⟨_, rfl⟩

end Page

section Acceptance

variable [Unicode] [Digest] [DurationSyntax] (codec : Codec)

/-- The gateway can apply the report of an accepted booking exactly if the booking starts and ends
in different milliseconds. A report that names no session needs the id that is made up for it. -/
theorem accepted_booking_applied_iff {calls : List (SaveErrors × Op)} {gpuCount : Int}
    {world : RegisterWorld} {args : RegisterArgs} {store : Store} {result : RegisterResult}
    (hRun : Store.Meets codec DrawsNames ⟨{}, {}, none⟩ calls)
    (hStore : store = (⟨{}, {}, none⟩ : Store).run codec calls)
    (hToken : IsHex world.fresh.tokenHex) (hGroup : IsHex world.fresh.groupHex)
    (hRows : DrawsRows store.state world.fresh args.gpus)
    (hReserved : normalizeTokenMode args.mode = tokenModeReserved)
    (hAccepted : (register codec gpuCount world args store).2 = .ok result) :
    ∃ startsAt expiresAt payload, requestedWindow args world.now = .ok (startsAt, expiresAt) ∧
      registerReport codec gpuCount world args store = some payload ∧
      ∀ (format : PayloadFormat) (now : Time) (serverID serverName : String) (page : Telemetry.Page)
        (knownOwners : List String) (db : Database) (event : Telemetry.Event),
        trimSpace page.nodeID ≠ "" → trimSpace page.streamID ≠ "" → page.events = [event] →
        format.decode event = .ok (.reservationUpsert payload) →
        db.history.GroupFree page.nodeID payload →
        db.history.Agrees (History.reservationSessionID page.nodeID payload) payload.members →
        ((∃ after, db.applyPageWithOwners format now serverID serverName page knownOwners =
            .ok after) ↔
          db.Ingested page event ∨
            millis (requestedStart startsAt world.now) < millis expiresAt ∧
              db.history.MadeUpIDFree page.nodeID payload) := by
  obtain ⟨startsAt, expiresAt, token, rows, hWindow, hBooked, hReport⟩ :=
    registerReport_accepted codec hReserved hAccepted
  have hDraws : DrawsNames store.state ((args.booking startsAt expiresAt world.now).op
      (world.storeValidateRootKey args.rootKey) world.fresh) := by
    unfold BookingRequest.op
    cases (args.booking startsAt expiresAt world.now).booker with
    | «local» name => exact ⟨hToken, hRows⟩
    | managed userKeyID => exact ⟨hGroup, hRows⟩
  have hNamed : Named store.state := hStore ▸ Store.run_named hRun
  have hHeld : Held store.state := hStore ▸ Store.run_held hRun
  obtain ⟨payload, hPayload, hWell⟩ := emitReservation_wellReported hNamed hHeld hDraws hBooked
  refine ⟨startsAt, expiresAt, payload, hWindow, hReport.trans hPayload, ?_⟩
  intro format now serverID serverName page knownOwners db event hNode hStream hEvents hDecode hFree
    hAgrees
  rw [Database.applyPage_report_iff hNode hStream hEvents hDecode,
    History.applyReservation_admits_iff hWell.group hWell.holder hFree hWell.members hAgrees,
    hWell.starts, hWell.expires]
  rfl

end Acceptance

section Samples

open scoped Plain

def noonWorld : RegisterWorld := idleWorld (claimedNoon - 3600 * second)

/-- Alice asks for a session at noon. -/
def noonArgs (span : Duration) : RegisterArgs :=
  { mode := "reserved", name := "alice", externalSessionID := "sess_1", gpus := [0]
    startsAt := some claimedNoon, expiresAt := some (claimedNoon + span) }

def noonCodec (span : Duration) : Codec :=
  let booking := (noonArgs span).booking claimedNoon (claimedNoon + span) noonWorld.now
  tableCodec [(booking.effect (.ok true) noonWorld.fresh {}).edits.apply {}]

def noonReport (span : Duration) : ReservationUpsert :=
  { groupID := "tok_2", externalSessionID := "sess_1", holder := "alice"
    createdAt := noonWorld.now, startsAt := claimedNoon, expiresAt := claimedNoon + span
    historyQuality := "complete", members := [⟨"res_3", 0⟩] }

def noonEvent : Telemetry.Event :=
  { seq := 1, occurredAt := noonWorld.now, bootID := "boot_1", type := "reservation.upsert"
    payload := [] }

def noonPage : Telemetry.Page := { claimPage with events := [noonEvent] }

/-- A booking of an hour: its report, and the page that has it. -/
theorem accepted_booking_applied_hour :
    letI : DurationSyntax := ⟨fun _ => .error "time: invalid duration"⟩
    let span := 3600 * second
    registerReport (noonCodec span) 0 noonWorld (noonArgs span) ⟨{}, {}, none⟩ =
        some (noonReport span) ∧
      ∃ after, ({} : Database).applyPageWithOwners (listFormat [.reservationUpsert (noonReport span)])
        claimedNoon "server_1" "alpha" noonPage [] = .ok after := by
  let _ : DurationSyntax := ⟨fun _ => .error "time: invalid duration"⟩
  have hReport : registerReport (noonCodec (3600 * second)) 0 noonWorld (noonArgs (3600 * second))
      ⟨{}, {}, none⟩ = some (noonReport (3600 * second)) := by decide +kernel
  refine ⟨hReport, ?_⟩
  obtain ⟨startsAt, expiresAt, payload, hWindow, hPayload, hApplied⟩ :=
    @accepted_booking_applied_iff ascii plain ⟨fun _ => .error "time: invalid duration"⟩
      (noonCodec (3600 * second)) [] 0 noonWorld (noonArgs (3600 * second)) ⟨{}, {}, none⟩
      { token := "gk_1", tokenID := "tok_2", groupID := "tok_2", mode := "reserved"
        reservationIDs := ["res_3"], gpus := [0], startsAt := some claimedNoon
        expiresAt := some (claimedNoon + 3600 * second) }
      trivial rfl (by decide) (by decide) ⟨fun _ => (by decide : IsHex "3"), by decide⟩ (by decide)
      (by decide +kernel)
  obtain rfl : payload = noonReport (3600 * second) :=
    Option.some.inj (hPayload.symm.trans hReport)
  obtain ⟨rfl, rfl⟩ : startsAt = claimedNoon ∧ expiresAt = claimedNoon + 3600 * second := by
    have hNoon : requestedWindow (noonArgs (3600 * second)) noonWorld.now =
        .ok (claimedNoon, claimedNoon + 3600 * second) := by decide +kernel
    exact Prod.mk.inj (Except.ok.inj (hWindow.symm.trans hNoon))
  refine (hApplied _ _ _ _ noonPage _ {} noonEvent (by decide) (by decide) rfl rfl ?_ ?_).mpr
    (.inr ⟨by decide, ?_⟩)
  · exact fun row hRow => absurd hRow not_mem_nil
  · exact fun row hRow => absurd hRow not_mem_nil
  · exact fun _ row hRow => absurd hRow not_mem_nil

/-- A booking of a hundred nanoseconds is accepted, and its report violates the `CHECK` of
`reservation_sessions` in an empty database. -/
theorem short_booking_not_applied :
    letI : DurationSyntax := ⟨fun _ => .error "time: invalid duration"⟩
    let span := 100
    (register (noonCodec span) 0 noonWorld (noonArgs span) ⟨{}, {}, none⟩).2.isOk = true ∧
      registerReport (noonCodec span) 0 noonWorld (noonArgs span) ⟨{}, {}, none⟩ =
        some (noonReport span) ∧
      (({} : Database).applyPageWithOwners (listFormat [.reservationUpsert (noonReport span)])
        claimedNoon "server_1" "alpha" noonPage []).isOk = false :=
  ⟨by decide +kernel, by decide +kernel, by decide +kernel⟩

end Samples

end GPUardian
