import GPUardian.Daemon.ObservedJobs

/-! The samples of the GPUs. A sample lists for each GPU the groups of the reservations that its
window overlaps and of the jobs that run without one; the history counts it for the sessions of
these groups. A reservation is reported to the history under its group or under the id of its token,
but a sample knows it by its group only. -/
namespace GPUardian

open GoStrings List Option Interleaving

/-- A reading of one GPU. -/
structure GPUMetric where
  gpu : Int
  memoryUsedBytes : Option Nat := none
  memoryTotalBytes : Option Nat := none
  utilizationPct : Option Rat := none
deriving DecidableEq, Repr

structure GPUSampleEntry where
  gpu : Int
  groupID : String := ""
  groupIDs : List String := []
  utilizationPct : Option Rat := none
  memoryUsedBytes : Option Nat := none
  memoryTotalBytes : Option Nat := none
deriving DecidableEq, Repr

structure GPUSample where
  windowStart : Time
  windowEnd : Time
  status : String
  gpus : List GPUSampleEntry := []
deriving DecidableEq, Repr

/-- What `Metrics` answers. -/
structure MetricsRead where
  metrics : List GPUMetric := []
  err : Option String := none

def reservationTelemetryGroup (row : Reservation) (fallback : String) : String :=
  if row.groupID ≠ "" then row.groupID else fallback

/-- The group of a job that runs without a reservation. -/
def claimedTelemetryGroup (event : JobReport) : String :=
  if event.executionID = "" ∨ event.groupID ≠ "" ∨ event.groupIDs ≠ [] then ""
  else if event.tokenMode ≠ tokenModeClaimed ∧ event.tokenMode ≠ tokenModeManaged then ""
  else if event.authorizationID ≠ "" then "claimed-auth:" ++ event.authorizationID
  else "claimed:" ++ event.executionID

def emitReservation (token : Token) (rows : List Reservation) : Option History.ReservationUpsert :=
  rows.head?.map fun first =>
    { externalSessionID := first.externalSessionID, historyQuality := "complete"
      groupID := reservationTelemetryGroup first token.id, holder := first.holder
      purpose := first.purpose, createdAt := first.createdAt
      startsAt := reservationStartsAt first, expiresAt := first.expiresAt
      members := rows.map fun row => { reservationID := row.id, gpu := row.gpu } }

variable {group : String} {gpu : Int} {state : State}

section Sample

variable (windowStart windowEnd : Time)

/-- The row stands in some part of the window. -/
def sampledRow (row : Reservation) : Bool :=
  !row.revoked && decide (reservationStartsAt row < windowEnd) && decide (windowStart < row.expiresAt)

/-- The calls of `addGroup` that add something. -/
def addedGroups (state : State) (tracker : Tracker) : List (Int × String) :=
  let claimed (event : JobReport) : List (Int × String) :=
    event.gpus.map (·, claimedTelemetryGroup event)
  let added := (state.reservations.filter (sampledRow windowStart windowEnd)).map
      (fun row => (row.gpu, reservationTelemetryGroup row "")) ++
    tracker.observedJobs.entries.flatMap (fun job => claimed job.2.event) ++
    tracker.runJobs.entries.flatMap (fun job => claimed job.2)
  added.filter (·.2 ≠ "")

def groupsByGPU (added : List (Int × String)) (gpu : Int) : List String :=
  (added.filter (·.1 = gpu)).foldl (fun groups entry => addString entry.2 groups) []

/-- The last row on a GPU wins. -/
def groupByGPU (state : State) (gpu : Int) : String :=
  (((state.reservations.filter (sampledRow windowStart windowEnd)).filter (·.gpu = gpu)).getLast?.map
    (reservationTelemetryGroup · "")).getD ""

def sampleEntry (read : MetricsRead) (state : State) (tracker : Tracker) (gpu : Int) :
    GPUSampleEntry :=
  let groups := (groupsByGPU (addedGroups windowStart windowEnd state tracker) gpu).insertionSort
    (· ≤ ·)
  let primaryGroup := groupByGPU windowStart windowEnd state gpu
  let metric := if read.err.isNone then (read.metrics.filter (·.gpu = gpu)).getLast? else none
  { gpu := gpu
    groupID := if primaryGroup = "" then groups.head?.getD "" else primaryGroup
    groupIDs := groups
    utilizationPct := metric.bind (·.utilizationPct)
    memoryUsedBytes := metric.bind (·.memoryUsedBytes)
    memoryTotalBytes := metric.bind (·.memoryTotalBytes) }

/-- The event that is emitted for a window, if there is a GPU to report. -/
def sampleTelemetryMetrics (read : MetricsRead) (state : State) (tracker : Tracker) :
    Option GPUSample :=
  let gpus := (read.metrics.map (·.gpu) ++
    (addedGroups windowStart windowEnd state tracker).map (·.1)).dedup
  if gpus = [] then none
  else some
    { windowStart, windowEnd, status := if read.err.isNone then "ok" else "error"
      gpus := (gpus.insertionSort (· ≤ ·)).map (sampleEntry windowStart windowEnd read state tracker) }

/-- The sample for the window has an entry for the GPU that lists the group. -/
def Samples (read : MetricsRead) (state : State) (tracker : Tracker) (gpu : Int) (group : String) :
    Prop :=
  ∃ sample ∈ sampleTelemetryMetrics windowStart windowEnd read state tracker,
    ∃ entry ∈ sample.gpus, entry.gpu = gpu ∧ group ∈ entry.groupIDs

variable {windowStart windowEnd}

theorem mem_addString {value other : String} {values : List String} :
    other ∈ addString value values ↔ other = value ∨ other ∈ values := by
  unfold addString
  split
  · rename_i hKnown
    constructor
    · exact .inr
    · rintro (rfl | hOther)
      · exact hKnown
      · exact hOther
  · rw [mem_append, mem_singleton, or_comm]

theorem mem_foldl_addString (added : List (Int × String)) (groups : List String) :
    group ∈ added.foldl (fun groups entry => addString entry.2 groups) groups ↔
      group ∈ groups ∨ ∃ entry ∈ added, entry.2 = group := by
  induction added generalizing groups with
  | nil => simp
  | cons first rest ih =>
    rw [foldl_cons, ih, mem_addString]
    simp only [mem_cons, exists_eq_or_imp, eq_comm (a := group)]
    tauto

theorem mem_groupsByGPU {added : List (Int × String)} :
    group ∈ groupsByGPU added gpu ↔ (gpu, group) ∈ added := by
  rw [groupsByGPU, mem_foldl_addString]
  constructor
  · rintro (hNone | ⟨entry, hEntry, rfl⟩)
    · cases hNone
    · obtain ⟨hAdded, hGPU⟩ := mem_filter.mp hEntry
      rwa [← of_decide_eq_true hGPU]
  · intro hAdded
    exact .inr ⟨_, mem_filter.mpr ⟨hAdded, decide_eq_true rfl⟩, rfl⟩

/-- A sample lists what was added. -/
theorem samples_iff {read : MetricsRead} {tracker : Tracker} :
    Samples windowStart windowEnd read state tracker gpu group ↔
      (gpu, group) ∈ addedGroups windowStart windowEnd state tracker := by
  have hEntry : group ∈ (sampleEntry windowStart windowEnd read state tracker gpu).groupIDs ↔
      (gpu, group) ∈ addedGroups windowStart windowEnd state tracker := by
    rw [← mem_groupsByGPU]
    exact mem_insertionSort _
  rw [Samples, sampleTelemetryMetrics, ← hEntry]
  constructor
  · rintro ⟨sample, hSample, entry, hIn, rfl, hGroup⟩
    obtain ⟨_, hSample⟩ := ite_none_left_eq_some.mp hSample
    cases hSample
    obtain ⟨other, _, rfl⟩ := List.mem_map.mp hIn
    exact hGroup
  · intro hGroup
    have hAdded := List.mem_map_of_mem (f := Prod.fst) (hEntry.mp hGroup)
    have hGPU : gpu ∈ (read.metrics.map (·.gpu) ++
        (addedGroups windowStart windowEnd state tracker).map (·.1)).dedup :=
      mem_dedup.mpr (mem_append_right _ hAdded)
    refine ⟨_, ite_none_left_eq_some.mpr ⟨ne_nil_of_mem hGPU, rfl⟩, _,
      List.mem_map_of_mem ((mem_insertionSort _).mpr hGPU), rfl, hGroup⟩

end Sample

section Reports

variable [Unicode] [Digest]

/-- The booking that is requested, with the check of the root key and what it draws. -/
def Request.booking : Request → Option (RootKeyCheck × Fresh × BookingRequest)
  | .book rootKey fresh name purpose session gpus startsAt expiresAt now =>
    some (rootKey, fresh,
      { booker := .local name, purpose, session, gpus, startsAt, expiresAt, now })
  | .bookManaged rootKey fresh userKeyID purpose session gpus startsAt expiresAt now =>
    some (rootKey, fresh,
      { booker := .managed userKeyID, purpose, session, gpus, startsAt, expiresAt, now })
  | _ => none

/-- The token and the rows that a booking is answered with. -/
def Daemon.booked (codec : Codec) (daemon : Daemon) :
    DaemonEvent → Option (Token × List Reservation)
  | .request errors request =>
    match daemon.nextCall (.request errors request), request.booking with
    | some _, some (rootKey, fresh, booking) =>
      (daemon.store.perform codec errors (booking.effect rootKey fresh
        daemon.store.state)).2.toOption
    | _, _ => none
  | _ => none

/-- The daemon with the reservations that it has reported to the history. -/
structure Reporter where
  daemon : Daemon := {}
  upserts : List History.ReservationUpsert := []

namespace Reporter

def step (grace : Duration) (codec : Codec) (reporter : Reporter) (event : DaemonEvent) : Reporter :=
  { daemon := reporter.daemon.step grace codec event
    upserts := reporter.upserts ++ ((reporter.daemon.booked codec event).bind fun (token, rows) =>
      emitReservation token rows).toList }

/-- No row gets the id of a reservation that was reported. -/
def DrawsNew (reporter : Reporter) (event : DaemonEvent) : Prop :=
  ∀ call ∈ reporter.daemon.nextCall event, ∀ id ∈ call.2.rowIDs, ∀ upsert ∈ reporter.upserts,
    ∀ member ∈ upsert.members, member.reservationID ≠ id

instance (reporter : Reporter) (event : DaemonEvent) : Decidable (reporter.DrawsNew event) :=
  inferInstanceAs (Decidable (∀ call ∈ reporter.daemon.nextCall event, _))

end Reporter

/-- The rows of a session are reported under one name. -/
def Sessioned (state : State) : Prop :=
  ∀ row ∈ state.reservations, row.externalSessionID ≠ "" → ∀ other ∈ state.reservations,
    other.externalSessionID = row.externalSessionID →
      endedGroup state.tokens other = endedGroup state.tokens row

variable {row : Reservation}

section Booking

variable {state : State} {rootKey : RootKeyCheck} {fresh : Fresh} {purpose session : String}
  {gpus : List Int} {startsAt expiresAt now : Time} {token : Token} {rows : List Reservation}
  {first : Reservation}

omit [Unicode] [Digest] in
theorem mem_session {externalSessionID : String}
    (h : row ∈ sessionReservations state externalSessionID) :
    row ∈ state.reservations ∧ row.externalSessionID = externalSessionID ∧
      externalSessionID ≠ "" := by
  unfold sessionReservations at h
  split at h
  · cases h
  · rename_i hNamed
    obtain ⟨hRow, hSame⟩ := mem_filter.mp h
    exact ⟨hRow, by simpa using hSame, hNamed⟩

omit [Unicode] [Digest] in
/-- The stored rows of a session are reported like the first of them. -/
theorem Sessioned.replayed (hSessions : Sessioned state) {more : List Reservation}
    (hStored : sessionReservations state session = first :: more) :
    ∀ row ∈ first :: more, row ∈ state.reservations ∧
      endedGroup state.tokens row = endedGroup state.tokens first := by
  intro row hRow
  obtain ⟨hFirst, hName, hNamed⟩ := mem_session (hStored ▸ mem_cons_self : first ∈ _)
  obtain ⟨hIn, hSame, _⟩ := mem_session (hStored ▸ hRow : row ∈ _)
  exact ⟨hIn, hSessions first hFirst (hName ▸ hNamed) row hIn (hSame.trans hName.symm)⟩

omit [Unicode] [Digest] in
theorem endedGroup_eq_telemetryGroup {tokens : List Token}
    (h : row.groupID = "" → (tokenByHash tokens row.tokenHash).map (·.id) = some token.id) :
    endedGroup tokens row = reservationTelemetryGroup row token.id := by
  unfold endedGroup reservationTelemetryGroup
  split
  · rfl
  · rename_i hNone
    rw [h (not_not.mp hNone)]
    rfl

/-- The upsert of a booking with a key of the node has the name that its rows are reported under. -/
theorem registerScheduled_group {name secret : String}
    {effect : Effect (String × Token × List Reservation)}
    (hEffect : registerScheduledReservationsWithSession rootKey fresh name purpose session gpus
      startsAt expiresAt now state = effect) (hSessions : Sessioned state)
    (hResult : effect.result = .ok (secret, token, rows))
    (hHashes : ((effect.edits.apply state).tokens.map (·.hash)).Nodup)
    (hFirst : rows.head? = some first) :
    ∀ row ∈ rows, row ∈ (effect.edits.apply state).reservations ∧
      endedGroup (effect.edits.apply state).tokens row = reservationTelemetryGroup first token.id := by
  subst hEffect
  intro row hRow
  rcases registerScheduled_cases rootKey fresh name purpose session gpus startsAt expiresAt now
    state with ⟨hQuiet, hReplayed⟩ | ⟨_, _, _, hEffect⟩
  · obtain ⟨_, head, more, found, hStored, hFind, _, hEq⟩ := hReplayed _ hResult
    obtain ⟨_, rfl, rfl⟩ : _ ∧ _ ∧ _ := by simpa using hEq
    obtain rfl : head = first := by simpa using hFirst
    rw [hQuiet.2, Edits.apply_none] at hHashes ⊢
    obtain ⟨hIn, hSame⟩ := hSessions.replayed hStored row hRow
    refine ⟨hIn, hSame.trans (endedGroup_eq_telemetryGroup fun _ => ?_)⟩
    have hHash : token.hash = head.tokenHash := by simpa using find?_some hFind
    rw [← hHash, tokenByHash_of_mem hHashes (mem_of_find?_eq_some hFind)]
    rfl
  · rw [hEffect] at hResult hHashes ⊢
    obtain ⟨rfl, rfl, rfl⟩ : _ ∧ _ ∧ _ := by simpa [Effect.store] using hResult
    obtain ⟨i, gpu, _, rfl⟩ := mem_newReservations hRow
    obtain ⟨j, gpu', _, rfl⟩ := mem_newReservations (mem_of_mem_head? hFirst)
    refine ⟨mem_append_right _ hRow, (endedGroup_eq_telemetryGroup fun _ => ?_).trans rfl⟩
    exact congrArg (Option.map (·.id))
      (tokenByHash_of_mem hHashes (mem_append_right _ mem_cons_self))

omit [Digest] in
/-- The same with a key of the gateway. -/
theorem registerManaged_group {userKeyID groupID : String}
    {effect : Effect (Token × String × List Reservation)}
    (hEffect : registerManagedReservations rootKey fresh userKeyID purpose session gpus startsAt
      expiresAt now state = effect) (h : Keyed state) (hSessions : Sessioned state)
    (hResult : effect.result = .ok (token, groupID, rows)) (hFirst : rows.head? = some first) :
    ∀ row ∈ rows, row ∈ (effect.edits.apply state).reservations ∧
      endedGroup (effect.edits.apply state).tokens row = reservationTelemetryGroup first token.id := by
  subst hEffect
  intro row hRow
  rcases registerManaged_cases rootKey fresh userKeyID purpose session gpus startsAt expiresAt now
    state with ⟨hQuiet, hReplayed⟩ | ⟨found, _, _, _, _, hEffect⟩
  · obtain ⟨found, hKey, _, head, more, hStored, _, _, hEq⟩ := hReplayed _ hResult
    obtain ⟨_, _, rfl⟩ : _ ∧ _ ∧ _ := by simpa using hEq
    obtain rfl : head = first := by simpa using hFirst
    rw [hQuiet.2, Edits.apply_none]
    obtain ⟨hIn, hSame⟩ := hSessions.replayed hStored row hRow
    refine ⟨hIn, hSame.trans (endedGroup_eq_telemetryGroup fun hNone => absurd hNone ?_)⟩
    exact (h.managed hKey.keys).1 head (hSessions.replayed hStored head mem_cons_self).1
  · rw [hEffect] at hResult ⊢
    obtain ⟨rfl, rfl, rfl⟩ : _ ∧ _ ∧ _ := by simpa [Effect.store] using hResult
    obtain ⟨i, gpu, _, rfl⟩ := mem_newReservations hRow
    obtain ⟨j, gpu', _, rfl⟩ := mem_newReservations (mem_of_mem_head? hFirst)
    refine ⟨mem_append_right _ hRow,
      (endedGroup_eq_telemetryGroup fun hNone => absurd hNone ?_).trans rfl⟩
    exact fun hEmpty => by simpa [reservationRow] using congrArg String.toList hEmpty

end Booking

namespace Reporter

/-- What is kept along a run: the rows of every reported reservation are named as it was reported. -/
structure Sound (codec : Codec) (reporter : Reporter) : Prop where
  holds : reporter.daemon.Holds codec
  keyed : Keyed reporter.daemon.store.state
  sessions : Sessioned reporter.daemon.store.state
  named : ∀ upsert ∈ reporter.upserts, ∀ member ∈ upsert.members,
    ∀ row ∈ reporter.daemon.store.state.reservations, row.id = member.reservationID →
      endedGroup reporter.daemon.store.state.tokens row = upsert.groupID

variable (grace : Duration) {codec : Codec} {reporter : Reporter} {event : DaemonEvent}

omit [Digest] in
theorem sound_start : ({} : Reporter).Sound codec where
  holds := Daemon.holds_start codec
  keyed := .empty
  sessions := fun _ hNone => absurd hNone not_mem_nil
  named := fun _ hNone => absurd hNone not_mem_nil

/-- The upsert of a step has the name that the rows of the booking are reported under. -/
theorem booked_named (hSmall : Unicode.KeepsSmall) {daemon : Daemon}
    (hHolds : daemon.Holds codec) (h : Keyed daemon.store.state)
    (hSessions : Sessioned daemon.store.state) (hEvent : event.Admitted daemon) {token : Token}
    {rows : List Reservation} {first : Reservation}
    (hBooked : daemon.booked codec event = some (token, rows)) (hFirst : rows.head? = some first) :
    ∀ row ∈ rows, row ∈ (daemon.step grace codec event).store.state.reservations ∧
      endedGroup (daemon.step grace codec event).store.state.tokens row =
        reservationTelemetryGroup first token.id := by
  have hNodup := (Daemon.step_backed grace hSmall hHolds hEvent).hashes
  cases event with
  | monitorOnce tick now => cases hBooked
  | advance io => cases hBooked
  | request errors request =>
    simp only [Daemon.booked] at hBooked
    split at hBooked
    · rename_i call rootKey fresh booking hNext hBooking
      obtain ⟨called, op⟩ := call
      rw [Daemon.step_store, hNext] at hNodup ⊢
      have hAnswer : (daemon.store.perform codec errors (booking.effect rootKey fresh
          daemon.store.state)).2 = .ok (token, rows) := by
        revert hBooked
        cases (daemon.store.perform codec errors (booking.effect rootKey fresh
          daemon.store.state)).2 with
        | error message => exact nofun
        | ok answer => exact fun hSame => congrArg Except.ok (some.inj hSame)
      dsimp only at hNodup ⊢
      cases Daemon.calls_of_next hNext with
      | request errors request op hFree hCalls =>
        cases hCalls with
        | book _ _ name purpose session gpus startsAt expiresAt now hNode =>
          cases hBooking
          rw [BookingRequest.effect, Store.perform_map] at hAnswer
          obtain ⟨⟨secret, answer⟩, hCall, hEq⟩ := Except.map_eq_ok hAnswer
          obtain rfl : answer = (token, rows) := hEq
          obtain ⟨hOK, hState⟩ := Store.perform_ok codec hCall
          rw [Store.call, Op.effect, Store.perform_map, hState] at hNodup ⊢
          exact registerScheduled_group rfl hSessions hOK hNodup hFirst
        | bookManaged _ _ userKeyID purpose session gpus startsAt expiresAt now =>
          cases hBooking
          rw [BookingRequest.effect, Store.perform_map] at hAnswer
          obtain ⟨⟨found, groupID, answer⟩, hCall, hEq⟩ := Except.map_eq_ok hAnswer
          obtain ⟨rfl, rfl⟩ : found = token ∧ answer = rows := Prod.mk.inj hEq
          obtain ⟨hOK, hState⟩ := Store.perform_ok codec hCall
          rw [Store.call, Op.effect, Store.perform_map, hState]
          exact registerManaged_group rfl h hSessions hOK hFirst
        | _ => cases hBooking
    · cases hBooked

/-- Every such step keeps the names. -/
theorem step_sound (hDigest : ∀ hex, hashToken ("gk_" ++ hex) ≠ "")
    (hSmall : Unicode.KeepsSmall) (h : reporter.Sound codec)
    (hEvent : event.Admitted reporter.daemon) (hNames : reporter.daemon.NamesKeys event)
    (hNew : reporter.DrawsNew event) : (reporter.step grace codec event).Sound codec := by
  have hRows := fun row => @Daemon.step_rows _ _ grace codec reporter.daemon event hDigest hSmall
    h.holds h.keyed hEvent hNames row
  have hHolds := Daemon.step_holds hSmall grace h.holds hEvent
  refine ⟨hHolds, Daemon.step_keyed grace hDigest h.holds h.keyed hEvent hNames, ?_, ?_⟩
  · intro row hRow hSession other hOther hSame
    rcases hRows row hRow with ⟨old, hOld, hOn, _⟩ | ⟨call, _, hBooks⟩
    · rcases hRows other hOther with ⟨old', hOld', hOn', _⟩ | ⟨call, _, hBooks⟩
      · refine hOn'.group.trans ((h.sessions old hOld (hOn.session ▸ hSession) old' hOld' ?_).trans
          hOn.group.symm)
        rw [← hOn'.session, ← hOn.session, hSame]
      · exact (hBooks.session (hSame ▸ hSession) row hRow hSame.symm).symm
    · exact hBooks.session hSession other hOther hSame
  · intro upsert hUpsert member hMember row hRow hID
    rcases mem_append.mp hUpsert with hReported | hEmitted
    · rcases hRows row hRow with ⟨old, hOld, hOn, _⟩ | ⟨call, hCall, hBooks⟩
      · exact hOn.group.trans
          (h.named upsert hReported member hMember old hOld (hOn.id.symm.trans hID))
      · exact absurd hID.symm (hNew call hCall row.id hBooks.id upsert hReported member hMember)
    · obtain ⟨⟨token, rows⟩, hBooked, hEmit⟩ :=
        bind_eq_some_iff.mp (mem_toList.mp hEmitted)
      obtain ⟨first, hFirst, rfl⟩ := map_eq_some_iff.mp hEmit
      obtain ⟨booked, hIn, rfl⟩ := List.mem_map.mp hMember
      obtain ⟨hStored, hGroup⟩ := booked_named grace hSmall h.holds h.keyed h.sessions
        hEvent hBooked hFirst booked hIn
      obtain rfl : row = booked := inj_on_of_nodup_map hHolds.backed.rows hRow hStored hID
      exact hGroup

end Reporter

omit [Unicode] [Digest] in
/-- Only jobs add the group of a claim, which is not the name of a token. -/
theorem claimedTelemetryGroup_ne {event : JobReport} (h : hasPrefix group "tok_" = true) :
    claimedTelemetryGroup event ≠ group := by
  rintro rfl
  unfold claimedTelemetryGroup at h
  repeat' split at h
  all_goals simp [hasPrefix, String.toList_append, List.isPrefixOf] at h

omit [Unicode] [Digest] in
theorem added_of_row {windowStart windowEnd : Time} (tracker : Tracker)
    (hRow : row ∈ state.reservations) (hSampled : sampledRow windowStart windowEnd row = true)
    (hGroup : row.groupID ≠ "") :
    (row.gpu, row.groupID) ∈ addedGroups windowStart windowEnd state tracker := by
  refine mem_filter.mpr ⟨?_, decide_eq_true hGroup⟩
  apply mem_append_left
  apply mem_append_left
  exact List.mem_map.mpr ⟨row, mem_filter.mpr ⟨hRow, hSampled⟩,
    congrArg (row.gpu, ·) (if_pos hGroup)⟩

omit [Unicode] [Digest] in
/-- A group is added by a row that has it or by a job that runs without a reservation. -/
theorem added_cases {windowStart windowEnd : Time} {tracker : Tracker}
    (h : (gpu, group) ∈ addedGroups windowStart windowEnd state tracker) :
    (∃ row ∈ state.reservations, row.groupID ≠ "" ∧ row.groupID = group) ∨
      ∃ event, claimedTelemetryGroup event = group := by
  obtain ⟨hAdded, hNamed⟩ := mem_filter.mp h
  have hClaimed : ∀ event : JobReport,
      (gpu, group) ∈ event.gpus.map (·, claimedTelemetryGroup event) →
        claimedTelemetryGroup event = group := by
    intro event hIn
    obtain ⟨_, _, hSame⟩ := List.mem_map.mp hIn
    exact congrArg Prod.snd hSame
  rcases mem_append.mp hAdded with hOther | hRun
  · rcases mem_append.mp hOther with hRow | hObserved
    · obtain ⟨row, hRow, hSame⟩ := List.mem_map.mp hRow
      have hGroup : reservationTelemetryGroup row "" = group := congrArg Prod.snd hSame
      have hOwn : row.groupID ≠ "" := by
        intro hNone
        rw [reservationTelemetryGroup, if_neg (not_not.mpr hNone)] at hGroup
        exact of_decide_eq_true hNamed hGroup.symm
      rw [reservationTelemetryGroup, if_pos hOwn] at hGroup
      exact .inl ⟨row, mem_of_mem_filter hRow, hOwn, hGroup⟩
    · obtain ⟨job, _, hIn⟩ := mem_flatMap.mp hObserved
      exact .inr ⟨_, hClaimed _ hIn⟩
  · obtain ⟨job, _, hIn⟩ := mem_flatMap.mp hRun
    exact .inr ⟨_, hClaimed _ hIn⟩

end Reports

/-- Over every run of requests and passes with a clock that does not go back and with new names: a
window that a stored and unrevoked row overlaps is sampled under the group that the reservation was
reported with exactly if the keys of the node are managed by the gateway then. -/
theorem sampled_as_reported_iff_managed [Unicode] [Digest]
    (hSmall : ∀ c : Char, c.isLower → Unicode.lower c = c)
    (hDigest : ∀ hex, hashToken ("gk_" ++ hex) ≠ "") (grace : Duration) (codec : Codec)
    (events : List DaemonEvent)
    (hRun : Along (Reporter.step grace codec) (fun reporter event =>
      event.Admitted reporter.daemon ∧ reporter.daemon.NamesKeys event ∧ reporter.DrawsNew event) {}
      events) (read : MetricsRead) (tracker : Tracker) (windowStart windowEnd : Time) :
    let reporter := run (Reporter.step grace codec) {} events
    let state := reporter.daemon.store.state
    ∀ upsert ∈ reporter.upserts, ∀ member ∈ upsert.members, ∀ row ∈ state.reservations,
      row.id = member.reservationID → row.revoked = false →
      reservationStartsAt row < windowEnd → windowStart < row.expiresAt →
      (Samples windowStart windowEnd read state tracker row.gpu upsert.groupID ↔
        state.managedKeys = true) := by
  intro reporter state upsert hUpsert member hMember row hRow hID hLive hStarts hExpires
  have hSound : reporter.Sound codec := hRun.invariant (Reporter.Sound codec)
    (fun _ _ h hSound => Reporter.step_sound grace hDigest hSmall hSound h.1 h.2.1 h.2.2)
    Reporter.sound_start
  have hName := hSound.named upsert hUpsert member hMember row hRow hID
  have hSampled : sampledRow windowStart windowEnd row = true := by
    simp [sampledRow, hLive, hStarts, hExpires]
  rw [samples_iff, ← hName]
  constructor
  · intro hAdded
    by_contra hNode
    rw [Bool.not_eq_true] at hNode
    obtain ⟨hNone, token, hToken, hHash, _⟩ := hSound.keyed.node hNode row hRow
    rw [endedGroup_of_token hSound.holds.backed.hashes hToken hHash hNone] at hAdded
    rcases added_cases hAdded with ⟨other, hOther, hOwn, _⟩ | ⟨event, hClaim⟩
    · exact hOwn (hSound.keyed.node hNode other hOther).1
    · exact claimedTelemetryGroup_ne (hSound.holds.backed.nodeTokens hNode token hToken).2 hClaim
  · intro hManaged
    have hOwn := (hSound.keyed.managed hManaged).1 row hRow
    rw [endedGroup_of_group hOwn]
    exact added_of_row tracker hRow hSampled hOwn

section Samples

open scoped Plain

def idleTracker : Tracker := { bootID := "boot" }

def gpuReading : MetricsRead := { metrics := [{ gpu := 0, utilizationPct := some 50 }] }

def aliceUpsert : History.ReservationUpsert :=
  { groupID := "grp_1", holder := "alice", createdAt := 20, startsAt := 100, expiresAt := 200
    historyQuality := "complete", members := [⟨"res_1", 0⟩, ⟨"res_2", 1⟩] }

theorem sampled_as_reported_alice :
    let reporter := run (Reporter.step 2 aliceEndedCodec) {} aliceRequests
    reporter.upserts = [aliceUpsert] ∧
      Samples 120 150 gpuReading reporter.daemon.store.state idleTracker 0 "grp_1" := by
  have hRun : Along (Reporter.step 2 aliceEndedCodec) (fun reporter event =>
      DaemonEvent.Admitted reporter.daemon event ∧
        Daemon.NamesKeys reporter.daemon event ∧ Reporter.DrawsNew reporter event)
      {} aliceRequests := by decide +kernel
  have hUpserts : (run (Reporter.step 2 aliceEndedCodec) {}
      aliceRequests).upserts = [aliceUpsert] := by decide +kernel
  have hState : (run (Reporter.step 2 aliceEndedCodec) {}
      aliceRequests).daemon.store.state = aliceBooked := by decide +kernel
  have hIff := @sampled_as_reported_iff_managed ascii plain ascii_lower_of_isLower
    hashToken_ne_empty 2 aliceEndedCodec aliceRequests hRun gpuReading idleTracker 120 150
  dsimp only at hIff
  rw [hUpserts, hState] at hIff
  refine ⟨hUpserts, ?_⟩
  rw [hState]
  exact (hIff aliceUpsert mem_cons_self ⟨"res_1", 0⟩ mem_cons_self (aliceRow "res_1" 0)
    mem_cons_self rfl rfl (by decide) (by decide)).mpr rfl

/-- Alice books a GPU on a node that issues its keys itself. -/
def aliceBooksLocally : List DaemonEvent :=
  [.request {} (.book (.ok true) aliceDraws "alice" "" "sess_1" [0] 100 200 20)]

/-- The reservation is reported under the id of its token; a sample in its window lists no group. -/
theorem sampled_without_group :
    let reporter := run (Reporter.step 2 sessionCodec) {} aliceBooksLocally
    Along (Reporter.step 2 sessionCodec) (fun reporter event =>
        event.Admitted reporter.daemon ∧ reporter.daemon.NamesKeys event ∧ reporter.DrawsNew event)
        {} aliceBooksLocally ∧
      reporter.daemon.store.state.reservations = [sessionRow] ∧
      reporter.upserts.map (fun upsert => (upsert.groupID, upsert.members)) =
        [("tok_2", [⟨"res_3", 0⟩])] ∧
      sampleTelemetryMetrics 120 150 gpuReading reporter.daemon.store.state idleTracker =
        some { windowStart := 120, windowEnd := 150, status := "ok"
               gpus := [{ gpu := 0, groupIDs := [], utilizationPct := some 50 }] } := by
  decide +kernel

end Samples

end GPUardian
