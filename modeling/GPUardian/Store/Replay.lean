import GPUardian.Store.Revoking
import Mathlib.Data.List.Perm.Subperm

/-! What a booking that succeeds has booked. A request whose session id is stored is answered
from the stored rows, whatever has become of them; any other request adds its own. -/
namespace GPUardian

open GoStrings GoSlice List

/-- Whose key a booking is made with. -/
inductive Booker where
  | local (name : String)
  | managed (userKeyID : String)

/-- A call of `RegisterScheduledReservationsWithSession` or `RegisterManagedReservations`. -/
structure BookingRequest where
  booker : Booker
  purpose : String := ""
  session : String := ""
  gpus : List Int
  startsAt : Time := 0
  expiresAt : Time
  now : Time

namespace BookingRequest

/-- The start of the window that is requested. -/
def start (request : BookingRequest) : Time := requestedStart request.startsAt request.now

/-- The rows that are stored under the session of the request. -/
def stored (request : BookingRequest) (state : State) : List Reservation :=
  sessionReservations state (trimSpace request.session)

variable [Unicode] [Digest]

/-- The call, with the token and the rows it returns. -/
def effect (request : BookingRequest) (rootKey : RootKeyCheck) (fresh : Fresh) (state : State) :
    Effect (Token × List Reservation) :=
  match request.booker with
  | .local name =>
    (registerScheduledReservationsWithSession rootKey fresh name request.purpose request.session
      request.gpus request.startsAt request.expiresAt request.now state).map
        fun answer => (answer.2.1, answer.2.2)
  | .managed userKeyID =>
    (registerManagedReservations rootKey fresh userKeyID request.purpose request.session
      request.gpus request.startsAt request.expiresAt request.now state).map
        fun answer => (answer.1, answer.2.2)

end BookingRequest

/-- The stored rows fit the request: as many as GPUs, each on one of them and in the window. -/
structure Fits (rows : List Reservation) (gpus : List Int) (startsAt expiresAt : Time) : Prop where
  length : rows.length = gpus.length
  gpu : ∀ row ∈ rows, row.gpu ∈ gpus
  window : ∀ row ∈ rows, reservationStartsAt row = startsAt ∧ row.expiresAt = expiresAt

variable {rows : List Reservation}

theorem sameReservationRequest_fits [Unicode] {name purpose : String} {gpus : List Int}
    {startsAt expiresAt : Time}
    (h : sameReservationRequest rows name purpose gpus startsAt expiresAt = true) :
    rows ≠ [] ∧ Fits rows gpus startsAt expiresAt := by
  unfold sameReservationRequest at h
  split at h
  · cases h
  rename_i hLength
  rw [not_or, not_not] at hLength
  simp only [all_eq_true, Bool.and_eq_true, contains_eq_mem, decide_eq_true_eq,
    beq_iff_eq] at h
  refine ⟨fun hEmpty => hLength.2 (by rw [hEmpty]; rfl), hLength.1, fun row hRow => ?_,
    fun row hRow => ?_⟩
  · exact (h row hRow).1.1.1.1
  · exact ⟨(h row hRow).1.2, (h row hRow).2⟩

/-- The answer to a booking: the stored rows of its session with the token of the first, or new
rows under a token that is not revoked. -/
inductive Booked (request : BookingRequest) (state : State) (token : Token)
    (rows : List Reservation) (after : State) : Prop where
  | replayed (first : Reservation) (more : List Reservation) (hRows : rows = first :: more)
      (hStored : request.stored state = rows)
      (hFits : Fits rows request.gpus request.start request.expiresAt)
      (hHash : token.hash = first.tokenHash)
      (hToken : match request.booker with
        | .local _ => state.tokens.find? (·.hash == first.tokenHash) = some token
        | .managed _ => token.revoked = false)
      (hAfter : after = state)
  | added (fresh : Fresh) (groupID : String) (hStored : request.stored state = [])
      (hRows : rows = newReservations fresh (reservationRow token groupID request.purpose
        (trimSpace request.session) request.start request.expiresAt request.now) request.gpus)
      (hToken : token.revoked = false)
      (hAfter : after.reservations = state.reservations ++ rows)

variable {request : BookingRequest} {state : State} {token : Token}

variable {fresh : Fresh}

section Inversion

variable [Unicode] [Digest]

variable {rootKey : RootKeyCheck}

/-- A booking that succeeds was bookable, its answer is stored or new, and its key is stored then. -/
theorem BookingRequest.effect_ok
    (h : (request.effect rootKey fresh state).result = .ok (token, rows)) :
    Bookable request.gpus request.start request.expiresAt request.now ∧
      Booked request state token rows ((request.effect rootKey fresh state).edits.apply state) ∧
      token ∈ ((request.effect rootKey fresh state).edits.apply state).tokens := by
  unfold effect at h ⊢
  cases hBooker : request.booker with
  | «local» name =>
    rw [hBooker] at h
    obtain ⟨⟨secret, answer⟩, hAnswer, hEq⟩ := Effect.map_ok h
    obtain rfl : answer = (token, rows) := hEq
    dsimp only [Effect.map]
    rcases registerScheduled_cases rootKey fresh name request.purpose request.session request.gpus
      request.startsAt request.expiresAt request.now state with
      ⟨hQuiet, hReplayed⟩ | ⟨hBookable, hStored, _, hEffect⟩
    · obtain ⟨hBookable, first, more, found, hStored, hFind, hSame, hEq⟩ := hReplayed _ hAnswer
      obtain ⟨_, rfl, rfl⟩ : _ ∧ _ ∧ _ := by simpa using hEq
      rw [hQuiet.2, Edits.apply_none]
      refine ⟨hBookable, .replayed first more rfl hStored (sameReservationRequest_fits hSame).2 ?_ ?_
        rfl, mem_of_find?_eq_some hFind⟩
      · simpa using find?_some hFind
      · rw [hBooker]
        exact hFind
    · rw [hEffect] at hAnswer ⊢
      obtain ⟨rfl, rfl, rfl⟩ : _ ∧ _ ∧ _ := by simpa [Effect.store] using hAnswer
      exact ⟨hBookable, .added fresh "" hStored rfl rfl rfl, mem_append_right _ mem_cons_self⟩
  | managed userKeyID =>
    rw [hBooker] at h
    obtain ⟨⟨answered, groupID, answer⟩, hAnswer, hEq⟩ := Effect.map_ok h
    obtain ⟨rfl, rfl⟩ : answered = token ∧ answer = rows := Prod.mk.inj hEq
    dsimp only [Effect.map]
    rcases registerManaged_cases rootKey fresh userKeyID request.purpose request.session request.gpus
      request.startsAt request.expiresAt request.now state with
      ⟨hQuiet, hReplayed⟩ | ⟨found, hKey, hBookable, hStored, _, hEffect⟩
    · obtain ⟨found, hKey, hBookable, first, more, hStored, hHash, hSame, hEq⟩ := hReplayed _ hAnswer
      obtain ⟨rfl, _, rfl⟩ : _ ∧ _ ∧ _ := by simpa using hEq
      rw [hQuiet.2, Edits.apply_none]
      refine ⟨hBookable, .replayed first more rfl hStored (sameReservationRequest_fits hSame).2
        hHash.symm ?_ rfl, hKey.stored⟩
      rw [hBooker]
      exact hKey.unrevoked
    · rw [hEffect] at hAnswer ⊢
      obtain ⟨rfl, rfl, rfl⟩ : _ ∧ _ ∧ _ := by simpa [Effect.store] using hAnswer
      exact ⟨hBookable, .added fresh _ hStored rfl hKey.unrevoked rfl, hKey.stored⟩

end Inversion

section Standing

/-- Every requested GPU is booked for the window under the token, which is not revoked. -/
structure Stands (request : BookingRequest) (token : Token) (rows : List Reservation)
    (state : State) : Prop where
  booked : ∀ gpu ∈ request.gpus, ∃ row ∈ rows, row ∈ state.reservations ∧ row.gpu = gpu ∧
    row.active = true ∧ row.revoked = false ∧ reservationStartsAt row = request.start ∧
    row.expiresAt = request.expiresAt ∧ row.tokenHash = token.hash
  unrevoked : token.revoked = false

/-- Nothing has happened to the stored rows of the session: they are on different GPUs, none has
been released or revoked, they have one token, and a token that came with them is not revoked. -/
structure SessionIntact (request : BookingRequest) (state : State) : Prop where
  distinct : ((request.stored state).map (·.gpu)).Nodup
  live : ∀ row ∈ request.stored state, row.active = true ∧ row.revoked = false
  bound : ∀ row ∈ request.stored state, ∀ other ∈ request.stored state,
    row.tokenHash = other.tokenHash
  key : ∀ first ∈ (request.stored state).head?, ∀ name, request.booker = .local name →
    ∀ token, state.tokens.find? (·.hash == first.tokenHash) = some token → token.revoked = false

variable {rows : List Reservation} {gpus : List Int} {startsAt expiresAt : Time}

/-- Rows that fit are on all GPUs exactly if they are on different ones. -/
theorem Fits.gpus_iff (h : Fits rows gpus startsAt expiresAt) (hNodup : gpus.Nodup) :
    (∀ gpu ∈ gpus, ∃ row ∈ rows, row.gpu = gpu) ↔ (rows.map (·.gpu)).Nodup := by
  have hLength : (rows.map (·.gpu)).length = gpus.length := by rw [length_map, h.length]
  constructor
  · intro hAll
    have hSub : gpus.Subperm (rows.map (·.gpu)) := hNodup.subperm fun gpu hGPU => by
      obtain ⟨row, hRow, rfl⟩ := hAll gpu hGPU
      exact mem_map_of_mem hRow
    exact (hSub.perm_of_length_le hLength.le).nodup_iff.mp hNodup
  · intro hDistinct gpu hGPU
    have hSub : (rows.map (·.gpu)).Subperm gpus := hDistinct.subperm fun other hOther => by
      obtain ⟨row, hRow, rfl⟩ := mem_map.mp hOther
      exact h.gpu row hRow
    have hMem := (hSub.perm_of_length_le hLength.ge).mem_iff.mpr hGPU
    obtain ⟨row, hRow, hEq⟩ := mem_map.mp hMem
    exact ⟨row, hRow, hEq⟩

variable {request : BookingRequest} {state after : State} {token : Token}

theorem mem_stored {row : Reservation} (h : row ∈ request.stored state) :
    row ∈ state.reservations := by
  unfold BookingRequest.stored sessionReservations at h
  split at h
  · cases h
  · exact (mem_filter.mp h).1

/-- New rows are on the requested GPUs, in the window and under the token. -/
theorem stands_added {groupID : String}
    (hRows : rows = newReservations fresh (reservationRow token groupID request.purpose
      (trimSpace request.session) request.start request.expiresAt request.now) request.gpus)
    (hToken : token.revoked = false) (hAfter : after.reservations = state.reservations ++ rows) :
    Stands request token rows after := by
  refine ⟨fun gpu hGPU => ?_, hToken⟩
  obtain ⟨i, hi, rfl⟩ := mem_iff_getElem.mp hGPU
  have hRow : rows[i]? = some
      { reservationRow token groupID request.purpose (trimSpace request.session) request.start
          request.expiresAt request.now with
        id := "res_" ++ fresh.reservationHex i, gpu := request.gpus[i] } := by
    rw [hRows, newReservations, getElem?_mapIdx, getElem?_eq_getElem hi]
    rfl
  have hMem := mem_of_getElem? hRow
  refine ⟨_, hMem, ?_, rfl, rfl, rfl, ?_, rfl, rfl⟩
  · rw [hAfter]
    exact mem_append_right _ hMem
  · exact reservationRow_startsAt token groupID request.purpose (trimSpace request.session)
      request.startsAt request.expiresAt request.now

/-- An answer has a row for one of the GPUs in the window. -/
theorem Booked.exists_row (h : Booked request state token rows after)
    (hNonempty : request.gpus ≠ []) :
    ∃ row ∈ rows, row ∈ after.reservations ∧ row.gpu ∈ request.gpus ∧
      reservationStartsAt row = request.start ∧ row.expiresAt = request.expiresAt := by
  cases h with
  | replayed first more hRows hStored hFits hHash hToken hAfter =>
    have hFirst : first ∈ rows := hRows ▸ mem_cons_self
    refine ⟨first, hFirst, ?_, hFits.gpu first hFirst, hFits.window first hFirst⟩
    rw [hAfter]
    exact mem_stored (hStored ▸ hFirst)
  | added fresh groupID hStored hRows hToken hAfter =>
    obtain ⟨gpu, hGPU⟩ := exists_mem_of_ne_nil _ hNonempty
    obtain ⟨row, hRow, hMem, hEq, _, _, hStart, hEnd, _⟩ :=
      (stands_added hRows hToken hAfter).booked gpu hGPU
    exact ⟨row, hRow, hMem, hEq ▸ hGPU, hStart, hEnd⟩

/-- A stored session serves the request exactly if nothing has happened to it. -/
theorem Booked.stands_iff (h : Booked request state token rows after)
    (hNodup : request.gpus.Nodup) :
    Stands request token rows after ↔ SessionIntact request state := by
  cases h with
  | added fresh groupID hStored hRows hToken hAfter =>
    refine ⟨fun _ => ?_, fun _ => stands_added hRows hToken hAfter⟩
    constructor
    all_goals simp [hStored]
  | replayed first more hRows hStored hFits hHash hToken hAfter =>
    subst hAfter
    have hFirst : first ∈ rows := hRows ▸ mem_cons_self
    have hHead : (request.stored after).head? = some first := by rw [hStored, hRows]; rfl
    constructor
    · intro hStands
      have hDistinct := (hFits.gpus_iff hNodup).mp fun gpu hGPU => by
        obtain ⟨row, hRow, _, hEq, _⟩ := hStands.booked gpu hGPU
        exact ⟨row, hRow, hEq⟩
      -- The row that serves a GPU is the only one on it.
      have hRow : ∀ row ∈ rows, row.active = true ∧ row.revoked = false ∧
          row.tokenHash = token.hash := by
        intro row hRow
        obtain ⟨other, hOther, _, hGPU, hActive, hRevoked, _, _, hBound⟩ :=
          hStands.booked row.gpu (hFits.gpu row hRow)
        obtain rfl := inj_on_of_nodup_map hDistinct hOther hRow hGPU
        exact ⟨hActive, hRevoked, hBound⟩
      refine ⟨hStored ▸ hDistinct, fun row hMem => ?_, fun row hMem other hOther => ?_,
        fun found hFound name hBooker key hKey => ?_⟩
      · rw [hStored] at hMem
        exact ⟨(hRow row hMem).1, (hRow row hMem).2.1⟩
      · rw [hStored] at hMem hOther
        rw [(hRow row hMem).2.2, (hRow other hOther).2.2]
      · obtain rfl : first = found := Option.some.inj (hHead.symm.trans hFound)
        rw [hBooker] at hToken
        obtain rfl : token = key := Option.some.inj (hToken.symm.trans hKey)
        exact hStands.unrevoked
    · intro hIntact
      refine ⟨fun gpu hGPU => ?_, ?_⟩
      · obtain ⟨row, hRow, hEq⟩ := (hFits.gpus_iff hNodup).mpr (hStored ▸ hIntact.distinct) gpu hGPU
        have hMem : row ∈ request.stored after := hStored ▸ hRow
        have hBound := hIntact.bound row hMem first (hStored ▸ hFirst)
        exact ⟨row, hRow, mem_stored hMem, hEq, (hIntact.live row hMem).1,
          (hIntact.live row hMem).2, (hFits.window row hRow).1, (hFits.window row hRow).2,
          hBound.trans hHash.symm⟩
      · cases hBooker : request.booker with
        | «local» name =>
          rw [hBooker] at hToken
          exact hIntact.key first hHead name hBooker token hToken
        | managed userKeyID =>
          rw [hBooker] at hToken
          exact hToken

/-- Whatever state the call finds, a booking that succeeds stands exactly if nothing has happened
to the stored rows of its session. -/
theorem booking_stands_iff [Unicode] [Digest] (codec : Codec) {store : Store}
    {request : BookingRequest} {rootKey : RootKeyCheck} {fresh : Fresh} {errors : SaveErrors}
    {token : Token} {rows : List Reservation}
    (hOk : (store.perform codec errors (request.effect rootKey fresh store.state)).2 =
      .ok (token, rows)) :
    Stands request token rows
        (store.perform codec errors (request.effect rootKey fresh store.state)).1.state ↔
      SessionIntact request store.state := by
  obtain ⟨hResult, hState⟩ := Store.perform_ok codec hOk
  obtain ⟨hBookable, hBooked, _⟩ := BookingRequest.effect_ok hResult
  rw [hState]
  exact hBooked.stands_iff hBookable.nodup

end Standing

section Samples

open scoped Plain

/-- Alice books GPU 0 for a session. -/
def aliceBooking (now : Time) : BookingRequest :=
  { booker := .local "alice", session := "sess_1", gpus := [0], startsAt := 100, expiresAt := 200
    now := now }

def aliceDraws : Fresh :=
  { secretHex := "1", tokenHex := "2", reservationHex := fun _ => "3" }

/-- The call of the booking that the daemon makes. -/
def aliceBooksSession (now : Time) : SaveErrors × Op :=
  ({}, .registerScheduledReservationsWithSession (.ok true) aliceDraws "alice" "" "sess_1" [0] 100
    200 now)

def sessionToken : Token :=
  { id := "tok_2", hash := "gk_1", secret := "gk_1", name := "alice", mode := "reserved"
    createdAt := 20, expiresAt := 200 }

def sessionRow : Reservation :=
  { id := "res_3", externalSessionID := "sess_1", gpu := 0, tokenHash := "gk_1", holder := "alice"
    createdAt := 20, startsAt := 100, expiresAt := 200, active := true }

def sessionBooked : State := { tokens := [sessionToken], reservations := [sessionRow] }

def sessionRevoked : State :=
  { tokens := [{ sessionToken with revoked := true }]
    reservations := [{ sessionRow with revoked := true }] }

def sessionCodec : Codec := tableCodec [sessionBooked, sessionRevoked]

theorem booking_stands_iff_alice :
    let store : Store := ⟨{}, {}, none⟩
    let call := store.perform sessionCodec {}
      ((aliceBooking 20).effect (.ok true) aliceDraws store.state)
    call.2 = .ok (sessionToken, [sessionRow]) ∧
      Stands (aliceBooking 20) sessionToken [sessionRow] call.1.state := by
  have hOk : (Store.perform sessionCodec {} ((aliceBooking 20).effect (.ok true) aliceDraws {})
      ⟨{}, {}, none⟩).2 = .ok (sessionToken, [sessionRow]) := by decide +kernel
  have hStored : (aliceBooking 20).stored {} = [] := by decide +kernel
  refine ⟨hOk, (@booking_stands_iff ascii plain sessionCodec ⟨{}, {}, none⟩ (aliceBooking 20)
    (.ok true) aliceDraws {} sessionToken [sessionRow] hOk).mpr ?_⟩
  constructor
  all_goals simp [hStored]

/-- Alice's reservation is revoked, and the same request is still answered with it. -/
theorem booking_replays_revoked :
    let store := (⟨{}, {}, none⟩ : Store).run sessionCodec
      [aliceBooksSession 20, ({}, .revoke "res_3" 30)]
    store.perform sessionCodec {} ((aliceBooking 40).effect (.ok true) aliceDraws store.state) =
        (store, .ok ({ sessionToken with revoked := true }, [{ sessionRow with revoked := true }])) ∧
      ¬ Stands (aliceBooking 40) { sessionToken with revoked := true }
        [{ sessionRow with revoked := true }] store.state := by
  refine ⟨by decide +kernel, fun hStands => ?_⟩
  exact absurd hStands.unrevoked (by decide)

end Samples

end GPUardian
