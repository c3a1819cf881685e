import GPUardian.Daemon.Sampling

/-! The reservations and keys in the states that the daemon reaches, whatever saves fail on the way. -/
namespace GPUardian

open GoStrings GoSlice List Interleaving Daemon

/-- A row counts until it ends or is revoked. -/
def Reservation.counts (row : Reservation) : Bool := row.active && !row.revoked

theorem EndedFrom.counts {row later : Reservation} (h : EndedFrom row later)
    (hLater : later.counts = true) : row.counts = true := by
  have hRevoked := h.revoked
  simp_all [Reservation.counts, h.active]

/-- A call keeps the rows, or every later row is one of before and counts only if that one did. -/
theorem Op.rows_from [Unicode] [Digest] {op : Op} (state : State) (hDaemon : op.daemon = true) :
    state.reservations ⊆ ((op.effect state).edits.apply state).reservations ∨
      ∀ later ∈ ((op.effect state).edits.apply state).reservations,
        ∃ row ∈ state.reservations, row.id = later.id ∧
          (later.counts = true → row.counts = true) := by
  by_cases hNarrowing : op.narrowing = true
  · refine .inr fun later hLater => ?_
    obtain ⟨row, hRow, hFrom, _⟩ := Op.ended_from hNarrowing hLater
    exact ⟨row, hRow, by rw [hFrom.same], hFrom.counts⟩
  refine Op.edits_ind fun edits hEdited => ?_
  cases hEdited with
  | old _ _ hOld => exact absurd hDaemon (by simp [hOld])
  | quiet | confirmed | issued => exact .inl (Subset.refl _)
  | scheduled | managed => exact .inl (subset_append_left _ _)
  | cutOver =>
    -- the cutover gives a row another key and a group, and leaves whether it counts
    refine .inr fun later hLater => ?_
    obtain ⟨_, old, _, hOld, rfl⟩ := mem_rebindReservations hLater
    exact ⟨old, hOld, rfl, id⟩
  | _ => exact absurd rfl hNarrowing

/-- Over every run of requests and passes with a clock that does not go back, whatever saves fail:
a reservation that has ended or was revoked does not count after the next step either. -/
theorem ended_reservation_stays_ended [Unicode] [Digest]
    (hSmall : ∀ c : Char, c.isLower → Unicode.lower c = c)
    (grace : Duration) (codec : Codec) (events : List DaemonEvent) (event : DaemonEvent)
    (hRun : Along (step grace codec) (fun daemon event => event.Admitted daemon) {}
      (events ++ [event])) :
    let before := run (step grace codec) {} events
    let after := run (step grace codec) {} (events ++ [event])
    ∀ row ∈ before.store.state.reservations, ∀ later ∈ after.store.state.reservations,
      later.id = row.id → row.counts = false → later.counts = false := by
  intro before after row hRow later hLater hID hEnded
  obtain ⟨hEarlier, hEvent, _⟩ := along_append.mp hRun
  have hBefore : before.Holds codec := hEarlier.invariant (Holds codec)
    (fun _ _ hAdmitted h => step_holds hSmall grace h hAdmitted) (holds_start codec)
  have hAfter : after = before.step grace codec event := Interleaving.run_append _ _ _ _
  have hRows := (step_backed grace hSmall hBefore hEvent).rows
  rw [hAfter] at hLater
  rcases step_state_cases grace event hBefore.synced with
    hSame | ⟨errors, op, hNext, hState⟩
  · rw [hSame] at hLater
    rwa [inj_on_of_nodup_map hBefore.backed.rows hLater hRow hID]
  · rw [hState] at hLater hRows
    rcases Op.rows_from before.store.state (next_careful grace hBefore hEvent hNext).1 with
      hKept | hFrom
    · rwa [inj_on_of_nodup_map hRows hLater (hKept hRow) hID]
    · obtain ⟨old, hOld, hSameID, hCounts⟩ := hFrom later hLater
      rw [inj_on_of_nodup_map hBefore.backed.rows hOld hRow (hSameID.trans hID), hEnded] at hCounts
      exact Bool.eq_false_iff.mpr fun hLater => Bool.false_ne_true (hCounts hLater)

open scoped Plain

/-- Alice's booking has expired, the save of the prune fails, and GPU 0 is booked again. -/
def aliceRebooks : DaemonEvent :=
  .request {} (.bookManaged (.ok true) { groupHex := "2", reservationHex := fun _ => "3" } "uk_1" "" ""
    [0] 300 400 260)

def alicePruneFails : List DaemonEvent :=
  aliceExpires ++ [.advance { now := 250, errors := { write := some "no space left on device" } }]

def aliceRebooked : State :=
  { aliceEnded with
    reservations := aliceEnded.reservations ++ [{ aliceRow "res_3" 0 with
      groupID := "grp_2", createdAt := 260, startsAt := 300, expiresAt := 400 }] }

def aliceRebookedCodec : Codec := tableCodec [aliceKeyed, aliceBooked, aliceEnded, aliceRebooked]

theorem ended_reservation_stays_ended_alice :
    let after := run (step 2 aliceRebookedCodec) {} (alicePruneFails ++ [aliceRebooks])
    after.store.state = aliceRebooked ∧
      ∀ later ∈ after.store.state.reservations, later.id = "res_1" → later.counts = false := by
  have hRun : Along (step 2 aliceRebookedCodec) (fun daemon event =>
      DaemonEvent.Admitted daemon event) {} (alicePruneFails ++ [aliceRebooks]) := by decide +kernel
  have hBefore : (run (step 2 aliceRebookedCodec) {} alicePruneFails).store.state = aliceEnded := by
    decide +kernel
  have hStays := @ended_reservation_stays_ended ascii plain ascii_lower_of_isLower 2
    aliceRebookedCodec alicePruneFails _ hRun { aliceRow "res_1" 0 with active := false }
  rw [hBefore] at hStays
  exact ⟨by decide +kernel, fun later hLater hID => hStays mem_cons_self later hLater hID rfl⟩

end GPUardian
