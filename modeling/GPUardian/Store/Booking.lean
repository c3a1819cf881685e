import GPUardian.Library.Calendar
import GPUardian.Store.Memory
import GPUardian.Store.Shrinking
import Mathlib.Data.Int.ConditionallyCompleteOrder
import Mathlib.Order.ConditionallyCompleteLattice.Basic

/-! No GPU is booked twice. The reservation rows are read as a calendar; every
operation of the daemon ends rows, drops rows, or books rows that the calendar has
room for. -/
namespace GPUardian

open GoStrings GoSlice Calendar List

/-- A reservation as a slot of its GPU. -/
def Reservation.slot (reservation : Reservation) : Slot Int Time :=
  { resource := reservation.gpu
    start := reservationStartsAt reservation
    stop := reservation.expiresAt
    live := reservation.active && !reservation.revoked }

def calendar (reservations : List Reservation) : List (Slot Int Time) :=
  reservations.map Reservation.slot

/-- The three ways an operation changes the reservation rows. -/
inductive Rebooks (before : List Reservation) : List Reservation → Prop where
  | ended {after : List Reservation}
      (h : List.Forall₂ (fun a b => Ends (Reservation.slot a) b.slot) before after) :
      Rebooks before after
  | thinned {after : List Reservation} (h : List.Sublist after before) : Rebooks before after
  | booked {rows : List Reservation} (hGPUs : (rows.map (·.gpu)).Nodup)
      (hFree : ∀ old ∈ before, ∀ new ∈ rows, Compatible old.slot new.slot) :
      Rebooks before (before ++ rows)

theorem Rebooks.refl (rows : List Reservation) : Rebooks rows rows :=
  .thinned (Sublist.refl rows)

theorem Rebooks.exclusive {before after : List Reservation} (h : Rebooks before after)
    (hExclusive : Exclusive (calendar before)) : Exclusive (calendar after) := by
  cases h with
  | ended h =>
    refine hExclusive.end_slots ?_
    rw [calendar, calendar, forall₂_map_left_iff, forall₂_map_right_iff]
    exact h
  | thinned h => exact hExclusive.thin (h.map Reservation.slot)
  | @booked rows hGPUs hFree =>
    rw [calendar, map_append]
    refine hExclusive.book (by rwa [map_map]) ?_
    intro old hOld new hNew
    obtain ⟨oldRow, hOldRow, rfl⟩ := mem_map.mp hOld
    obtain ⟨newRow, hNewRow, rfl⟩ := mem_map.mp hNew
    exact hFree oldRow hOldRow newRow hNewRow

theorem rebooks_update {f : Nat → Reservation → Reservation} (rows : List Reservation)
    (h : ∀ i row, Ends (Reservation.slot row) (f i row).slot) :
    Rebooks rows ((Edit.update f).onList rows) :=
  .ended (Edit.forall₂_update rows fun i row _ => h i row)

/-- Setting `revoked` or clearing `active` under a condition ends a slot. -/
theorem ends_revoked (row : Reservation) (c : Bool) :
    Ends row.slot (if c then { row with revoked := true } else row).slot := by
  cases c with
  | false => exact Ends.refl _
  | true => exact ⟨rfl, rfl, rfl, by simp [Reservation.slot]⟩

theorem ends_released (row : Reservation) (c : Bool) :
    Ends row.slot (if c then { row with active := false } else row).slot := by
  cases c with
  | false => exact Ends.refl _
  | true => exact ⟨rfl, rfl, rfl, by simp [Reservation.slot]⟩

theorem newReservations_gpus (fresh : Fresh) (row : Reservation) (gpus : List Int) :
    (newReservations fresh row gpus).map (·.gpu) = gpus := by
  apply ext_getElem?
  intro i
  simp [newReservations, Function.comp_def]

theorem mem_newReservations {fresh : Fresh} {row new : Reservation} {gpus : List Int}
    (h : new ∈ newReservations fresh row gpus) :
    ∃ i, ∃ gpu ∈ gpus, new = { row with id := "res_" ++ fresh.reservationHex i, gpu := gpu } := by
  obtain ⟨i, hi, rfl⟩ := mem_mapIdx.mp h
  exact ⟨i, gpus[i], getElem_mem _, rfl⟩

/-- A request without a conflict has room in the calendar. -/
theorem compatible_of_no_conflict {existing : List Reservation} {gpus : List Int} {fresh : Fresh}
    {row : Reservation}
    (h : bookingConflict existing gpus (reservationStartsAt row) row.expiresAt = none) :
    ∀ old ∈ existing, ∀ new ∈ newReservations fresh row gpus, Compatible old.slot new.slot := by
  intro old hOld new hNew hGPU hLiveOld _
  obtain ⟨i, gpu, hMem, rfl⟩ := mem_newReservations hNew
  have hNone := findSome?_eq_none_iff.mp h gpu hMem
  rw [Option.map_eq_none_iff, find?_eq_none] at hNone
  have hOverlap := hNone old hOld
  simp only [Reservation.slot, Bool.and_eq_true, Bool.not_eq_true'] at hGPU hLiveOld
  refine disjoint_window fun ⟨hStart, hStop⟩ => hOverlap ?_
  simp only [Bool.and_eq_true, beq_iff_eq]
  refine ⟨hGPU, ?_⟩
  simp only [reservationOverlaps, hLiveOld.1, hLiveOld.2, Bool.not_true, Bool.or_self,
    Bool.false_eq_true, if_false, Bool.and_eq_true, decide_eq_true_eq]
  exact ⟨hStart, hStop⟩

section Operations

variable [Unicode] [Digest]

/-- What an operation of the daemon does to the reservation rows. -/
theorem Op.rebooks (state : State) (op : Op) (hDaemon : op.daemon = true) :
    Rebooks state.reservations ((op.effect state).edits.apply state).reservations := by
  refine Op.edits_ind fun edits hEdited => ?_
  cases hEdited with
  | old _ _ hOp => exact absurd hDaemon (by simp [hOp])
  | scheduled _ _ _ _ _ _ _ _ _ _ _ _ hGPUs _ _ hFree
  | managed _ _ _ _ _ _ _ _ _ _ _ _ _ _ hGPUs _ _ hFree =>
    refine .booked (by rwa [newReservations_gpus]) (compatible_of_no_conflict ?_)
    rw [reservationRow_startsAt]
    exact hFree
  | cutOver => exact rebooks_update _ fun _ _ => ⟨rfl, rfl, rfl, id⟩
  | revokedGroup | revokedRows => exact rebooks_update _ fun _ row => ends_revoked row _
  | scopes => exact rebooks_update _ fun _ row => ends_released row _
  | pruned | prunedEntitlements => exact .thinned filter_sublist
  | _ => exact .refl _

/-- In every run of the daemon's operations on an empty store, whatever saves fail, any
two rows for one GPU that are active and not revoked have disjoint windows. -/
theorem reservations_never_double_booked (codec : Codec) (spare : Spare)
    (calls : List (SaveErrors × Spare × Op)) (hDaemon : ∀ call ∈ calls, call.2.2.daemon = true) :
    ((Memory.load spare {} none).run codec calls).state.reservations.Pairwise fun a b =>
      a.gpu = b.gpu → a.active = true → a.revoked = false → b.active = true → b.revoked = false →
        Disjoint (Set.Ico (reservationStartsAt a) a.expiresAt)
          (Set.Ico (reservationStartsAt b) b.expiresAt) := by
  have hState : ((Memory.load spare {} none).run codec calls).state =
      ((⟨{}, {}, none⟩ : Store).run codec (calls.map fun call => (call.1, call.2.2))).state := by
    rw [← Memory.store_load spare {} none, ← Memory.store_run]
    rfl
  have hExclusive : Exclusive (calendar
      ((Memory.load spare {} none).run codec calls).state.reservations) := by
    rw [hState]
    have hMeets : (⟨{}, {}, none⟩ : Store).Meets codec (fun _ op => op.daemon = true)
        (calls.map fun call => (call.1, call.2.2)) := by
      refine Interleaving.Along.of_forall (fun call hCall _ => ?_) _
      obtain ⟨memoryCall, hMem, rfl⟩ := mem_map.mp hCall
      exact hDaemon memoryCall hMem
    exact hMeets.invariant codec (P := fun state => Exclusive (calendar state.reservations))
      (fun state op hOp hExclusive => (Op.rebooks state op hOp).exclusive hExclusive)
      (Store.synced_empty codec) List.Pairwise.nil
  refine (pairwise_map.mp hExclusive).imp ?_
  intro a b h hGPU hActiveA hRevokedA hActiveB hRevokedB
  exact h hGPU (by simp [Reservation.slot, hActiveA, hRevokedA])
    (by simp [Reservation.slot, hActiveB, hRevokedB])

end Operations

/-- Two adjacent bookings of one GPU, the second of which fails at the directory sync
after its rename. -/
def adjacentBookings : List (SaveErrors × Spare × Op) :=
  [({}, {}, .registerScheduledReservationsWithSession (.ok true) { secretHex := "a" } "alice" "" ""
      [0] 100 200 50),
    ({ syncDir := some "fsync" }, {}, .registerScheduledReservationsWithSession (.ok true)
      { secretHex := "b" } "bob" "" "" [0] 200 300 60)]

open scoped Plain

theorem adjacentBookings_never_double_booked :
    let memory := (Memory.load {} {} none).run (reachedCodec (adjacentBookings.map (·.2.2)))
      adjacentBookings
    memory.state.reservations.map (fun row => (row.gpu, reservationStartsAt row, row.expiresAt)) =
        [(0, 100, 200), (0, 200, 300)] ∧
      memory.state.reservations.Pairwise fun a b =>
        a.gpu = b.gpu → a.active = true → a.revoked = false → b.active = true → b.revoked = false →
          Disjoint (Set.Ico (reservationStartsAt a) a.expiresAt)
            (Set.Ico (reservationStartsAt b) b.expiresAt) :=
  ⟨by decide +kernel, @reservations_never_double_booked ascii plain _ {} adjacentBookings
    (by simp [adjacentBookings, Op.daemon])⟩

end GPUardian
