import GPUardian.Store.Shrinking
import GPUardian.Store.Booking

/-! The names of a node. Reservations, tokens and groups are named by random strings with a
prefix for their kind, and managed keys by their gateway. As long as the draws are new, a name
that revocation is asked for means one thing. -/
namespace GPUardian

open GoStrings GoSlice List

/-- What `hex.EncodeToString` returns. -/
def IsHex (text : String) : Prop := ∀ c ∈ text.toList, isHexDigit c = true

instance (text : String) : Decidable (IsHex text) :=
  inferInstanceAs (Decidable (∀ c ∈ text.toList, _))

theorem trimSpace_append_hex {lead hex : String} (hLead : ∀ c ∈ lead.toList, isSpace c = false)
    (hHex : IsHex hex) : trimSpace (lead ++ hex) = lead ++ hex := by
  refine trimSpace_of_forall fun c hMem => ?_
  rw [String.toList_append] at hMem
  rcases mem_append.mp hMem with hOld | hNew
  · exact hLead c hOld
  · exact isSpace_of_isHexDigit (hHex c hNew)

/-- The id of a reservation. -/
def RowName (id : String) : Prop := ∃ hex, IsHex hex ∧ id = "res_" ++ hex

/-- A name that is no reservation id: of a token, of a managed key or of a group. -/
structure OtherName (name : String) : Prop where
  trimmed : trimSpace name = name
  other : hasPrefix name "res_" = false

theorem RowName.trimmed {id : String} (h : RowName id) : trimSpace id = id := by
  obtain ⟨hex, hHex, rfl⟩ := h
  exact trimSpace_append_hex (by decide) hHex

theorem RowName.hasPrefix {id : String} (h : RowName id) : GoStrings.hasPrefix id "res_" = true := by
  obtain ⟨hex, _, rfl⟩ := h
  simp [GoStrings.hasPrefix, String.toList_append]

theorem OtherName.empty : OtherName "" := ⟨by decide, by decide⟩

theorem otherName_token {hex : String} (h : IsHex hex) : OtherName ("tok_" ++ hex) :=
  ⟨trimSpace_append_hex (by decide) h, by simp [hasPrefix, String.toList_append, List.isPrefixOf]⟩

theorem otherName_group {hex : String} (h : IsHex hex) : OtherName ("grp_" ++ hex) :=
  ⟨trimSpace_append_hex (by decide) h, by simp [hasPrefix, String.toList_append, List.isPrefixOf]⟩

/-- The names in a state. -/
structure Named (state : State) : Prop where
  rows : ∀ row ∈ state.reservations, RowName row.id
  groups : ∀ row ∈ state.reservations, OtherName row.groupID
  tokens : ∀ token ∈ state.tokens, OtherName token.id
  distinct : (state.reservations.map (·.id)).Nodup

/-- The ids that a booking draws: hexadecimal, different, and not in use. -/
def DrawsRows (state : State) (fresh : Fresh) (gpus : List Int) : Prop :=
  (∀ i, IsHex (fresh.reservationHex i)) ∧
    (state.reservations.map (·.id) ++ (newReservations fresh {} gpus).map (·.id)).Nodup

/-- The operation draws new names, and a snapshot names no key like a reservation. -/
def DrawsNames [Unicode] (state : State) : Op → Prop
  | .registerSoftToken _ fresh _ _ => IsHex fresh.tokenHex
  | .registerScheduledReservationsWithSession _ fresh _ _ _ gpus _ _ _ =>
    IsHex fresh.tokenHex ∧ DrawsRows state fresh gpus
  | .registerManagedReservations _ fresh _ _ _ gpus _ _ _ =>
    IsHex fresh.groupHex ∧ DrawsRows state fresh gpus
  | .syncManagedUserKeys _ groupHex snapshot _ =>
    (∀ i, IsHex (groupHex i)) ∧
      ∀ key ∈ snapshot.keys, hasPrefix (trimSpace key.id) "res_" = false
  | op => op.daemon = true

theorem newReservations_ids (fresh : Fresh) (row other : Reservation) (gpus : List Int) :
    (newReservations fresh row gpus).map (·.id) = (newReservations fresh other gpus).map (·.id) := by
  apply ext_getElem?
  intro i
  simp [newReservations, Function.comp_def]

/-- The cutover leaves the ids of the rows. -/
theorem rebindReservation_ids [Unicode] (tokens managed : List Token) (groupHex : Nat → String)
    (rows : List Reservation) :
    (rebindReservations tokens managed groupHex rows).map (·.id) = rows.map (·.id) := by
  apply ext_getElem?
  intro i
  simp [Edit.onList, rebindReservation, Function.comp_def]

namespace Named

theorem empty : Named {} :=
  ⟨fun _ h => absurd h not_mem_nil, fun _ h => absurd h not_mem_nil,
    fun _ h => absurd h not_mem_nil, nodup_nil⟩

variable {state after : State}

theorem shrinks (h : Named state) (hAfter : Shrinks state after) : Named after := by
  refine ⟨fun row hRow => ?_, fun row hRow => ?_, fun token hToken => ?_, ?_⟩
  · obtain ⟨old, hOld, hEnded⟩ := hAfter.rows.partner hRow
    rw [hEnded.same]
    exact h.rows old hOld
  · obtain ⟨old, hOld, hEnded⟩ := hAfter.rows.partner hRow
    rw [hEnded.same]
    exact h.groups old hOld
  · obtain ⟨old, hOld, hRevoked⟩ := hAfter.tokens.partner hToken
    rw [hRevoked.same]
    exact h.tokens old hOld
  · refine h.distinct.sublist (hAfter.rows.map_sublist fun old new hEnded => ?_)
    rw [hEnded.same]

/-- Rows are booked under a new group or none. -/
theorem books (h : Named state) {fresh : Fresh} {row : Reservation} {gpus : List Int}
    (hDraws : DrawsRows state fresh gpus) (hGroup : OtherName row.groupID) :
    Named { state with reservations := state.reservations ++ newReservations fresh row gpus } := by
  refine { h with rows := ?_, groups := ?_, distinct := ?_ }
  · refine forall_mem_append.mpr ⟨h.rows, fun new hNew => ?_⟩
    obtain ⟨i, gpu, _, rfl⟩ := mem_newReservations hNew
    exact ⟨fresh.reservationHex i, hDraws.1 i, rfl⟩
  · refine forall_mem_append.mpr ⟨h.groups, fun new hNew => ?_⟩
    obtain ⟨i, gpu, _, rfl⟩ := mem_newReservations hNew
    exact hGroup
  · rw [map_append, newReservations_ids fresh row {}]
    exact hDraws.2

/-- The cutover gives groups to rows that have none: the ids of old tokens, or new ones. -/
theorem rebinds [Unicode] (h : Named state) {managed : List Token} {groupHex : Nat → String}
    (hGroups : ∀ i, IsHex (groupHex i)) (hManaged : ∀ token ∈ managed, OtherName token.id) :
    Named { state with
      reservations := rebindReservations state.tokens managed groupHex state.reservations
      tokens := managed } := by
  refine ⟨?_, ?_, hManaged, ?_⟩
  · intro row hRow
    obtain ⟨i, old, _, hOld, rfl⟩ := mem_rebindReservations hRow
    exact h.rows old hOld
  · intro row hRow
    obtain ⟨i, old, _, hOld, rfl⟩ := mem_rebindReservations hRow
    simp only [rebindReservation]
    split_ifs with hNone hUnknown
    · exact otherName_group (hGroups i)
    · cases hFind : tokenByHash state.tokens old.tokenHash with
      | none => exact .empty
      | some token => exact h.tokens token (tokenByHash_mem hFind).1
    · exact h.groups old hOld
  · rw [rebindReservation_ids]
    exact h.distinct

end Named

section Operations

variable [Unicode] [Digest]

/-- Operations that draw new names keep the names of a state apart. -/
theorem Op.named (state : State) (op : Op) (hDraws : DrawsNames state op) (h : Named state) :
    Named ((op.effect state).edits.apply state) := by
  by_cases hNarrowing : op.narrowing = true
  · exact h.shrinks (Op.shrinks state op hNarrowing)
  refine Op.edits_ind fun edits hEdited => ?_
  cases hEdited with
  | quiet => exact h
  | issued =>
    exact { h with tokens := forall_mem_concat.mpr ⟨h.tokens, otherName_token hDraws⟩ }
  | scheduled _ _ _ _ _ _ _ _ _ token hToken =>
    refine { h.books hDraws.2 .empty with tokens := forall_mem_concat.mpr ⟨h.tokens, ?_⟩ }
    rw [hToken]
    exact otherName_token hDraws.1
  | managed => exact h.books hDraws.2 (otherName_group hDraws.1)
  | confirmed => exact { h with }
  | cutOver _ _ _ _ managed _ hAdmitted =>
    refine { h.rebinds hDraws.1 (fun token hToken => ?_) with }
    obtain ⟨key, hKey, rfl⟩ := admitManagedKeys_mem hAdmitted hToken
    exact ⟨trimSpace_trimSpace key.id, hDraws.2 key hKey⟩
  | old op _ hOp => cases op <;> first | (cases hOp; done) | cases hDraws
  | _ => exact absurd rfl hNarrowing

theorem Store.run_named {codec : Codec} {calls : List (SaveErrors × Op)}
    (h : Store.Meets codec DrawsNames ⟨{}, {}, none⟩ calls) :
    Named ((⟨{}, {}, none⟩ : Store).run codec calls).state :=
  h.invariant codec (P := Named) Op.named (Store.synced_empty codec) .empty

end Operations

end GPUardian
