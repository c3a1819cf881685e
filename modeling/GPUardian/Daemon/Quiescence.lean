import GPUardian.Daemon.Cleanup
import GPUardian.Enforce.Claims

/-! What a clean flag of the eviction scan says about the sample. The scan looks at a process on
each GPU it is sampled on, until it evicts it; the entries after that are skipped, and what they
would have shown about other scopes is not recorded. -/
namespace GPUardian

open GoStrings List Option

/-- A fact about every element and those before it, for a list with one more in front. -/
theorem forall_split_cons {α : Type} {x : α} {xs : List α} {Q : List α → α → Prop} :
    (∀ before y after, x :: xs = before ++ y :: after → Q before y) ↔
      Q [] x ∧ ∀ before y after, xs = before ++ y :: after → Q (x :: before) y := by
  constructor
  · intro h
    refine ⟨h [] x xs rfl, ?_⟩
    rintro before y after rfl
    exact h (x :: before) y after rfl
  · rintro ⟨hFirst, hRest⟩ before y after hSplit
    cases before with
    | nil =>
      cases hSplit
      exact hFirst
    | cons z before =>
      cases hSplit
      exact hRest before y after rfl

/-- A Go map after a loop that assigns one value to the keys of some rows. -/
theorem foldl_set_eq {α : Type} (rows : List α) (key : α → String) (value : Bool) (flags : Flags)
    (id : String) :
    rows.foldl (fun flags row => Flags.set flags (key row) value) flags id =
      if rows.any (key · == id) then some value else flags id := by
  induction rows using List.reverseRecOn with
  | nil => rfl
  | append_singleton rows row ih =>
    rw [foldl_append, foldl_cons, foldl_nil]
    by_cases hKey : key row = id
    · simp [Flags.set, hKey]
    · have hOther : id ≠ key row := fun h => hKey h.symm
      rw [Flags.set, Function.update_of_ne hOther, ih]
      simp [hKey]

namespace Authorizer

variable [Unicode] (a : Authorizer) (state : State) (now : Time)

/-- What the scan reads of the process of an entry. -/
def reads (process : GPUProcess) : Option ProcInfo :=
  if process.pid ≤ 0 then none
  else a.proc.bind fun reader => (reader.info process.pid).toOption

/-- The process of an entry could not be inspected, and is not gone either. -/
def Unread (process : GPUProcess) : Prop :=
  0 < process.pid ∧ ∃ reader err, a.proc = some reader ∧
    reader.info process.pid = .error err ∧ err.gone = false

/-- Whether the scope of a lease covers a process, where the lookups answer. -/
def coversLease (row : Lease) (info : ProcInfo) : Bool :=
  (a.leaseScopeMatchesForEviction [] row info).toOption.getD false

/-- A scope that is entitled on the GPU covers the process. -/
def entitledOn (gpu : Int) (info : ProcInfo) : Bool :=
  state.authorizations.any (fun row =>
      (authorizationEvictionState row gpu state now).entitled && a.covers row info) ||
    state.leases.any fun row =>
      (leaseEvictionState row gpu state.tokens now).entitled && a.coversLease row info

/-- The authorization is evidence for eviction on the GPU, and covers the process. -/
def staleOn (gpu : Int) (info : ProcInfo) (row : Authorization) : Bool :=
  !(authorizationEvictionState row gpu state now).entitled &&
    (authorizationEvictionState row gpu state now).staleRelevant && a.covers row info

def staleLeaseOn (gpu : Int) (info : ProcInfo) (row : Lease) : Bool :=
  !(leaseEvictionState row gpu state.tokens now).entitled &&
    (leaseEvictionState row gpu state.tokens now).staleRelevant && a.coversLease row info

/-- The entry shows a process of the authorization that nothing entitles. -/
def offends (process : GPUProcess) (row : Authorization) : Bool :=
  (a.reads process).any fun info =>
    a.staleOn state now process.gpu info row && !a.entitledOn state now process.gpu info

/-- The entry is enough to evict its process. -/
def evicts (process : GPUProcess) : Bool :=
  (a.reads process).any fun info =>
    !a.entitledOn state now process.gpu info &&
      (state.authorizations.any (a.staleOn state now process.gpu info) ||
        state.leases.any (a.staleLeaseOn state now process.gpu info)) &&
      !bypassMatch state.bypasses info now a.bootID

/-- The scan follows a stale authorization outside a cgroup that it has evidence for. -/
def Followed (id : String) : Prop :=
  ∃ row ∈ state.authorizations, row.id = id ∧ row.mode ≠ modeBare ∧ row.cgroupPath = "" ∧
    authorizationGloballyValid row state.tokens now = false ∧ Evident state now row

/-- The entry shows nothing against the authorizations of an id. -/
def Quiet (id : String) (process : GPUProcess) : Prop :=
  ¬ a.Unread process ∧
    ∀ row ∈ state.authorizations, row.id = id → a.offends state now process row = false

/-- Every entry is quiet that the scan looks at: those of processes that it has not evicted before,
by what it did so far or by an earlier entry. -/
def QuietFrom (targeted : List Int) (id : String) (processes : List GPUProcess) : Prop :=
  ∀ before process after, processes = before ++ process :: after → process.pid ∉ targeted →
    (∀ earlier ∈ before, earlier.pid = process.pid → a.evicts state now earlier = false) →
    a.Quiet state now id process

section Scan

variable {a state now}

/-- With reliable lookups the scope of a lease matches a process or not, wherever it is asked. -/
theorem Reliable.leaseScope_eq (h : a.Reliable) (row : Lease) (info : ProcInfo) (site : Site) :
    a.leaseScopeMatchesForEviction site row info = .ok (a.coversLease row info) := by
  obtain ⟨runtime, hRuntime, containers, namespaces, _, hNamespaces, _, hSpaces⟩ := h.resolver
  have hFound : ∃ found, ∀ site, a.leaseScopeMatchesForEviction site row info = .ok found := by
    unfold leaseScopeMatchesForEviction
    split_ifs
    · exact ⟨_, fun _ => rfl⟩
    · exact ⟨_, fun _ => rfl⟩
    · unfold k8sScopeMatches
      simp only [hRuntime, hNamespaces]
      split_ifs
      · exact ⟨_, fun _ => rfl⟩
      · obtain ⟨found, hFound⟩ := lookupScope_answers "k8s" "lease" row.id
          (hSpaces info.containerID) (· == row.namespace)
        exact ⟨found, fun _ => hFound⟩
    · exact ⟨_, fun _ => rfl⟩
  obtain ⟨found, hFound⟩ := hFound
  rw [coversLease, hFound site, hFound []]
  rfl

omit [Unicode] in
/-- The loop over scopes whose lookups answer: an entitled match, or the stale matches. -/
theorem scanScopes_eq {α : Type} (hRunning : a.Running)
    {evictionState : α → EvictionState} {scopeMatches : Site → α → Except String Bool}
    {found : α → Bool} (hFound : ∀ site row, scopeMatches site row = .ok (found row))
    (site : Site) (i : Nat) (stale rows : List α) :
    a.scanScopes site evictionState scopeMatches i stale rows =
      if rows.any fun row => (evictionState row).entitled && found row then .entitled
      else .stale (stale ++ rows.filter fun row =>
        !(evictionState row).entitled && (evictionState row).staleRelevant && found row) := by
  induction rows generalizing i stale with
  | nil => simp [scanScopes]
  | cons row rows ih =>
    simp only [scanScopes, hRunning, hFound, any_cons, filter_cons]
    cases hEntitled : (evictionState row).entitled <;>
      cases hStale : (evictionState row).staleRelevant <;>
      cases hMatch : found row <;> simp [ih]

/-- What the two loops over the scopes make of one process. -/
theorem evictProcess_unfold (hRunning : a.Running) (hReliable : a.Reliable)
    {info : ProcInfo} (hUID : 0 ≤ info.uid) (awaiting : Int → Nat → Bool) (site : Site)
    (process : GPUProcess) (scan : EvictionScan) :
    a.evictProcess awaiting site state process info now scan =
      let authorizations := state.authorizations.filter (a.staleOn state now process.gpu info)
      let leases := state.leases.filter (a.staleLeaseOn state now process.gpu info)
      let seen := scan.observe authorizations leases
      if a.entitledOn state now process.gpu info ∨ authorizations = [] ∧ leases = [] then scan
      else if bypassMatch state.bypasses info now a.bootID then seen
      else
        { seen with
          plan := a.kill awaiting { process := process, info := info }
            (evictionReport state process authorizations leases) now
            { seen.plan with targeted := process.pid :: seen.plan.targeted } } := by
  have hAuthorizations : a.scanAuthorizations site state process.gpu info now = _ :=
    scanScopes_eq hRunning (fun site row => hReliable.scope_eq hUID row site) (site ++ [0]) 0 []
      state.authorizations
  have hLeases : a.scanLeases site state process.gpu info now = _ :=
    scanScopes_eq hRunning (fun site row => hReliable.leaseScope_eq row info site) (site ++ [1]) 0 []
      state.leases
  rw [evictProcess, hAuthorizations, hLeases]
  unfold entitledOn
  cases state.authorizations.any fun row =>
      (authorizationEvictionState row process.gpu state now).entitled && a.covers row info with
  | true => simp
  | false =>
    cases state.leases.any fun row =>
        (leaseEvictionState row process.gpu state.tokens now).entitled &&
          a.coversLease row info with
    | true => simp
    | false =>
      simp only [Bool.false_eq_true, if_false, nil_append, Bool.or_self, false_or]
      rfl

variable {process : GPUProcess}

variable (state now) in
/-- One entry whose process was read: the stale matches are recorded and, unless the process is
bypassed, it counts as killed from then on. -/
theorem evictProcess_eq (hRunning : a.Running) (hReliable : a.Reliable)
    {info : ProcInfo} (hUID : 0 ≤ info.uid) (hRead : a.reads process = some info)
    (awaiting : Int → Nat → Bool) (site : Site) (scan : EvictionScan) :
    let seen := a.evictProcess awaiting site state process info now scan
    (∀ id, seen.assessment.authorizations id =
        if state.authorizations.any fun row => a.offends state now process row && row.id == id
        then some false else scan.assessment.authorizations id) ∧
      seen.plan.targeted =
        if a.evicts state now process then process.pid :: scan.plan.targeted
        else scan.plan.targeted := by
  rw [evictProcess_unfold hRunning hReliable hUID]
  simp only [offends, evicts, hRead, any_some]
  -- the flags after the stale matches were recorded
  have hObserved : ∀ leases id, (scan.observe (state.authorizations.filter
      (a.staleOn state now process.gpu info)) leases).assessment.authorizations id =
      if state.authorizations.any fun row => a.staleOn state now process.gpu info row && row.id == id
      then some false else scan.assessment.authorizations id := by
    intro leases id
    have hFlags := foldl_set_eq (state.authorizations.filter (a.staleOn state now process.gpu info))
      (·.id) false scan.assessment.authorizations id
    rw [List.any_filter] at hFlags
    exact hFlags
  cases hEntitled : a.entitledOn state now process.gpu info with
  | true => simp
  | false =>
    simp only [Bool.false_eq_true, false_or, Bool.not_false, Bool.and_true, Bool.true_and]
    split
    · rename_i hNone
      have hAuthorizations := filter_eq_nil_iff.mp hNone.1
      have hLeases := filter_eq_nil_iff.mp hNone.2
      refine ⟨fun id => (if_neg ?_).symm, (if_neg ?_).symm⟩
      · simp only [List.any_eq_true, Bool.and_eq_true, not_exists, not_and]
        exact fun row hRow hStale => absurd hStale (hAuthorizations row hRow)
      · simp only [Bool.and_eq_true, Bool.or_eq_true, List.any_eq_true]
        rintro ⟨⟨row, hRow, hStale⟩ | ⟨row, hRow, hStale⟩, _⟩
        · exact hAuthorizations row hRow hStale
        · exact hLeases row hRow hStale
    · rename_i hSome
      have hAny : (state.authorizations.any (a.staleOn state now process.gpu info) ||
          state.leases.any (a.staleLeaseOn state now process.gpu info)) = true := by
        by_contra hNone
        simp only [Bool.or_eq_true, List.any_eq_true, not_or, not_exists, not_and] at hNone
        exact hSome ⟨filter_eq_nil_iff.mpr hNone.1, filter_eq_nil_iff.mpr hNone.2⟩
      rw [hAny, Bool.true_and]
      cases bypassMatch state.bypasses info now a.bootID with
      | true => exact ⟨hObserved _, rfl⟩
      | false =>
        refine ⟨hObserved _, ?_⟩
        obtain ⟨_, _, _, _, _, hPlan⟩ := a.kill_step awaiting { process := process, info := info } _ now _
        exact congrArg Plan.targeted hPlan

/-- One entry and the rest, where the entry leaves the processes targeted that were or that it
evicts. -/
theorem quietFrom_cons {targeted targeted' : List Int} {id : String} {processes : List GPUProcess}
    (h : ∀ pid, pid ∉ targeted' ↔
      pid ∉ targeted ∧ (process.pid = pid → a.evicts state now process = false)) :
    a.QuietFrom state now targeted id (process :: processes) ↔
      (process.pid ∉ targeted → a.Quiet state now id process) ∧
        a.QuietFrom state now targeted' id processes := by
  rw [QuietFrom, forall_split_cons]
  refine and_congr ?_ (forall₄_congr fun before other after hSplit => ?_)
  · simp
  · rw [h other.pid, forall_mem_cons]
    tauto

theorem offends_of_unread (h : a.reads process = none) (row : Authorization) :
    a.offends state now process row = false := by
  rw [offends, h, any_none]

theorem evicts_of_unread (h : a.reads process = none) : a.evicts state now process = false := by
  rw [evicts, h, any_none]

/-- A flag is set after the loop if it was before and no entry was seen that speaks against it. -/
theorem evictProcesses_clean_iff (hRunning : a.Running)
    (hReliable : a.Reliable) {reader : ProcReader} (hReader : a.proc = some reader)
    (awaiting : Int → Nat → Bool) (id : String) (processes : List GPUProcess) (i : Nat)
    (scan : EvictionScan) :
    (a.evictProcesses awaiting reader state now i processes scan).assessment.authorizations id =
        some true ↔
      scan.assessment.authorizations id = some true ∧
        a.QuietFrom state now scan.plan.targeted id processes := by
  induction processes generalizing i scan with
  | nil =>
    have hNone : a.QuietFrom state now scan.plan.targeted id [] := by
      intro before process after hSplit
      simp at hSplit
    exact (and_iff_left hNone).symm
  | cons process processes ih =>
    unfold evictProcesses
    rw [hRunning]
    dsimp only
    -- an entry that shows nothing and leaves the scan as it is
    have hSilent : (process.pid ∉ scan.plan.targeted → a.Quiet state now id process ∧
        a.evicts state now process = false) →
        ((a.evictProcesses awaiting reader state now (i + 1) processes scan
          ).assessment.authorizations id = some true ↔
          scan.assessment.authorizations id = some true ∧
            a.QuietFrom state now scan.plan.targeted id (process :: processes)) := by
      intro h
      have hTargeted : ∀ pid, pid ∉ scan.plan.targeted ↔ pid ∉ scan.plan.targeted ∧
          (process.pid = pid → a.evicts state now process = false) := fun pid =>
        ⟨fun hFree => ⟨hFree, fun hSame => (h (hSame ▸ hFree)).2⟩, And.left⟩
      rw [ih, quietFrom_cons hTargeted]
      exact and_congr_right fun _ => (and_iff_right fun hFree => (h hFree).1).symm
    split
    · rename_i hSkipped
      refine hSilent fun hFree => ?_
      have hPID := hSkipped.resolve_right hFree
      have hNone : a.reads process = none := if_pos hPID
      exact ⟨⟨fun hUnread => absurd hUnread.1 (not_lt.mpr hPID), fun row _ _ =>
        offends_of_unread hNone row⟩, evicts_of_unread hNone⟩
    · rename_i hLooked
      have hPID : ¬ process.pid ≤ 0 := fun h => hLooked (.inl h)
      have hFree : process.pid ∉ scan.plan.targeted := fun h => hLooked (.inr h)
      have hReads : a.reads process = (reader.info process.pid).toOption := by
        rw [reads, if_neg hPID, hReader, bind_some]
      split
      · rename_i err hInfo
        rw [hInfo] at hReads
        split
        · rename_i hGone
          refine hSilent fun _ => ⟨⟨?_, fun row _ _ => offends_of_unread hReads row⟩,
            evicts_of_unread hReads⟩
          rintro ⟨_, other, err', hOther, hErr, hKept⟩
          cases hReader.symm.trans hOther
          cases hInfo.symm.trans hErr
          simp [hGone] at hKept
        · rename_i hKept
          rw [ih]
          refine iff_of_false ?_ ?_
          · rintro ⟨hFlag, _⟩
            simp [EvictionScan.fail, markEvictionAssessmentUncertain] at hFlag
          · rintro ⟨_, hQuiet⟩
            refine (hQuiet [] process processes rfl hFree fun _ hNone => absurd hNone
              not_mem_nil).1 ?_
            exact ⟨not_le.mp hPID, reader, err, hReader, hInfo, by simpa using hKept⟩
      · rename_i info hInfo
        rw [hInfo] at hReads
        have hUID := hReliable.read_uid reader _ _ hReader hInfo
        obtain ⟨hFlags, hTargeted⟩ := evictProcess_eq state now hRunning hReliable hUID hReads
          awaiting [3, i] scan
        have hAfter : ∀ pid, pid ∉ (a.evictProcess awaiting [3, i] state process info now
            scan).plan.targeted ↔ pid ∉ scan.plan.targeted ∧
              (process.pid = pid → a.evicts state now process = false) := by
          intro pid
          rw [hTargeted]
          cases a.evicts state now process with
          | false => simp
          | true => simp [eq_comm, and_comm]
        rw [ih, quietFrom_cons hAfter, ← and_assoc]
        refine and_congr_left fun _ => ?_
        rw [hFlags]
        split
        · rename_i hAny
          refine iff_of_false (fun hClean => by cases hClean) ?_
          rintro ⟨_, hQuiet⟩
          obtain ⟨row, hRow, hBoth⟩ := List.any_eq_true.mp hAny
          obtain ⟨hOffends, hID⟩ := Bool.and_eq_true_iff.mp hBoth
          have hSilent := (hQuiet hFree).2 row hRow (by simpa using hID)
          rw [hOffends] at hSilent
          cases hSilent
        · rename_i hNone
          refine (and_iff_left fun _ => ⟨?_, ?_⟩).symm
          · rintro ⟨_, other, err, hOther, hErr, _⟩
            cases hReader.symm.trans hOther
            cases hInfo.symm.trans hErr
          · intro row hRow hID
            by_contra hOffends
            refine hNone (List.any_eq_true.mpr ⟨row, hRow, ?_⟩)
            simp [hID, eq_true_of_ne_false hOffends]

theorem initialAssessment_clean_iff (id : String) :
    (initialAssessment state now).authorizations id = some true ↔ Followed state now id := by
  have hFlags := foldl_set_eq (state.authorizations.filter (assessesAuthorization state now))
    (·.id) true (fun _ => none) id
  have hInitial : (initialAssessment state now).authorizations id = _ := hFlags
  rw [hInitial]
  simp only [ite_none_right_eq_some, and_true, List.any_eq_true, mem_filter,
    beq_iff_eq, Followed, assesses_iff]
  exact exists_congr fun row => by tauto

omit [Unicode] in
/-- A row of one GPU is a row of some GPU. -/
theorem tokenHas_of_reservations {gpu : Int} {tokenHash : String} {counts : Reservation → Bool}
    (h : (state.reservations.any fun row => reservationKey gpu tokenHash row && counts row) = true) :
    (state.reservations.any fun row => reservationKey row.gpu tokenHash row && counts row) =
      true := by
  obtain ⟨row, hRow, hBoth⟩ := List.any_eq_true.mp h
  simp only [reservationKey, Bool.and_eq_true, bne_iff_ne, beq_iff_eq] at hBoth
  obtain ⟨⟨⟨hNamed, _⟩, hHash⟩, hCounts⟩ := hBoth
  refine List.any_eq_true.mpr ⟨row, hRow, ?_⟩
  simp [reservationKey, hNamed, ← hHash, hCounts]

theorem reader_of_offends {row : Authorization} (h : a.offends state now process row = true) :
    ∃ reader, a.proc = some reader := by
  cases hReader : a.proc with
  | some reader => exact ⟨reader, rfl⟩
  | none =>
    rw [offends_of_unread (by simp [reads, hReader])] at h
    cases h

/-- The scan does not skip a sample in which an entry offends. -/
theorem possible_of_offends {row : Authorization} (hRow : row ∈ state.authorizations)
    (h : a.offends state now process row = true) : staleEvictionPossible state now = true := by
  cases hRead : a.reads process with
  | none =>
    rw [offends_of_unread hRead] at h
    cases h
  | some info =>
    simp only [offends, hRead, any_some, staleOn, Bool.and_eq_true] at h
    have hRelevant := h.1.1.2
    have hStale : staleReservations state now process.gpu row.tokenHash = true →
        tokenHasStaleReservation state now row.tokenHash = true := tokenHas_of_reservations
    have hValid : validReservations state now process.gpu row.tokenHash = true →
        tokenHasValidReservation state now row.tokenHash = true := tokenHas_of_reservations
    refine Bool.or_eq_true_iff.mpr (.inl (List.any_eq_true.mpr ⟨row, hRow, ?_⟩))
    dsimp only
    unfold authorizationEvictionState at hRelevant
    dsimp only at hRelevant
    split_ifs at hRelevant ⊢ with hReserved hGlobal hHere hClaimed hManaged
    · simp [hStale hRelevant]
    · rcases Bool.or_eq_true_iff.mp hRelevant with hHere | hHere
      · simp [hGlobal, hValid hHere]
      · simp [hStale hHere]
    · exact hRelevant
    · exact Bool.or_eq_true_iff.mpr (.inl hRelevant)
    · exact Bool.or_eq_true_iff.mpr ((Bool.or_eq_true_iff.mp hRelevant).imp id hStale)

end Scan

/-- With error-free lookups, a flag that the scan leaves set means that no entry shows a process of
the authorization which nothing entitles, exactly if: where the scan follows the authorization and
such an entry is sampled, one that speaks against the flag comes before its process is evicted by
what it does on another GPU. -/
theorem clean_flag_sound_iff (hRunning : ∀ site, a.ctxErr site = none) (hReliable : a.Reliable)
    (awaiting : Int → Nat → Bool) (processes : List GPUProcess) (row : Authorization)
    (hRow : row ∈ state.authorizations) :
    ((a.evictExpiredReservedProcesses awaiting state processes now).assessment.authorizations
        row.id = some true → ∀ process ∈ processes, a.offends state now process row = false) ↔
      (Followed state now row.id →
        (∃ process ∈ processes, a.offends state now process row = true) →
        ∃ before process after, processes = before ++ process :: after ∧
          (∀ earlier ∈ before, earlier.pid = process.pid → a.evicts state now earlier = false) ∧
          (a.Unread process ∨ ∃ other ∈ state.authorizations, other.id = row.id ∧
            a.offends state now process other = true)) := by
  by_cases hOffender : ∃ process ∈ processes, a.offends state now process row = true
  · obtain ⟨process, hProcess, hOffends⟩ := hOffender
    have hPossible := possible_of_offends hRow hOffends
    have hSome : ∃ process ∈ processes, a.offends state now process row = true :=
      ⟨process, hProcess, hOffends⟩
    obtain ⟨reader, hReader⟩ := reader_of_offends hOffends
    have hScan : (a.evictExpiredReservedProcesses awaiting state processes
        now).assessment.authorizations row.id = some true ↔
        Followed state now row.id ∧ a.QuietFrom state now [] row.id processes := by
      rw [evictExpiredReservedProcesses, hReader]
      dsimp only
      rw [hPossible, Bool.not_true, if_neg Bool.false_ne_true,
        evictProcesses_clean_iff hRunning hReliable hReader, initialAssessment_clean_iff]
    rw [hScan]
    constructor
    · intro hSound hFollowed _
      by_contra hNone
      refine absurd (hSound ⟨hFollowed, ?_⟩ process hProcess) (by simp [hOffends])
      intro before entry after hSplit _ hUnskipped
      constructor
      · intro hUnread
        exact hNone ⟨before, entry, after, hSplit, hUnskipped, .inl hUnread⟩
      · intro other hOther hID
        by_contra hSpeaks
        exact hNone ⟨before, entry, after, hSplit, hUnskipped,
          .inr ⟨other, hOther, hID, eq_true_of_ne_false hSpeaks⟩⟩
    · rintro hSeen ⟨hFollowed, hQuiet⟩
      obtain ⟨before, entry, after, hSplit, hUnskipped, hSpeaks⟩ := hSeen hFollowed hSome
      have hEntry := hQuiet before entry after hSplit not_mem_nil hUnskipped
      rcases hSpeaks with hUnread | ⟨other, hOther, hID, hOffends⟩
      · exact absurd hUnread hEntry.1
      · exact absurd (hEntry.2 other hOther hID) (by simp [hOffends])
  · refine iff_of_true ?_ fun _ hSome => absurd hSome hOffender
    intro _ process hProcess
    by_contra hOffends
    exact hOffender ⟨process, hProcess, eq_true_of_ne_false hOffends⟩

end Authorizer

section Samples

open scoped Plain

def revokedUser : Authorization :=
  { id := "x", mode := "user", tokenHash := "a", uid := 1000, active := true, revoked := true }

/-- Two reserve keys of one user were revoked: one for GPU 0 and one for GPU 1. -/
def twoRevoked : State :=
  { tokens := [{ hash := "a", mode := "reserved", revoked := true },
      { hash := "b", mode := "reserved", revoked := true }]
    reservations :=
      [{ id := "r0", gpu := 0, tokenHash := "b", startsAt := 1, expiresAt := 100, active := true,
         revoked := true },
       { id := "r1", gpu := 1, tokenHash := "a", startsAt := 1, expiresAt := 100, active := true,
         revoked := true }]
    authorizations := [revokedUser, { revokedUser with id := "y", tokenHash := "b" }] }

def onGPU (gpu : Int) : GPUProcess := { gpu := gpu, pid := 7, memBytes := 1 }

/-- On GPU 1 the process is looked at before it is evicted for GPU 0. -/
theorem clean_flag_sound_iff_revoked :
    let a := reliableAuthorizer [intruder]
    let sample := [onGPU 1, onGPU 0]
    a.offends twoRevoked 10 (onGPU 1) revokedUser = true ∧
      ((a.evictExpiredReservedProcesses (fun _ _ => false) twoRevoked sample
          10).assessment.authorizations "x" = some true →
        ∀ process ∈ sample, a.offends twoRevoked 10 process revokedUser = false) := by
  have hOffends : @Authorizer.offends ascii (reliableAuthorizer [intruder]) twoRevoked 10 (onGPU 1)
      revokedUser = true := by decide +kernel
  refine ⟨hOffends, ?_⟩
  refine (@Authorizer.clean_flag_sound_iff ascii (reliableAuthorizer [intruder]) twoRevoked 10
    (fun _ => rfl) (reliableAuthorizer_reliable (by decide)) (fun _ _ => false) [onGPU 1, onGPU 0]
    revokedUser mem_cons_self).mpr fun _ _ => ?_
  exact ⟨[], onGPU 1, [onGPU 0], rfl, fun _ hNone => absurd hNone not_mem_nil,
    .inr ⟨revokedUser, mem_cons_self, rfl, hOffends⟩⟩

/-- In the other order the process is evicted for GPU 0 first, and its entry on GPU 1 is skipped. -/
theorem clean_flag_despite_process :
    let a := reliableAuthorizer [intruder]
    let scan := a.evictExpiredReservedProcesses (fun _ _ => false) twoRevoked [onGPU 0, onGPU 1] 10
    a.Reliable ∧ (∀ site, a.ctxErr site = none) ∧
      scan.assessment.authorizations "x" = some true ∧
      authorizationEvictionState revokedUser 1 twoRevoked 10 = ⟨false, true⟩ ∧
      a.covers revokedUser intruder = true ∧ a.reads (onGPU 1) = some intruder ∧
      a.entitledOn twoRevoked 10 1 intruder = false := by
  refine ⟨reliableAuthorizer_reliable (by decide), fun _ => rfl, ?_⟩
  decide +kernel

end Samples

end GPUardian
