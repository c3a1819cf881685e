import GPUardian.Library.Interleaving
import GPUardian.Model.State
import Mathlib.Logic.Function.Basic

/-! The fleet snapshot that the gateway's readers share. A reader takes the cached snapshot,
or joins the one refresh that is under way, or starts it; a mutation clears the cache. Each
section that holds the lock of the cache is one step, and so is the beginning of a fetch,
which the refresh makes without the lock. -/
namespace GPUardian

open List Option Function Interleaving

/-- `time.Second` where no lifetime is configured. -/
def fleetSnapshotCacheTTL (configured : Duration) : Duration :=
  if 0 < configured then configured else second

def fleetMaxStaleAge : Duration := 30 * second

/-- A fleet snapshot. `began` is the number of clears before its fetch began; the code does
not keep it. -/
structure Fetched (α : Type) where
  value : α
  began : Nat
deriving DecidableEq, Repr

/-- A `fleetRefreshCall`: its goroutine has not called the nodes yet, is waiting for them, or
has closed the call's channel. -/
inductive Refresh (α : Type) where
  | spawned
  | fetching (began : Nat)
  | done (result : Except String (Fetched α))

/-- A call of `cachedFleetSnapshot`. `since` is the number of clears before it started, which
the code does not keep; `stale` is set where the reader may fall back on the old snapshot. -/
inductive FleetReader (α : Type) where
  | idle
  | waiting (since : Nat) (call : Nat) (stale : Option (Fetched α))
  | returned (since : Nat) (result : Except String (Fetched α))

structure FleetCache (α : Type) where
  fleetCache : Option (Fetched α) := none
  fleetCacheAt : Time := 0
  fleetCacheOK : Bool := false
  fleetRefresh : Option Nat := none
  calls : List (Refresh α) := []
  readers : Nat → FleetReader α := fun _ => .idle
  clears : Nat := 0

inductive FleetEvent (α : Type) where
  | start (reader : Nat) (now : Time)
  | beginFetch (call : Nat)
  | publish (call : Nat) (result : Except String α) (now : Time)
  | clear
  | finish (reader : Nat)
  | serveStale (reader : Nat)
  | cancel (reader : Nat) (err : String)

namespace FleetCache

variable {α : Type}

def setReader (i : Nat) (reader : FleetReader α) (s : FleetCache α) : FleetCache α :=
  { s with readers := Function.update s.readers i reader }

/-- The snapshot, if the cache holds one that is valid and younger than `age`. -/
def recent (now : Time) (age : Duration) (s : FleetCache α) : Option (Fetched α) :=
  if s.fleetCacheOK ∧ now - s.fleetCacheAt < age then s.fleetCache else none

/-- The part of `cachedFleetSnapshot` under the lock. -/
def startRead (configured : Duration) (i : Nat) (now : Time) (s : FleetCache α) : FleetCache α :=
  match s.recent now (fleetSnapshotCacheTTL configured) with
  | some fetched => s.setReader i (.returned s.clears (.ok fetched))
  | none =>
    let stale := s.recent now fleetMaxStaleAge
    match s.fleetRefresh with
    | some call => s.setReader i (.waiting s.clears call stale)
    | none =>
      { s.setReader i (.waiting s.clears s.calls.length stale) with
        fleetRefresh := some s.calls.length
        calls := s.calls ++ [.spawned] }

/-- The end of `refreshFleetSnapshot`, under the lock. -/
def publishFetch (call began : Nat) (result : Except String α) (now : Time) (s : FleetCache α) :
    FleetCache α :=
  let s := { s with
    calls := s.calls.set call (.done (result.map fun value => ⟨value, began⟩))
    fleetRefresh := none }
  match result with
  | .ok value =>
    { s with fleetCache := some ⟨value, began⟩, fleetCacheAt := now, fleetCacheOK := true }
  | .error _ => s

def clearFleetCache (s : FleetCache α) : FleetCache α :=
  { s with fleetCacheOK := false, clears := s.clears + 1 }

def step (configured : Duration) (s : FleetCache α) : FleetEvent α → FleetCache α
  | .start i now =>
    match s.readers i with
    | .waiting .. => s
    | _ => s.startRead configured i now
  | .beginFetch call =>
    match s.calls[call]? with
    | some .spawned => { s with calls := s.calls.set call (.fetching s.clears) }
    | _ => s
  | .publish call result now =>
    match s.calls[call]? with
    | some (.fetching began) => s.publishFetch call began result now
    | _ => s
  | .clear => s.clearFleetCache
  | .finish i =>
    match s.readers i with
    | .waiting since call stale =>
      match s.calls[call]?, stale with
      | some (.done (.error _)), some fetched => s.setReader i (.returned since (.ok fetched))
      | some (.done result), _ => s.setReader i (.returned since result)
      | _, _ => s
    | _ => s
  | .serveStale i =>
    match s.readers i with
    | .waiting since _ (some fetched) => s.setReader i (.returned since (.ok fetched))
    | _ => s
  | .cancel i err =>
    match s.readers i with
    | .waiting since _ _ => s.setReader i (.returned since (.error err))
    | _ => s

/-- A clear does not happen while a refresh is waiting for the nodes. -/
def Undisturbed (s : FleetCache α) : FleetEvent α → Prop
  | .clear => ∀ call ∈ s.calls, ∀ began, call ≠ .fetching began
  | _ => True

/-- What a reader has or may still get was fetched after the clears before it started. -/
def ReaderCurrent (s : FleetCache α) : FleetReader α → Prop
  | .idle => True
  | .waiting since call stale =>
    since ≤ s.clears ∧ call < s.calls.length ∧ (∀ fetched ∈ stale, since ≤ fetched.began) ∧
      ∀ fetched, s.calls[call]? = some (.done (.ok fetched)) → since ≤ fetched.began
  | .returned since result => ∀ fetched, result = .ok fetched → since ≤ fetched.began

structure Current (s : FleetCache α) : Prop where
  cached : s.fleetCacheOK = true → ∀ fetched ∈ s.fleetCache, fetched.began = s.clears
  fetching : ∀ began, .fetching began ∈ s.calls → began = s.clears
  refresh : ∀ call ∈ s.fleetRefresh,
    call < s.calls.length ∧ ∀ result, s.calls[call]? ≠ some (.done result)
  readers : ∀ i, s.ReaderCurrent (s.readers i)

variable {s : FleetCache α} {reader : FleetReader α}

theorem ReaderCurrent.mono {t : FleetCache α} (h : s.ReaderCurrent reader)
    (hClears : s.clears ≤ t.clears) (hLength : s.calls.length ≤ t.calls.length)
    (hDone : ∀ call fetched, call < s.calls.length →
      t.calls[call]? = some (.done (.ok fetched)) →
        s.calls[call]? = some (.done (.ok fetched)) ∨ fetched.began = s.clears) :
    t.ReaderCurrent reader := by
  cases reader with
  | idle => trivial
  | returned => exact h
  | waiting since call stale =>
    obtain ⟨hSince, hCall, hStale, hResult⟩ := h
    refine ⟨hSince.trans hClears, hCall.trans_le hLength, hStale, fun fetched hFetched => ?_⟩
    rcases hDone call fetched hCall hFetched with hOld | hNew
    · exact hResult fetched hOld
    · exact hSince.trans hNew.ge

/-- Giving one reader a current state keeps the whole cache current. -/
theorem Current.setReader (h : s.Current) (i : Nat) (hReader : s.ReaderCurrent reader) :
    (s.setReader i reader).Current := by
  refine ⟨h.cached, h.fetching, h.refresh, fun j => ?_⟩
  have hOther : (s.setReader i reader).ReaderCurrent (Function.update s.readers i reader j) := by
    rcases eq_or_ne j i with rfl | hj
    · rw [update_self]
      exact hReader.mono le_rfl le_rfl fun _ _ _ => .inl
    · rw [update_of_ne hj]
      exact (h.readers j).mono le_rfl le_rfl fun _ _ _ => .inl
  exact hOther

theorem Current.recent (h : s.Current) {now : Time} {age : Duration} {fetched : Fetched α}
    (hRecent : s.recent now age = some fetched) : fetched.began = s.clears := by
  unfold FleetCache.recent at hRecent
  split at hRecent
  · rename_i hValid
    exact h.cached hValid.1 fetched hRecent
  · cases hRecent

/-- A read takes the cached fleet, joins a refresh or starts one. -/
theorem Current.startRead (h : s.Current) (configured : Duration) (i : Nat) (now : Time) :
    (s.startRead configured i now).Current := by
  have hStale : ∀ fetched ∈ s.recent now fleetMaxStaleAge, s.clears ≤ fetched.began :=
    fun fetched hFetched => (h.recent hFetched).ge
  unfold FleetCache.startRead
  split
  · rename_i fetched hRecent
    refine h.setReader i fun got hGot => ?_
    obtain rfl := Except.ok.inj hGot
    exact (h.recent hRecent).ge
  dsimp only
  split
  · rename_i call hRefresh
    obtain ⟨hCall, hRunning⟩ := h.refresh call hRefresh
    exact h.setReader i
      ⟨le_rfl, hCall, hStale, fun fetched hDone => absurd hDone (hRunning (.ok fetched))⟩
  · -- The new call stands behind all calls that anyone waits for.
    refine ⟨h.cached, ?_, ?_, fun j => ?_⟩
    · intro began hBegan
      rcases mem_append.mp hBegan with hOld | hNew
      · exact h.fetching began hOld
      · cases mem_singleton.mp hNew
    · intro call hCall
      obtain rfl : s.calls.length = call := some.inj hCall
      simp
    · have hNew : ∀ call, call < s.calls.length →
          (s.calls ++ [Refresh.spawned])[call]? = s.calls[call]? :=
        fun call hCall => getElem?_append_left hCall
      rcases eq_or_ne j i with rfl | hj
      · simp only [FleetCache.setReader, update_self]
        refine ⟨le_rfl, by simp, hStale, fun fetched hDone => ?_⟩
        simp at hDone
      · simp only [FleetCache.setReader, update_of_ne hj]
        refine (h.readers j).mono le_rfl (by simp) fun call fetched hCall hDone => .inl ?_
        rwa [← hNew call hCall]

/-- Replacing a call that has not ended by one that has not, or that ends with a snapshot
fetched since the last clear. -/
theorem ReaderCurrent.setCall {t : FleetCache α} (h : s.ReaderCurrent reader) {call : Nat}
    {next : Refresh α} (hClears : t.clears = s.clears) (hCalls : t.calls = s.calls.set call next)
    (hNext : ∀ fetched, next = .done (.ok fetched) → fetched.began = s.clears) :
    t.ReaderCurrent reader := by
  refine h.mono hClears.ge (by simp [hCalls]) fun other fetched hOther hDone => ?_
  rw [hCalls, getElem?_set] at hDone
  split at hDone
  · split at hDone
    · exact .inr (hNext fetched (some.inj hDone))
    · cases hDone
  · exact .inl hDone

theorem Current.beginFetch (h : s.Current) (call : Nat) :
    ({ s with calls := s.calls.set call (.fetching s.clears) } : FleetCache α).Current := by
  refine ⟨h.cached, ?_, ?_, fun i => (h.readers i).setCall rfl rfl nofun⟩
  · intro began hBegan
    rcases mem_or_eq_of_mem_set hBegan with hOld | hNew
    · exact h.fetching began hOld
    · exact (Refresh.fetching.inj hNew)
  · intro other hOther
    obtain ⟨hLength, hRunning⟩ := h.refresh other hOther
    refine ⟨by simpa using hLength, fun result hDone => ?_⟩
    rw [getElem?_set] at hDone
    split at hDone
    · split at hDone <;> cases hDone
    · exact hRunning result hDone

theorem Current.publishFetch (h : s.Current) {call began : Nat}
    (hCall : s.calls[call]? = some (.fetching began)) (result : Except String α) (now : Time) :
    (s.publishFetch call began result now).Current := by
  have hBegan := h.fetching began (mem_of_getElem? hCall)
  have hFetching : ∀ other, Refresh.fetching other ∈
      s.calls.set call (.done (result.map fun value => ⟨value, began⟩)) → other = s.clears := by
    intro other hOther
    rcases mem_or_eq_of_mem_set hOther with hOld | hNew
    · exact h.fetching other hOld
    · cases hNew
  unfold FleetCache.publishFetch
  cases result with
  | error err =>
    exact ⟨h.cached, hFetching, nofun, fun i => (h.readers i).setCall rfl rfl nofun⟩
  | ok value =>
    refine ⟨?_, hFetching, nofun, fun i => (h.readers i).setCall rfl rfl ?_⟩
    · intro _ fetched hFetched
      obtain rfl := some.inj hFetched
      exact hBegan
    · intro fetched hFetched
      obtain rfl := Except.ok.inj (Refresh.done.inj hFetched)
      exact hBegan

/-- With no fetch under way, nothing that a clear leaves behind is served later. -/
theorem Current.clearFleetCache (h : s.Current)
    (hIdle : ∀ call ∈ s.calls, ∀ began, call ≠ .fetching began) : s.clearFleetCache.Current where
  cached := nofun
  fetching := fun began hBegan => absurd rfl (hIdle _ hBegan began)
  refresh := h.refresh
  readers := fun i => (h.readers i).mono (Nat.le_succ _) le_rfl fun _ _ _ => .inl

theorem Current.finish (h : s.Current) (configured : Duration) (i : Nat) :
    (step configured s (.finish i)).Current := by
  simp only [step]
  split
  · rename_i since call stale hReader
    have hWaiting := h.readers i
    rw [hReader] at hWaiting
    obtain ⟨_, _, hStale, hResult⟩ := hWaiting
    split
    · refine h.setReader i fun got hGot => ?_
      obtain rfl := Except.ok.inj hGot
      exact hStale _ rfl
    · rename_i result hDone _
      refine h.setReader i fun got hGot => ?_
      exact hResult got (hGot ▸ hDone)
    · exact h
  · exact h

theorem step_current (configured : Duration) (s : FleetCache α) (event : FleetEvent α)
    (hOk : s.Undisturbed event) (h : s.Current) : (step configured s event).Current := by
  cases event with
  | start i now =>
    simp only [step]
    split
    · exact h
    · exact h.startRead configured i now
  | beginFetch call =>
    simp only [step]
    split
    · exact h.beginFetch call
    · exact h
  | publish call result now =>
    simp only [step]
    split
    · rename_i began hCall
      exact h.publishFetch hCall result now
    · exact h
  | clear => exact h.clearFleetCache hOk
  | finish i => exact h.finish configured i
  | serveStale i =>
    simp only [step]
    split
    · rename_i since call fetched hReader
      have hWaiting := h.readers i
      rw [hReader] at hWaiting
      refine h.setReader i fun got hGot => ?_
      obtain rfl := Except.ok.inj hGot
      exact hWaiting.2.2.1 _ rfl
    · exact h
  | cancel i err =>
    simp only [step]
    split
    · exact h.setReader i nofun
    · exact h

theorem empty_current : ({} : FleetCache α).Current :=
  ⟨nofun, fun _ hMem => absurd hMem not_mem_nil, nofun, fun _ => trivial⟩

/-- If no clear happens while a refresh is waiting for the nodes, every snapshot that a
reader returns was fetched after all clears that happened before the reader started. -/
theorem returned_fetched_after_clears (configured : Duration) (events : List (FleetEvent α))
    (hEvents : Along (step configured) Undisturbed {} events) {reader since : Nat}
    {fetched : Fetched α}
    (hReturned : (run (step configured) {} events).readers reader =
      .returned since (.ok fetched)) : since ≤ fetched.began := by
  have hCurrent := hEvents.invariant Current (step_current configured) empty_current
  have hReader := hCurrent.readers reader
  rw [hReturned] at hReader
  exact hReader fetched rfl

/-- The first reader's snapshot is cleared, and the next reader fetches a new one. -/
def clearedBetween : List (FleetEvent Nat) :=
  [.start 0 0, .beginFetch 0, .publish 0 (.ok 7) 1, .finish 0, .clear,
   .start 1 2, .beginFetch 1, .publish 1 (.ok 8) 3, .finish 1]

theorem returned_fetched_after_clears_between :
    (run (step 0) {} clearedBetween).readers 1 = .returned 1 (.ok ⟨8, 1⟩) ∧
      1 ≤ (⟨8, 1⟩ : Fetched Nat).began := by
  have hReturned : (run (step 0) {} clearedBetween).readers 1 =
      .returned 1 (.ok ⟨8, 1⟩) := rfl
  refine ⟨hReturned, returned_fetched_after_clears 0 clearedBetween ?_ hReturned⟩
  simp [clearedBetween, Along, Undisturbed, step, startRead, publishFetch, recent,
    setReader]

/-- The nodes are being asked when the cache is cleared. A reader that starts after the clear
joins that fetch, and a later one is served the same snapshot from the cache. -/
def clearedDuringFetch : List (FleetEvent Nat) :=
  [.start 0 0, .beginFetch 0, .clear, .start 1 1, .publish 0 (.ok 7) 2, .finish 1, .start 2 3]

theorem returned_fetched_before_clear :
    let s := run (step 0) {} clearedDuringFetch
    s.readers 1 = .returned 1 (.ok ⟨7, 0⟩) ∧ s.readers 2 = .returned 1 (.ok ⟨7, 0⟩) :=
  ⟨rfl, rfl⟩

end FleetCache

end GPUardian
