import GPUardian.Daemon.ObservedJobs
import GPUardian.Library.Fields
import GPUardian.Library.Interleaving

/-! What is reported about an observed job: its start, then updates, then its end. A process that was
reported as gone and is seen again starts under the id it had before. -/
namespace GPUardian

open GoFields List Option Function Interleaving

/-- What an execution id is derived from. -/
inductive ExecutionName where
  | observed (key : JobKey)
  | continued (key : JobKey) (time : Time)
deriving DecidableEq, Repr

namespace ExecutionName

def key : ExecutionName → JobKey
  | .observed key => key
  | .continued key _ => key

def text (bootID : String) : ExecutionName → String
  | .observed key => observedText bootID key
  | .continued key time => continuationText bootID key time

def id [Digest] (bootID : String) (name : ExecutionName) : String := executionID (name.text bootID)

/-- Ids of authorizations have no NUL character, and then the text of a name determines it. -/
theorem text_inj {bootID : String} {first second : ExecutionName}
    (hFirst : Plain first.key.authorizationID) (hSecond : Plain second.key.authorizationID)
    (h : first.text bootID = second.text bootID) : first = second := by
  cases first with
  | observed key =>
    cases second with
    | observed other =>
      obtain ⟨hAuthorization, hRest⟩ := field_inj hFirst hSecond (rest_inj h)
      obtain ⟨hPID, hStart⟩ := field_inj (plain_int _) (plain_int _) hRest
      exact congrArg observed (JobKey.ext hAuthorization (int_repr_inj hPID) (nat_repr_inj hStart))
    | continued other time =>
      obtain ⟨_, hRest⟩ := field_inj hFirst hSecond (rest_inj h)
      obtain ⟨_, hStart⟩ := field_inj (plain_int _) (plain_int _) hRest
      exact absurd hStart (field_ne (plain_nat _))
  | continued key time =>
    cases second with
    | observed other =>
      obtain ⟨_, hRest⟩ := field_inj hFirst hSecond (rest_inj h)
      obtain ⟨_, hStart⟩ := field_inj (plain_int _) (plain_int _) hRest
      exact absurd hStart.symm (field_ne (plain_nat _))
    | continued other time' =>
      obtain ⟨hAuthorization, hRest⟩ := field_inj hFirst hSecond (rest_inj h)
      obtain ⟨hPID, hLast⟩ := field_inj (plain_int _) (plain_int _) hRest
      obtain ⟨hStart, hTime⟩ := field_inj (plain_nat _) (plain_nat _) hLast
      have hKey := JobKey.ext hAuthorization (int_repr_inj hPID) (nat_repr_inj hStart)
      have hNano : unixNano time = unixNano time' := int_repr_inj hTime
      exact congrArg₂ continued hKey ((Int.sub_left_inj _).mp hNano)

end ExecutionName

/-- The jobs and what was reported about them. -/
structure JobsView where
  jobs : AList fun _ : JobKey => ObservedJob
  log : List JobNotice

def Tracker.view (tracker : Tracker) : JobsView :=
  { jobs := tracker.observedJobs, log := tracker.emitted.filter (·.observed) }

/-- The kinds of the events of an execution. -/
def kindsOf (id : String) (log : List JobNotice) : List JobKind :=
  (log.filter (·.report.executionID = id)).map (·.kind)

def OpenKinds (kinds : List JobKind) : Prop :=
  ∃ updates, kinds = .started :: List.replicate updates .updated

def EndedKinds (kinds : List JobKind) : Prop :=
  ∃ updates, kinds = .started :: (List.replicate updates .updated ++ [.finished])

/-- A first part of a start, updates and an end. -/
def Orderly (kinds : List JobKind) : Prop := kinds = [] ∨ OpenKinds kinds ∨ EndedKinds kinds

theorem OpenKinds.update {kinds : List JobKind} (h : OpenKinds kinds) :
    OpenKinds (kinds ++ [.updated]) := by
  obtain ⟨updates, rfl⟩ := h
  exact ⟨updates + 1, by rw [replicate_succ', cons_append]⟩

theorem OpenKinds.finish {kinds : List JobKind} (h : OpenKinds kinds) :
    EndedKinds (kinds ++ [.finished]) := by
  obtain ⟨updates, rfl⟩ := h
  exact ⟨updates, rfl⟩

/-- The reports of a job name the process that the job is keyed by. -/
def JobReport.Of (report : JobReport) (key : JobKey) : Prop :=
  report.authorizationID = key.authorizationID ∧ report.pid = key.pid ∧
    report.procStartTicks = key.startTime

/-- A process was reported as gone. -/
def Gone (log : List JobNotice) (key : JobKey) : Prop :=
  ∃ notice ∈ log, notice.kind = .finished ∧ notice.report.reason = "process_gone" ∧
    notice.report.Of key

instance (report : JobReport) (key : JobKey) : Decidable (report.Of key) :=
  inferInstanceAs (Decidable (_ ∧ _))

instance (log : List JobNotice) (key : JobKey) : Decidable (Gone log key) :=
  inferInstanceAs (Decidable (∃ notice ∈ log, _))

theorem kindsOf_concat (id : String) (log : List JobNotice) (notice : JobNotice) :
    kindsOf id (log ++ [notice]) =
      if notice.report.executionID = id then kindsOf id log ++ [notice.kind] else kindsOf id log := by
  by_cases h : notice.report.executionID = id <;> simp [kindsOf, h]

theorem Gone.append_left {log : List JobNotice} {key : JobKey} (h : Gone log key) (more : List JobNotice) :
    Gone (log ++ more) key := by
  obtain ⟨notice, hMem, hNotice⟩ := h
  exact ⟨notice, mem_append_left _ hMem, hNotice⟩

theorem Gone.append_right {more : List JobNotice} {key : JobKey} (h : Gone more key) (log : List JobNotice) :
    Gone (log ++ more) key := by
  obtain ⟨notice, hMem, hNotice⟩ := h
  exact ⟨notice, mem_append_right _ hMem, hNotice⟩

variable {notice : JobNotice} {other : JobKey} {job new : ObservedJob}

/-- The events of every execution. The ids in `live` are those of the tracked executions. -/
structure Ledger (live used : String → Prop) (log : List JobNotice) : Prop where
  tracked : ∀ id, live id → OpenKinds (kindsOf id log)
  ended : ∀ id, used id → ¬ live id → EndedKinds (kindsOf id log)
  unused : ∀ id, ¬ used id → kindsOf id log = []

namespace Ledger

variable {live live' used used' : String → Prop} {log : List JobNotice}

theorem orderly (h : Ledger live used log) (id : String) : Orderly (kindsOf id log) := by
  by_cases hLive : live id
  · exact .inr (.inl (h.tracked id hLive))
  · by_cases hUsed : used id
    · exact .inr (.inr (h.ended id hUsed hLive))
    · exact .inl (h.unused id hUsed)

theorem update (h : Ledger live used log) (hKind : notice.kind = .updated)
    (hLive : live notice.report.executionID) (hUsed : used notice.report.executionID) :
    Ledger live used (log ++ [notice]) := by
  refine ⟨fun id hID => ?_, fun id hID hNot => ?_, fun id hNot => ?_⟩ <;> rw [kindsOf_concat]
  · split
    · rw [hKind]
      exact (h.tracked id hID).update
    · exact h.tracked id hID
  · rw [if_neg (by rintro rfl; exact hNot hLive)]
    exact h.ended id hID hNot
  · rw [if_neg (by rintro rfl; exact hNot hUsed)]
    exact h.unused id hNot

theorem finish (h : Ledger live used log) (hKind : notice.kind = .finished)
    (hLive : live notice.report.executionID) (hUsed : used notice.report.executionID)
    (hLeft : ∀ id, live' id ↔ live id ∧ notice.report.executionID ≠ id) :
    Ledger live' used (log ++ [notice]) := by
  refine ⟨fun id hID => ?_, fun id hID hNot => ?_, fun id hNot => ?_⟩ <;> rw [kindsOf_concat]
  · rw [if_neg ((hLeft id).mp hID).2]
    exact h.tracked id ((hLeft id).mp hID).1
  · split
    · rename_i hSame
      rw [← hSame, hKind]
      exact (h.tracked _ hLive).finish
    · rename_i hOther
      exact h.ended id hID fun hOld => hNot ((hLeft id).mpr ⟨hOld, hOther⟩)
  · rw [if_neg (by rintro rfl; exact hNot hUsed)]
    exact h.unused id hNot

theorem start (h : Ledger live used log) (hKind : notice.kind = .started)
    (hNew : ¬ used notice.report.executionID)
    (hLive : ∀ id, live' id ↔ notice.report.executionID = id ∨ live id)
    (hUsed : ∀ id, used' id ↔ notice.report.executionID = id ∨ used id) :
    Ledger live' used' (log ++ [notice]) := by
  refine ⟨fun id hID => ?_, fun id hID hNot => ?_, fun id hNot => ?_⟩ <;> rw [kindsOf_concat]
  · split
    · rename_i hSame
      rw [← hSame, h.unused _ hNew, hKind]
      exact ⟨0, rfl⟩
    · rename_i hOther
      exact h.tracked id (((hLive id).mp hID).resolve_left hOther)
  · rw [hLive, not_or] at hNot
    rw [if_neg hNot.1]
    exact h.ended id (((hUsed id).mp hID).resolve_left hNot.1) hNot.2
  · rw [hUsed, not_or] at hNot
    rw [if_neg hNot.1]
    exact h.unused id hNot.2

end Ledger

section Jobs

/-- The job of each key. -/
def JobsView.find (view : JobsView) (key : JobKey) : Option ObservedJob := view.jobs.lookup key

variable {view after : JobsView} {jobs : JobKey → Option ObservedJob} {key : JobKey} {found : Option ObservedJob}

theorem find_of_eq (h : after.jobs = view.jobs) : after.find = view.find := by
  funext other
  rw [JobsView.find, h, JobsView.find]

theorem find_of_insert (h : after.jobs = view.jobs.insert key new) :
    after.find = Function.update view.find key (some new) := by
  funext other
  rw [JobsView.find, h]
  by_cases hKey : other = key
  · rw [hKey, AList.lookup_insert, update_self]
  · rw [AList.lookup_insert_ne hKey, update_of_ne hKey, JobsView.find]

theorem find_of_erase (h : after.jobs = view.jobs.erase key) :
    after.find = Function.update view.find key none := by
  funext other
  rw [JobsView.find, h]
  by_cases hKey : other = key
  · rw [hKey, AList.lookup_erase, update_self]
  · rw [AList.lookup_erase_ne hKey, update_of_ne hKey, JobsView.find]

/-- What holds of all jobs, and of one that takes a place among them, holds afterwards. -/
theorem forall_update {P : JobKey → ObservedJob → Prop}
    (h : ∀ other job, jobs other = some job → P other job) (hNew : ∀ job ∈ found, P key job) :
    ∀ other job, Function.update jobs key found other = some job → P other job := by
  intro other job hJob
  by_cases hKey : other = key
  · subst hKey
    rw [update_self] at hJob
    exact hNew job hJob
  · rw [update_of_ne hKey] at hJob
    exact h other job hJob

/-- The ids of the tracked executions. -/
def Tracks (jobs : JobKey → Option ObservedJob) (id : String) : Prop :=
  ∃ key job, jobs key = some job ∧ job.event.executionID = id

theorem tracks_update {id : String} : Tracks (Function.update jobs key found) id ↔
    (∃ job ∈ found, job.event.executionID = id) ∨
      ∃ other job, other ≠ key ∧ jobs other = some job ∧ job.event.executionID = id := by
  constructor
  · rintro ⟨other, job, hJob, hID⟩
    by_cases hKey : other = key
    · rw [hKey, update_self] at hJob
      exact .inl ⟨job, hJob, hID⟩
    · rw [update_of_ne hKey] at hJob
      exact .inr ⟨other, job, hKey, hJob, hID⟩
  · rintro (⟨job, hJob, hID⟩ | ⟨other, job, hKey, hJob, hID⟩)
    · exact ⟨key, job, by rwa [update_self], hID⟩
    · exact ⟨other, job, by rwa [update_of_ne hKey], hID⟩

theorem tracks_iff (key : JobKey) {id : String} : Tracks jobs id ↔
    (∃ job ∈ jobs key, job.event.executionID = id) ∨
      ∃ other job, other ≠ key ∧ jobs other = some job ∧ job.event.executionID = id := by
  rw [← tracks_update, update_eq_self]

end Jobs

section Moves

variable [Digest] (bootID : String)

/-- One thing that happens to a job, with the name that it takes an execution id from. -/
inductive Moves (view after : JobsView) : List ExecutionName → Prop
  | stay (hJobs : after.jobs = view.jobs) (hLog : after.log = view.log) : Moves view after []
  | keep {key : JobKey} {job new : ObservedJob} (hJob : view.jobs.lookup key = some job)
      (hNew : job.event.Of key → new.event.Of key)
      (hID : new.event.executionID = job.event.executionID)
      (hJobs : after.jobs = view.jobs.insert key new)
      (hLog : after.log = view.log ∨ ∃ notice : JobNotice, notice.kind = .updated ∧
        notice.report = new.event ∧ after.log = view.log ++ [notice]) :
      Moves view after []
  | start {key : JobKey} {new : ObservedJob} {notice : JobNotice} (hNone : view.jobs.lookup key = none)
      (hNew : new.event.Of key)
      (hID : new.event.executionID = (ExecutionName.observed key).id bootID)
      (hKind : notice.kind = .started) (hReport : notice.report = new.event)
      (hJobs : after.jobs = view.jobs.insert key new) (hLog : after.log = view.log ++ [notice]) :
      Moves view after [.observed key]
  | «continue» {key : JobKey} {job new : ObservedJob} {ended notice : JobNotice} {time : Time}
      (hJob : view.jobs.lookup key = some job) (hNew : job.event.Of key → new.event.Of key)
      (hEnded : ended.kind = .finished) (hOld : ended.report.executionID = job.event.executionID)
      (hID : new.event.executionID = (ExecutionName.continued key time).id bootID)
      (hKind : notice.kind = .started) (hReport : notice.report = new.event)
      (hJobs : after.jobs = view.jobs.insert key new) (hLog : after.log = view.log ++ [ended, notice]) :
      Moves view after [.continued key time]
  | finish {key : JobKey} {job : ObservedJob} {ended : JobNotice}
      (hJob : view.jobs.lookup key = some job) (hEnded : ended.kind = .finished)
      (hOld : ended.report.executionID = job.event.executionID)
      (hGone : job.event.Of key → Gone [ended] key)
      (hJobs : after.jobs = view.jobs.erase key) (hLog : after.log = view.log ++ [ended]) :
      Moves view after []

/-- Any number of moves, with the names that they take. -/
inductive Moving (view : JobsView) : List ExecutionName → JobsView → Prop
  | refl : Moving view [] view
  | tail {middle after : JobsView} {names more : List ExecutionName} (first : Moving view names middle)
      (last : Moves bootID middle after more) : Moving view (names ++ more) after

variable {bootID} {view middle after : JobsView} {names more used : List ExecutionName}
  {jobs : JobKey → Option ObservedJob} {key : JobKey}

theorem Moving.single (h : Moves bootID view after names) : Moving bootID view names after := by
  simpa using Moving.tail .refl h

theorem Moving.trans (first : Moving bootID view names middle) (second : Moving bootID middle more after) :
    Moving bootID view (names ++ more) after := by
  induction second with
  | refl => simpa using first
  | tail prior last ih => simpa using ih.tail last

/-- The reports of all jobs name the processes that the jobs are keyed by. -/
theorem Moves.of (h : Moves bootID view after names)
    (hOf : ∀ key job, view.find key = some job → job.event.Of key) :
    ∀ key job, after.find key = some job → job.event.Of key := by
  cases h with
  | stay hJobs _ => rwa [find_of_eq hJobs]
  | keep hJob hNew _ hJobs =>
    rw [find_of_insert hJobs]
    exact forall_update hOf (by simpa using hNew (hOf _ _ hJob))
  | start _ hNew _ _ _ hJobs =>
    rw [find_of_insert hJobs]
    exact forall_update hOf (by simpa using hNew)
  | «continue» hJob hNew _ _ _ _ _ hJobs =>
    rw [find_of_insert hJobs]
    exact forall_update hOf (by simpa using hNew (hOf _ _ hJob))
  | finish _ _ _ _ hJobs =>
    rw [find_of_erase hJobs]
    exact forall_update hOf (by simp)

theorem Moves.log (h : Moves bootID view after names) : ∃ more, after.log = view.log ++ more := by
  cases h with
  | stay _ hLog => exact ⟨[], by simpa using hLog⟩
  | keep _ _ _ _ hLog =>
    rcases hLog with hLog | ⟨notice, _, _, hLog⟩
    · exact ⟨[], by simpa using hLog⟩
    · exact ⟨[notice], hLog⟩
  | start _ _ _ _ _ _ hLog => exact ⟨_, hLog⟩
  | «continue» _ _ _ _ _ _ _ _ hLog => exact ⟨_, hLog⟩
  | finish _ _ _ _ _ hLog => exact ⟨_, hLog⟩

/-- A process that a job was named after is tracked, or was reported as gone. -/
theorem Moves.gone (h : Moves bootID view after names)
    (hOf : ∀ key job, view.find key = some job → job.event.Of key)
    (hGone : ∀ key, .observed key ∈ used → view.find key ≠ none ∨ Gone view.log key) :
    ∀ key, .observed key ∈ used ++ names → after.find key ≠ none ∨ Gone after.log key := by
  obtain ⟨more, hLog⟩ := h.log
  have hOther : ∀ {key found other}, after.find = Function.update view.find key found →
      other ≠ key → .observed other ∈ used → after.find other ≠ none ∨ Gone after.log other := by
    intro key found other hFind hKey hUsed
    rw [hFind, update_of_ne hKey, hLog]
    exact (hGone other hUsed).imp_right fun hOld => hOld.append_left more
  have hInsert : ∀ {key new}, after.jobs = view.jobs.insert key new →
      (∀ other, .observed other ∈ names → other = key) →
        ∀ other, .observed other ∈ used ++ names → after.find other ≠ none ∨ Gone after.log other := by
    intro key new hJobs hNames other hMem
    by_cases hKey : other = key
    · rw [find_of_insert hJobs, hKey, update_self]
      exact .inl (some_ne_none _)
    · exact hOther (find_of_insert hJobs) hKey
        ((mem_append.mp hMem).resolve_right fun hNew => hKey (hNames other hNew))
  cases h with
  | stay hJobs hLog => rwa [append_nil, find_of_eq hJobs, hLog]
  | keep _ _ _ hJobs => exact hInsert hJobs (by simp)
  | start _ _ _ _ _ hJobs => exact hInsert hJobs (by simp)
  | «continue» _ _ _ _ _ _ _ hJobs => exact hInsert hJobs (by simp)
  | @finish key job _ hJob _ _ hEnded hJobs hLast =>
    intro other hMem
    rw [append_nil] at hMem
    by_cases hKey : other = key
    · rw [hKey, hLast]
      exact .inr ((hEnded (hOf key job hJob)).append_right _)
    · exact hOther (find_of_erase hJobs) hKey hMem

/-- No two of the names give the same id. -/
def Distinct (bootID : String) (names : List ExecutionName) : Prop :=
  ∀ first ∈ names, ∀ second ∈ names, first.id bootID = second.id bootID → first = second

theorem Distinct.mono {names more : List ExecutionName} (h : Distinct bootID more) (hSub : names ⊆ more) :
    Distinct bootID names :=
  fun first hFirst second hSecond => h first (hSub hFirst) second (hSub hSecond)

/-- The ids that were taken from names. -/
def Names (bootID : String) (used : List ExecutionName) (id : String) : Prop :=
  ∃ name ∈ used, name.id bootID = id

/-- The tracked jobs have names of their own, and the log has the events of each. -/
structure Logged (bootID : String) (used : List ExecutionName)
    (jobs : JobKey → Option ObservedJob) (log : List JobNotice) : Prop where
  named : ∀ key job, jobs key = some job →
    ∃ name ∈ used, name.key = key ∧ job.event.executionID = name.id bootID
  ledger : Ledger (Tracks jobs) (Names bootID used) log

namespace Logged

variable {log : List JobNotice}

theorem takes (h : Logged bootID used jobs log) (hJob : jobs key = some job) :
    Names bootID used job.event.executionID := by
  obtain ⟨name, hName, _, hID⟩ := h.named key job hJob
  exact ⟨name, hName, hID.symm⟩

/-- A job is replaced by one with the same id. -/
theorem keep (h : Logged bootID used jobs log) (hJob : jobs key = some job)
    (hID : new.event.executionID = job.event.executionID) :
    Logged bootID used (Function.update jobs key (some new)) log where
  named := forall_update h.named (by simpa [hID] using h.named key job hJob)
  ledger := by
    have hTracks : Tracks (Function.update jobs key (some new)) = Tracks jobs := by
      funext id
      rw [eq_iff_iff, tracks_update, tracks_iff key, hJob]
      simp [hID]
    rw [hTracks]
    exact h.ledger

theorem update (h : Logged bootID used jobs log) (hJob : jobs key = some job)
    (hKind : notice.kind = .updated) (hID : notice.report.executionID = job.event.executionID) :
    Logged bootID used jobs (log ++ [notice]) :=
  ⟨h.named, h.ledger.update hKind ⟨key, job, hJob, hID.symm⟩ (hID ▸ h.takes hJob)⟩

theorem finish (h : Logged bootID used jobs log) (hDistinct : Distinct bootID used)
    (hJob : jobs key = some job) (hKind : notice.kind = .finished)
    (hID : notice.report.executionID = job.event.executionID) :
    Logged bootID used (Function.update jobs key none) (log ++ [notice]) where
  named := forall_update h.named (by simp)
  ledger := by
    refine h.ledger.finish hKind ⟨key, job, hJob, hID.symm⟩ (hID ▸ h.takes hJob) fun id => ?_
    rw [tracks_update, tracks_iff key, hJob, hID]
    constructor
    · rintro (⟨_, hNone, _⟩ | ⟨other, found, hKey, hFound, rfl⟩)
      · cases hNone
      · refine ⟨.inr ⟨other, found, hKey, hFound, rfl⟩, fun hSame => ?_⟩
        obtain ⟨name, hName, hOf, hNameID⟩ := h.named key job hJob
        obtain ⟨name', hName', hOf', hNameID'⟩ := h.named other found hFound
        rw [hNameID, hNameID'] at hSame
        exact hKey (by rw [← hOf, ← hOf', hDistinct name hName name' hName' hSame])
    · rintro ⟨⟨_, hSome, hSame⟩ | hOthers, hNot⟩
      · exact absurd (some.inj hSome ▸ hSame) hNot
      · exact .inr hOthers

theorem start (h : Logged bootID used jobs log) (name : ExecutionName)
    (hDistinct : Distinct bootID (used ++ [name])) (hFresh : name ∉ used) (hNone : jobs name.key = none)
    (hID : new.event.executionID = name.id bootID) (hKind : notice.kind = .started)
    (hReport : notice.report = new.event) :
    Logged bootID (used ++ [name]) (Function.update jobs name.key (some new)) (log ++ [notice]) where
  named := by
    refine forall_update (fun other job hJob => ?_) ?_
    · obtain ⟨old, hOld, hNamed⟩ := h.named other job hJob
      exact ⟨old, mem_append_left _ hOld, hNamed⟩
    · simpa using Or.inr hID
  ledger := by
    refine h.ledger.start hKind ?_ (fun id => ?_) fun id => ?_
    · rintro ⟨old, hOld, hSame⟩
      rw [hReport, hID] at hSame
      have hEq := hDistinct old (mem_append_left _ hOld) name (by simp) hSame
      exact hFresh (hEq ▸ hOld)
    · rw [tracks_update, tracks_iff name.key, hNone, hReport]
      simp
    · simp [Names, hReport, hID, or_comm, or_and_right, exists_or]

end Logged

/-- The invariant; `used` are the names that execution ids were taken from. -/
structure JobsView.Sound (bootID : String) (used : List ExecutionName) (view : JobsView) : Prop where
  tracked : ∀ key job, view.jobs.lookup key = some job → job.event.Of key ∧
    OpenKinds (kindsOf job.event.executionID view.log) ∧
    ∃ name ∈ used, name.key = key ∧ job.event.executionID = name.id bootID
  ended : ∀ name ∈ used,
    (∀ key job, view.jobs.lookup key = some job → job.event.executionID ≠ name.id bootID) →
      EndedKinds (kindsOf (name.id bootID) view.log)
  unused : ∀ id, (∀ name ∈ used, name.id bootID ≠ id) → kindsOf id view.log = []
  gone : ∀ key, .observed key ∈ used → view.jobs.lookup key ≠ none ∨ Gone view.log key

namespace JobsView.Sound

theorem of (h : view.Sound bootID used) : ∀ key job, view.find key = some job → job.event.Of key :=
  fun key job hJob => (h.tracked key job hJob).1

theorem recorded (h : view.Sound bootID used) : Logged bootID used view.find view.log := by
  refine ⟨fun key job hJob => (h.tracked key job hJob).2.2, ?_, ?_, ?_⟩
  · rintro _ ⟨key, job, hJob, rfl⟩
    exact (h.tracked key job hJob).2.1
  · rintro _ ⟨name, hName, rfl⟩ hNot
    exact h.ended name hName fun key job hJob hSame => hNot ⟨key, job, hJob, hSame⟩
  · intro id hNot
    exact h.unused id fun name hName hSame => hNot ⟨name, hName, hSame⟩

end JobsView.Sound

theorem Logged.moves (h : Logged bootID used view.find view.log)
    (hMoves : Moves bootID view after names) (hDistinct : Distinct bootID (used ++ names))
    (hFresh : ∀ name ∈ names, name ∉ used) : Logged bootID (used ++ names) after.find after.log := by
  cases hMoves with
  | stay hJobs hLog => rwa [append_nil, find_of_eq hJobs, hLog]
  | keep hJob hNew hID hJobs hLog =>
    rw [append_nil, find_of_insert hJobs]
    have hKept := h.keep hJob hID
    rcases hLog with hLog | ⟨notice, hKind, hReport, hLog⟩
    · rwa [hLog]
    · rw [hLog]
      exact hKept.update (update_self ..) hKind (by rw [hReport])
  | start hNone hNew hID hKind hReport hJobs hLog =>
    rw [find_of_insert hJobs, hLog]
    exact h.start _ hDistinct (hFresh _ (mem_singleton_self _)) hNone hID hKind hReport
  | @«continue» key _ new ended notice time hJob hNew hEnded hOld hID hKind hReport hJobs hLog =>
    have hFinished := h.finish (hDistinct.mono (subset_append_left used _)) hJob hEnded hOld
    have hStarted := hFinished.start (.continued key time) hDistinct
      (hFresh _ (mem_singleton_self _)) (update_self ..) hID hKind hReport
    rw [append_assoc, show ExecutionName.key (.continued key time) = key from rfl,
      update_idem] at hStarted
    rwa [find_of_insert hJobs, hLog]
  | finish hJob hEnded hOld hGone hJobs hLog =>
    rw [append_nil] at hDistinct ⊢
    rw [find_of_erase hJobs, hLog]
    exact h.finish hDistinct hJob hEnded hOld

theorem JobsView.Sound.moves (h : view.Sound bootID used) (hMoves : Moves bootID view after names)
    (hDistinct : Distinct bootID (used ++ names)) (hFresh : ∀ name ∈ names, name ∉ used) :
    after.Sound bootID (used ++ names) := by
  have hAfter := h.recorded.moves hMoves hDistinct hFresh
  refine ⟨fun key job hJob => ⟨hMoves.of h.of key job hJob, ?_, hAfter.named key job hJob⟩,
    fun name hName hNot => ?_, fun id hNot => ?_, hMoves.gone h.of h.gone⟩
  · exact hAfter.ledger.tracked _ ⟨key, job, hJob, rfl⟩
  · refine hAfter.ledger.ended _ ⟨name, hName, rfl⟩ ?_
    rintro ⟨key, job, hJob, hSame⟩
    exact hNot key job hJob hSame
  · refine hAfter.ledger.unused id ?_
    rintro ⟨name, hName, hSame⟩
    exact hNot name hName hSame

theorem JobsView.Sound.moving (h : view.Sound bootID used)
    (hMoving : Moving bootID view names after) (hDistinct : Distinct bootID (used ++ names))
    (hNodup : (used ++ names).Nodup) : after.Sound bootID (used ++ names) := by
  induction hMoving with
  | refl => simpa using h
  | tail first last ih =>
    rename_i middle after names more
    rw [← append_assoc] at hDistinct hNodup ⊢
    refine (ih (hDistinct.mono (subset_append_left _ _)) hNodup.of_append_left).moves last
      hDistinct fun name hName hUsed => ?_
    exact (nodup_append.mp hNodup).2.2 name hUsed name hName rfl

end Moves

namespace Tracker

@[simp]
theorem emit_view (kind : JobKind) (report : JobReport) (time : Time) (tracker : Tracker) :
    (tracker.emit kind report time).view =
      { jobs := tracker.observedJobs
        log := tracker.view.log ++ [{ kind := kind, report := report, occurredAt := time }] } := by
  simp [emit, view]

@[simp]
theorem setJob_view (key : JobKey) (job : ObservedJob) (tracker : Tracker) :
    (tracker.setJob key job).view =
      { jobs := tracker.observedJobs.insert key job, log := tracker.view.log } := rfl

@[simp]
theorem removeJob_view (key : JobKey) (tracker : Tracker) :
    (tracker.removeJob key).view =
      { jobs := tracker.observedJobs.erase key, log := tracker.view.log } := rfl

theorem updateRunJob_frame (id : String) (gpu : Int) (now : Time) (tracker : Tracker) :
    (tracker.updateRunJob id gpu now).view = tracker.view ∧
      (tracker.updateRunJob id gpu now).bootID = tracker.bootID := by
  unfold updateRunJob
  split
  · exact ⟨rfl, rfl⟩
  · split
    · exact ⟨rfl, rfl⟩
    · simp [view]

end Tracker

/-- The key that a decision is tracked under. -/
def Decision.jobKey (decision : Decision) : JobKey :=
  ⟨decision.authID, decision.process.pid, decision.info.startTime⟩

/-- The processes that a pass decides on. -/
def TrackerEvent.keys : TrackerEvent → List JobKey
  | .pass _ decisions _ _ => decisions.map (·.jobKey)
  | _ => []

def TrackerEvent.times : TrackerEvent → List Time
  | .pass _ _ _ now => [now]
  | _ => []

/-- The names of these processes and times. -/
def allNames (keys : List JobKey) (times : List Time) : List ExecutionName :=
  keys.map .observed ++ keys.flatMap fun key => times.map (.continued key)

/-- The names that a run may take execution ids from. -/
def executionNames (events : List TrackerEvent) : List ExecutionName :=
  allNames (events.flatMap (·.keys)) (events.flatMap (·.times))

/-- A pass that allows no process that was reported as gone under the same authorization. -/
def Tracker.Unseen (tracker : Tracker) : TrackerEvent → Prop
  | .pass _ decisions _ _ => ∀ decision ∈ decisions, decision.action = .allow →
      ¬ Gone tracker.view.log decision.jobKey
  | _ => True

instance (tracker : Tracker) : (event : TrackerEvent) → Decidable (tracker.Unseen event)
  | .pass .. => inferInstanceAs (Decidable (∀ decision ∈ _, _))
  | .complete .. | .runs .. => isTrue trivial

section Track

variable [Digest] {tracker : Tracker} {key : JobKey} {now : Time}

namespace Tracker

/-- A new job. -/
theorem start_moves (io : TrackIO) {authorization : Authorization} {decision : Decision}
    (groupIDs : List String) (hNone : tracker.observedJobs.lookup key = none)
    (hKey : key = ⟨authorization.id, decision.process.pid, decision.info.startTime⟩) :
    Moves tracker.bootID tracker.view (tracker.start io authorization decision groupIDs key now).view
        [.observed key] ∧
      (tracker.start io authorization decision groupIDs key now).bootID = tracker.bootID := by
  set event := (newObservedTelemetryJobEvent io authorization decision groupIDs now
    (observedExecutionID tracker.bootID key)).1 with hEvent
  have hView : (tracker.start io authorization decision groupIDs key now).view =
      ((tracker.setJob key { event := event, lastSeen := now }).emit .started event now).view ∧
      (tracker.start io authorization decision groupIDs key now).bootID = tracker.bootID := by
    unfold start
    dsimp only
    split <;> exact ⟨rfl, rfl⟩
  have hOf : event.Of key := by
    rw [hKey]
    exact ⟨rfl, rfl, rfl⟩
  refine ⟨?_, hView.2⟩
  rw [hView.1, emit_view]
  exact .start hNone hOf rfl rfl rfl rfl rfl

/-- A tracked job that is seen. -/
theorem see_moves (gpu : Int) (groupIDs : List String)
    (hJob : tracker.observedJobs.lookup key = some job) :
    Moves tracker.bootID tracker.view (tracker.see gpu groupIDs key job now).view [] ∧
      (tracker.see gpu groupIDs key job now).bootID = tracker.bootID := by
  unfold see
  dsimp only
  split
  · rw [emit_view]
    exact ⟨.keep hJob (by exact fun hOf => hOf) (by rfl) rfl (.inr ⟨_, rfl, rfl, rfl⟩), rfl⟩
  · exact ⟨.keep hJob (by exact fun hOf => hOf) (by rfl) rfl (.inl rfl), rfl⟩

theorem start_jobs (io : TrackIO) (authorization : Authorization) (decision : Decision)
    (groupIDs : List String) : ∃ new, (tracker.start io authorization decision groupIDs key now).observedJobs =
      tracker.observedJobs.insert key new := by
  unfold start
  dsimp only
  split <;> exact ⟨_, rfl⟩

omit [Digest] in
theorem see_jobs (gpu : Int) (groupIDs : List String) (job : ObservedJob) :
    ∃ new, (tracker.see gpu groupIDs key job now).observedJobs = tracker.observedJobs.insert key new := by
  unfold see
  dsimp only
  split <;> exact ⟨_, rfl⟩

end Tracker

open Tracker

omit [Digest] in
theorem lookup_insert_none {jobs : AList fun _ : JobKey => ObservedJob} {key : JobKey}
    (h : (jobs.insert other new).lookup key = none) : key ≠ other ∧ jobs.lookup key = none := by
  have hKey : key ≠ other := by
    rintro rfl
    rw [AList.lookup_insert] at h
    cases h
  rw [AList.lookup_insert_ne hKey] at h
  exact ⟨hKey, h⟩

/-- What a decision does: nothing to the observed jobs, or something to the job of its key. -/
theorem trackDecision_moves (now : Time) (state : State) (io : TrackIO) (pass : TrackPass) (decision : Decision) :
    let after := (trackDecision state io now pass decision).tracker
    after.bootID = pass.tracker.bootID ∧
      (after.view = pass.tracker.view ∨
        (∃ new, after.observedJobs = pass.tracker.observedJobs.insert decision.jobKey new) ∧
          (Moves pass.tracker.bootID pass.tracker.view after.view [] ∨
            decision.action = .allow ∧ pass.tracker.observedJobs.lookup decision.jobKey = none ∧
              Moves pass.tracker.bootID pass.tracker.view after.view [.observed decision.jobKey])) := by
  dsimp only
  unfold trackDecision
  split
  · exact ⟨rfl, .inl rfl⟩
  · rename_i hAllowed
    have hAction : decision.action = .allow := by
      by_contra hOther
      exact hAllowed (.inl hOther)
    split
    · exact ⟨rfl, .inl rfl⟩
    · rename_i authorization hAuthorization
      have hID : authorization.id = decision.authID := by
        have hMem := mem_of_getLast? hAuthorization
        simpa using (mem_filter.mp hMem).2
      split
      · exact ⟨rfl, .inl rfl⟩
      · split
        · obtain ⟨hView, hBoot⟩ := updateRunJob_frame authorization.id decision.process.gpu now
            pass.tracker
          exact ⟨hBoot, .inl hView⟩
        · split
          · exact ⟨rfl, .inl rfl⟩
          · split
            · exact ⟨rfl, .inl rfl⟩
            · dsimp only
              have hKey : (⟨authorization.id, decision.process.pid, decision.info.startTime⟩ : JobKey) =
                  decision.jobKey := by
                rw [hID]
                rfl
              rw [hKey]
              split
              · rename_i hNone
                obtain ⟨hMoves, hBoot⟩ := start_moves io _ hNone hKey.symm
                exact ⟨hBoot, .inr ⟨start_jobs .., .inr ⟨hAction, hNone, hMoves⟩⟩⟩
              · rename_i job hJob
                obtain ⟨hMoves, hBoot⟩ := see_moves decision.process.gpu _ hJob
                exact ⟨hBoot, .inr ⟨see_jobs .., .inl hMoves⟩⟩

/-- The loop over the decisions starts jobs of allowed processes that were not tracked. -/
theorem trackDecisions_moving (now : Time) (state : State) (io : TrackIO) (decisions : List Decision)
    (pass : TrackPass) :
    let after := (decisions.foldl (trackDecision state io now) pass).tracker
    after.bootID = pass.tracker.bootID ∧
      ∃ started : List JobKey, started.Nodup ∧
        (∀ key ∈ started, pass.tracker.observedJobs.lookup key = none ∧
          ∃ decision ∈ decisions, decision.action = .allow ∧ decision.jobKey = key) ∧
        Moving pass.tracker.bootID pass.tracker.view (started.map .observed) after.view := by
  induction decisions generalizing pass with
  | nil => exact ⟨rfl, [], .nil, by simp, .refl⟩
  | cons decision decisions ih =>
    obtain ⟨hBoot, hFirst⟩ := trackDecision_moves now state io pass decision
    obtain ⟨hBootRest, started, hNodup, hStarted, hMoving⟩ :=
      ih (trackDecision state io now pass decision)
    refine ⟨hBootRest.trans hBoot, ?_⟩
    rw [hBoot] at hMoving
    rcases hFirst with hView | ⟨⟨new, hJobs⟩, hFirst⟩
    · rw [hView] at hMoving
      refine ⟨started, hNodup, fun key hMem => ?_, hMoving⟩
      obtain ⟨hNone, other, hOther, hAllowed⟩ := hStarted key hMem
      have hSame : (trackDecision state io now pass decision).tracker.observedJobs =
          pass.tracker.observedJobs := congrArg JobsView.jobs hView
      rw [hSame] at hNone
      exact ⟨hNone, other, mem_cons_of_mem _ hOther, hAllowed⟩
    · have hRest : ∀ key ∈ started, key ≠ decision.jobKey ∧
          pass.tracker.observedJobs.lookup key = none ∧
          ∃ other ∈ decision :: decisions, other.action = .allow ∧ other.jobKey = key := by
        intro key hMem
        obtain ⟨hNone, other, hOther, hAllowed⟩ := hStarted key hMem
        rw [hJobs] at hNone
        obtain ⟨hKey, hNone⟩ := lookup_insert_none hNone
        exact ⟨hKey, hNone, other, mem_cons_of_mem _ hOther, hAllowed⟩
      rcases hFirst with hMoves | ⟨hAction, hNone, hMoves⟩
      · exact ⟨started, hNodup, fun key hMem => (hRest key hMem).2, (Moving.single hMoves).trans hMoving⟩
      · refine ⟨decision.jobKey :: started, nodup_cons.mpr ⟨fun hMem => ?_, hNodup⟩,
          forall_mem_cons.mpr ⟨⟨hNone, decision, mem_cons_self, hAction, rfl⟩,
            fun key hMem => (hRest key hMem).2⟩, (Moving.single hMoves).trans hMoving⟩
        exact (hRest _ hMem).1 rfl

theorem continueJob_moves (seen : List JobKey) (groups : List (JobKey × String)) (now : Time)
    (hOf : ∀ job, tracker.observedJobs.lookup key = some job → job.event.Of key) :
    let after := tracker.continueJob seen groups now key
    after.bootID = tracker.bootID ∧
      (after = tracker ∨ Moves tracker.bootID tracker.view after.view [.continued key now]) := by
  dsimp only
  unfold continueJob
  split
  · exact ⟨rfl, .inl rfl⟩
  · rename_i job hJob
    split
    · exact ⟨rfl, .inl rfl⟩
    · refine ⟨rfl, .inr ?_⟩
      obtain ⟨hAuthorization, hPID, hStart⟩ := hOf job hJob
      rw [emit_view, setJob_view, emit_view]
      refine .continue hJob (by exact fun hOf => hOf) (by rfl) (by rfl) ?_ (by rfl) rfl rfl
        (append_assoc ..)
      dsimp only [continued]
      rw [hAuthorization, hPID, hStart]
      rfl

/-- The loop that ends the jobs whose reservation is over. Every key is visited once. -/
theorem continueJobs_moving (seen : List JobKey) (groups : List (JobKey × String)) (now : Time)
    {keys : List JobKey} (hNodup : keys.Nodup) (hOf : ∀ key job, tracker.observedJobs.lookup key = some job → job.event.Of key) :
    let after := keys.foldl (continueJob seen groups now) tracker
    after.bootID = tracker.bootID ∧
      ∃ continued : List JobKey, continued.Nodup ∧ (∀ key ∈ continued, key ∈ keys) ∧
        Moving tracker.bootID tracker.view (continued.map (ExecutionName.continued · now)) after.view := by
  induction keys generalizing tracker with
  | nil => exact ⟨rfl, [], .nil, by simp, .refl⟩
  | cons key keys ih =>
    rw [nodup_cons] at hNodup
    obtain ⟨hBoot, hFirst⟩ := continueJob_moves seen groups now (hOf key)
    have hOfRest : ∀ other job,
        (tracker.continueJob seen groups now key).observedJobs.lookup other = some job →
          job.event.Of other := by
      rcases hFirst with hSame | hMoves
      · rwa [hSame]
      · exact hMoves.of hOf
    obtain ⟨hBootRest, continued, hContinued, hMem, hMoving⟩ := ih hNodup.2 hOfRest
    refine ⟨hBootRest.trans hBoot, ?_⟩
    rw [hBoot] at hMoving
    rcases hFirst with hSame | hMoves
    · rw [hSame] at hMoving
      rw [foldl_cons, hSame]
      exact ⟨continued, hContinued, fun other h => mem_cons_of_mem _ (hMem other h), hMoving⟩
    · refine ⟨key :: continued, nodup_cons.mpr ⟨fun h => hNodup.1 (hMem key h), hContinued⟩,
        forall_mem_cons.mpr ⟨mem_cons_self, fun other h => mem_cons_of_mem _ (hMem other h)⟩,
        (Moving.single hMoves).trans hMoving⟩

theorem missJob_moves (seen : List JobKey) (tracker : Tracker) (key : JobKey) :
    (tracker.missJob seen key).bootID = tracker.bootID ∧
      Moves tracker.bootID tracker.view (tracker.missJob seen key).view [] := by
  unfold missJob
  split
  · exact ⟨rfl, .stay rfl rfl⟩
  · rename_i job hJob
    split
    · exact ⟨rfl, .stay rfl rfl⟩
    · split
      · exact ⟨rfl, .keep hJob (by exact fun hOf => hOf) (by rfl) rfl (.inl rfl)⟩
      · refine ⟨rfl, ?_⟩
        rw [removeJob_view, emit_view]
        exact .finish hJob (by rfl) (by rfl)
          (fun hOf => ⟨_, mem_singleton_self _, rfl, rfl, hOf⟩) rfl rfl

/-- A loop whose turns take no names. -/
theorem foldl_moving {ι : Type} {turn : Tracker → ι → Tracker}
    (hTurn : ∀ tracker item, (turn tracker item).bootID = tracker.bootID ∧
      Moves tracker.bootID tracker.view (turn tracker item).view []) (items : List ι) (tracker : Tracker) :
    (items.foldl turn tracker).bootID = tracker.bootID ∧
      Moving tracker.bootID tracker.view [] (items.foldl turn tracker).view := by
  induction items generalizing tracker with
  | nil => exact ⟨rfl, .refl⟩
  | cons item items ih =>
    obtain ⟨hBoot, hMoves⟩ := hTurn tracker item
    obtain ⟨hBootRest, hMoving⟩ := ih (turn tracker item)
    rw [hBoot] at hMoving
    exact ⟨hBootRest.trans hBoot, (Moving.single hMoves).trans hMoving⟩

theorem completeRuntimeContext_moves (resolved : String → String → Option RuntimeContext) (now : Time)
    (tracker : Tracker) (item : PendingRuntimeContext) :
    (tracker.completeRuntimeContext resolved now item).bootID = tracker.bootID ∧
      Moves tracker.bootID tracker.view (tracker.completeRuntimeContext resolved now item).view [] := by
  unfold completeRuntimeContext
  split
  · rename_i value job _ hJob
    split
    · exact ⟨rfl, .stay rfl rfl⟩
    · dsimp only
      split
      · exact ⟨rfl, .stay rfl rfl⟩
      · refine ⟨rfl, ?_⟩
        rw [emit_view]
        exact .keep hJob (by exact fun hOf => hOf) (by rfl) rfl (.inr ⟨_, rfl, rfl, rfl⟩)
  · exact ⟨rfl, .stay rfl rfl⟩

/-- Names of these processes and times, each once. -/
structure NamesOf (keys : List JobKey) (times : List Time) (names : List ExecutionName) : Prop where
  nodup : names.Nodup
  keys : ∀ name ∈ names, name.key ∈ keys
  times : ∀ key time, .continued key time ∈ names → time ∈ times

/-- What holds between the passes. -/
structure Tracker.Tracked (bootID : String) (keys : List JobKey) (times : List Time) (tracker : Tracker) :
    Prop where
  boot : tracker.bootID = bootID
  sound : ∃ used, NamesOf keys times used ∧ tracker.view.Sound bootID used

variable {bootID : String} {keys : List JobKey} {times : List Time} {used names : List ExecutionName}

omit [Digest] in
theorem NamesOf.subset (h : NamesOf keys times used) : used ⊆ allNames keys times := by
  intro name hName
  have hKey := h.keys name hName
  cases name with
  | observed key => exact mem_append_left _ (List.mem_map_of_mem hKey)
  | continued key time =>
    exact mem_append_right _
      (mem_flatMap.mpr ⟨key, hKey, List.mem_map_of_mem (h.times key time hName)⟩)

omit [Digest] in
theorem NamesOf.append (h : NamesOf keys times used) (hNames : NamesOf keys times names)
    (hFresh : ∀ name ∈ names, name ∉ used) : NamesOf keys times (used ++ names) where
  nodup := nodup_append.mpr ⟨h.nodup, hNames.nodup, fun _ hUsed other hOther hSame =>
    hFresh other hOther (hSame ▸ hUsed)⟩
  keys := forall_mem_append.mpr ⟨h.keys, hNames.keys⟩
  times key time hMem := (mem_append.mp hMem).elim (h.times key time) (hNames.times key time)

namespace Tracker

/-- A pass at a new time keeps what holds between the passes. -/
theorem Tracked.pass (h : tracker.Tracked bootID keys times)
    (hDistinct : Distinct bootID (allNames keys (times ++ [now]))) (hNow : now ∉ times) {state : State}
    {decisions : List Decision} {io : TrackIO} (hKeys : ∀ decision ∈ decisions, decision.jobKey ∈ keys)
    (hUnseen : ∀ decision ∈ decisions, decision.action = .allow →
      ¬ Gone tracker.view.log decision.jobKey) :
    (tracker.trackObservedTelemetryJobs state decisions io now).Tracked bootID keys (times ++ [now]) := by
  obtain ⟨rfl, used, hUsed, hSound⟩ := h
  have hWider : NamesOf keys (times ++ [now]) used :=
    ⟨hUsed.nodup, hUsed.keys, fun key time hMem => mem_append_left _ (hUsed.times key time hMem)⟩
  unfold trackObservedTelemetryJobs
  dsimp only
  -- jobs start under the names of processes that have not been seen before
  obtain ⟨hBootPass, started, hNodup, hStarted, hStarting⟩ :=
    trackDecisions_moving now state io decisions { tracker := tracker }
  dsimp only at hBootPass hStarted hStarting
  set pass := decisions.foldl (trackDecision state io now) { tracker := tracker }
  have hStartedNames : NamesOf keys (times ++ [now]) (started.map .observed) := by
    refine ⟨hNodup.map fun _ _ hSame => ExecutionName.observed.inj hSame, ?_, by simp⟩
    simp only [List.forall_mem_map]
    intro key hMem
    obtain ⟨_, decision, hDecision, _, hKey⟩ := hStarted key hMem
    exact hKey ▸ hKeys decision hDecision
  have hUsedStarted := hWider.append hStartedNames (by
    simp only [List.forall_mem_map]
    intro key hMem hOld
    obtain ⟨hNone, decision, hDecision, hAllowed, hKey⟩ := hStarted key hMem
    rcases hSound.gone key hOld with hTracked | hGone
    · exact hTracked hNone
    · exact hUnseen decision hDecision hAllowed (hKey ▸ hGone))
  have hSoundPass := hSound.moving hStarting (hDistinct.mono hUsedStarted.subset) hUsedStarted.nodup
  -- jobs go on under names with the time of this pass
  have hVisited : (io.continues.visit pass.tracker.observedJobs.keys).Nodup :=
    (io.continues.perm _).nodup_iff.mpr (AList.keys_nodup _)
  obtain ⟨hBootContinued, continued, hNodupContinued, hContinued, hContinuing⟩ :=
    continueJobs_moving pass.seen pass.groups now hVisited
      hSoundPass.of
  set after := (io.continues.visit pass.tracker.observedJobs.keys).foldl
    (continueJob pass.seen pass.groups now) pass.tracker
  have hContinuedNames : NamesOf keys (times ++ [now]) (continued.map (ExecutionName.continued · now)) := by
    refine ⟨hNodupContinued.map fun _ _ hSame => (ExecutionName.continued.inj hSame).1, ?_, ?_⟩
    · simp only [List.forall_mem_map]
      intro key hMem
      have hTracked := (io.continues.perm _).mem_iff.mp (hContinued key hMem)
      obtain ⟨job, hJob⟩ := isSome_iff_exists.mp (AList.lookup_isSome.mpr hTracked)
      obtain ⟨name, hName, hNameKey, _⟩ := hSoundPass.recorded.named key job hJob
      exact hNameKey ▸ hUsedStarted.keys name hName
    · simp only [List.mem_map]
      rintro key time ⟨_, _, hSame⟩
      rw [← (ExecutionName.continued.inj hSame).2]
      exact mem_append_right _ (mem_singleton_self now)
  have hUsedContinued := hUsedStarted.append hContinuedNames (by
    simp only [List.forall_mem_map]
    intro key _ hOld
    rcases mem_append.mp hOld with hOld | hStart
    · exact hNow (hUsed.times key now hOld)
    · simp at hStart)
  rw [hBootPass] at hContinuing hBootContinued
  have hSoundContinued := hSoundPass.moving hContinuing (hDistinct.mono hUsedContinued.subset)
    hUsedContinued.nodup
  obtain ⟨hBootMissed, hMissing⟩ := foldl_moving (missJob_moves pass.seen)
    (io.misses.visit after.observedJobs.keys) after
  rw [hBootContinued] at hMissing hBootMissed
  refine ⟨hBootMissed, _, hUsedContinued, ?_⟩
  have hSoundMissed := hSoundContinued.moving hMissing
  rw [append_nil] at hSoundMissed
  exact hSoundMissed (hDistinct.mono hUsedContinued.subset) hUsedContinued.nodup

theorem Tracked.complete (h : tracker.Tracked bootID keys times)
    (hDistinct : Distinct bootID (allNames keys times))
    (resolved : String → String → Option RuntimeContext) (now : Time) :
    (tracker.completePendingRuntimeContexts resolved now).Tracked bootID keys times := by
  obtain ⟨rfl, used, hUsed, hSound⟩ := h
  obtain ⟨hBoot, hMoving⟩ := foldl_moving (completeRuntimeContext_moves resolved now) tracker.pending
    { tracker with pending := [] }
  have hAfter := hSound.moving hMoving
  rw [append_nil] at hAfter
  exact ⟨hBoot, used, hUsed, hAfter (hDistinct.mono hUsed.subset) hUsed.nodup⟩

end Tracker

omit [Digest] in
theorem allNames_mono {all : List Time} (h : times ⊆ all) : allNames keys times ⊆ allNames keys all := by
  intro name hName
  rcases mem_append.mp hName with hObserved | hContinued
  · exact mem_append_left _ hObserved
  · obtain ⟨key, hKey, hTime⟩ := mem_flatMap.mp hContinued
    exact mem_append_right _ (mem_flatMap.mpr ⟨key, hKey, map_subset _ h hTime⟩)

/-- What holds between the passes holds after every run. -/
theorem run_tracked {all : List Time} (hDistinct : Distinct bootID (allNames keys all))
    {events : List TrackerEvent} (hKeys : events.flatMap (·.keys) ⊆ keys)
    (hAll : events.flatMap (·.times) ⊆ all)
    (hTimes : (events.flatMap (·.times)).Pairwise (· < ·))
    (hRun : Along step Unseen { bootID := bootID } events) :
    (run step { bootID := bootID } events).Tracked bootID keys
      (events.flatMap (·.times)) := by
  induction events using List.reverseRecOn with
  | nil => exact ⟨rfl, [], ⟨.nil, by simp, by simp⟩, ⟨by simp [view], by simp, by
      simp [view, kindsOf], by simp⟩⟩
  | append_singleton events event ih =>
    rw [flatMap_append, flatMap_singleton] at hKeys hAll hTimes ⊢
    rw [append_subset] at hKeys hAll
    rw [along_append] at hRun
    have hBefore := ih hKeys.1 hAll.1 (pairwise_append.mp hTimes).1 hRun.1
    rw [Interleaving.run_append]
    cases event with
    | pass state decisions io now =>
      refine hBefore.pass (hDistinct.mono (allNames_mono (append_subset.mpr hAll))) ?_ ?_ hRun.2.1
      · intro hMem
        exact absurd ((pairwise_append.mp hTimes).2.2 now hMem now mem_cons_self)
          (lt_irrefl now)
      · exact fun decision hMem => hKeys.2 (List.mem_map_of_mem hMem)
    | complete resolved now =>
      rw [show TrackerEvent.times (.complete resolved now) = [] from rfl, append_nil]
      exact hBefore.complete (hDistinct.mono (allNames_mono hAll.1)) resolved now
    | runs jobs =>
      rw [show TrackerEvent.times (.runs jobs) = [] from rfl, append_nil]
      exact ⟨hBefore.boot, hBefore.sound⟩

/-- In every run in which no process is allowed again that was reported as gone, the events of every
execution are a start, then updates, then an end, or a first part of that. -/
theorem observed_job_events_orderly {events : List TrackerEvent}
    (hTimes : (events.flatMap (·.times)).Pairwise (· < ·))
    (hPlain : ∀ key ∈ events.flatMap (·.keys), Plain key.authorizationID)
    (hDigest : ∀ first ∈ executionNames events, ∀ second ∈ executionNames events,
      first.id bootID = second.id bootID → first.text bootID = second.text bootID)
    (hRun : Along step Unseen { bootID := bootID } events) :
    ∀ id, Orderly (kindsOf id
      (run step { bootID := bootID } events).view.log) := by
  have hKey : ∀ name ∈ executionNames events, Plain name.key.authorizationID := by
    intro name hName
    rcases mem_append.mp hName with hObserved | hContinued
    · obtain ⟨key, hKey, rfl⟩ := List.mem_map.mp hObserved
      exact hPlain key hKey
    · obtain ⟨key, hKey, hTime⟩ := mem_flatMap.mp hContinued
      obtain ⟨time, _, rfl⟩ := List.mem_map.mp hTime
      exact hPlain key hKey
  have hDistinct : Distinct bootID (executionNames events) := fun first hFirst second hSecond hSame =>
    ExecutionName.text_inj (hKey first hFirst) (hKey second hSecond)
      (hDigest first hFirst second hSecond hSame)
  obtain ⟨_, used, _, hSound⟩ := run_tracked hDistinct (Subset.refl _) (Subset.refl _) hTimes hRun
  exact hSound.recorded.ledger.orderly

end Track

section Samples

open Tracker
open scoped Plain

def unixTime (nanos : Int) : Time := 62135596800 * second + nanos

def dockerJob : State :=
  { tokens := [{ id := "t", hash := "h" }]
    authorizations := [{ id := "a", mode := modeDocker, tokenHash := "h", tokenMode := tokenModeClaimed }] }

def dockerJobReserved : State :=
  { dockerJob with
    reservations := [{ groupID := "g", tokenHash := "h", active := true, expiresAt := unixTime 2 }] }

def dockerProcess : Decision :=
  { action := .allow, authID := "a", process := { gpu := 0, pid := 1 }, info := { startTime := 2 } }

/-- A job that is seen with a reservation and without it, and then not any more. -/
theorem observed_job_events_orderly_docker :
    let events : List TrackerEvent :=
      [.pass dockerJobReserved [dockerProcess] {} (unixTime 1), .pass dockerJob [dockerProcess] {} (unixTime 2),
        .pass dockerJob [] {} (unixTime 3), .pass dockerJob [] {} (unixTime 4)]
    let log := (run step { bootID := "b" } events).view.log
    log.map (·.kind) = [.started, .finished, .started, .finished] ∧
      ∀ id, Orderly (kindsOf id log) := by
  intro events log
  have hRun : Along step Unseen { bootID := "b" } events := by
    decide +kernel
  exact ⟨by decide +kernel,
    observed_job_events_orderly (by decide +kernel) (by decide +kernel) (by decide +kernel) hRun⟩

/-- A process that is back on a GPU after two passes without it starts a second time. -/
theorem observed_job_starts_twice :
    ¬ ∀ events : List TrackerEvent, (events.flatMap (·.times)).Pairwise (· < ·) →
      ∀ id, Orderly (kindsOf id (run step { bootID := "b" } events).view.log) := by
  intro hAll
  have hOrderly := hAll
    [.pass dockerJob [dockerProcess] {} (unixTime 1), .pass dockerJob [] {} (unixTime 2),
      .pass dockerJob [] {} (unixTime 3), .pass dockerJob [dockerProcess] {} (unixTime 4)]
    (by decide +kernel) (observedExecutionID "b" dockerProcess.jobKey)
  rw [show kindsOf _ _ = [.started, .finished, .started] by decide +kernel] at hOrderly
  rcases hOrderly with hNil | ⟨updates, hOpen⟩ | ⟨updates, hEnded⟩
  · cases hNil
  · cases updates <;> cases hOpen
  · cases updates <;> cases hEnded

end Samples

end GPUardian
