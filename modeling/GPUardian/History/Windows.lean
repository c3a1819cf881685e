import GPUardian.History.Rollups

/-! The time that a sample records. Its window is cut at the minutes and every part is rounded down
to milliseconds, so that a minute loses less than one; but a first part without a whole millisecond
ends the loop, and the window with it. -/
namespace GPUardian

open Tables List

/-- How many multiples of a minute are strictly inside a window. -/
def innerBoundaries (windowStart windowEnd : Time) : Int :=
  (windowEnd - 1) / (60 * second) - windowStart / (60 * second)

/-- The time of a window that is in the minute of a row. -/
def timeInMinute (windowStart windowEnd : Time) (minute : Int) : Int :=
  let minuteStart := 62135596800 * second + minute * 1000000
  max 0 (min (minuteStart + 60 * second) windowEnd - max minuteStart windowStart)

/-- What was recorded for a window, summed over a selection of minutes: at most its length, all but
a millisecond for each cut and one more, and in each minute no more than the window has there. -/
structure RecordsWindow (windowStart windowEnd : Time) (recorded : (Int → Bool) → Int) : Prop where
  atMost : recorded (fun _ => true) * 1000000 ≤ windowEnd - windowStart
  atLeast : windowEnd - windowStart ≤
    (recorded (fun _ => true) + innerBoundaries windowStart windowEnd + 1) * 1000000
  placed : ∀ minute, recorded (· == minute) * 1000000 ≤ timeInMinute windowStart windowEnd minute
  minutes : ∀ minute, 0 ≤ recorded (· == minute) ∧
    (recorded (· == minute) ≠ 0 → 60000 ∣ minute)

/-- The window has a whole millisecond in its first minute, or no other minute, or hardly any time. -/
def WholeStart (windowStart windowEnd : Time) : Prop :=
  let boundary := windowStart - windowStart % (60 * second) + 60 * second
  windowStart + 1000000 ≤ boundary ∨ windowEnd ≤ boundary ∨ windowEnd ≤ windowStart + 2000000

instance (windowStart windowEnd : Time) : Decidable (WholeStart windowStart windowEnd) :=
  inferInstanceAs (Decidable (_ ∨ _ ∨ _))

/-- The milliseconds of the parts in a selection of minutes. -/
def partsTotal (parts : List (Time × Int)) (minutes : Int → Bool) : Int :=
  ((parts.filter fun part => minutes (millis part.1)).map (·.2)).sum

@[simp]
theorem partsTotal_nil (minutes : Int → Bool) : partsTotal [] minutes = 0 := rfl

theorem partsTotal_cons (part : Time × Int) (parts : List (Time × Int)) (minutes : Int → Bool) :
    partsTotal (part :: parts) minutes =
      (if minutes (millis part.1) then part.2 else 0) + partsTotal parts minutes := by
  unfold partsTotal
  rw [filter_cons]
  split
  · rw [map_cons, sum_cons]
  · rw [zero_add]

section Parts

variable {cursor windowEnd : Int}

theorem windowParts_of_le (fuel : Nat) (h : windowEnd ≤ cursor) :
    windowParts fuel cursor windowEnd = [] := by
  cases fuel with
  | zero => rfl
  | succ fuel => exact if_neg (not_lt.mpr h)

/-- One round of the loop. -/
theorem windowParts_succ (fuel : Nat) (h : cursor < windowEnd) :
    let minute := cursor - cursor % 60000000000
    let partEnd := min (minute + 60000000000) windowEnd
    windowParts (fuel + 1) cursor windowEnd =
      if partEnd - cursor < 1000000 then []
      else (minute, (partEnd - cursor) / 1000000) :: windowParts fuel partEnd windowEnd := by
  intro minute partEnd
  refine (if_pos h).trans (if_congr ?_ rfl rfl)
  change (partEnd - cursor) / 1000000 ≤ 0 ↔ _
  omega

/-- From the start of a minute on only the last part is rounded. -/
theorem partsTotal_windowParts (fuel : Nat) (hMinute : cursor % 60000000000 = 0)
    (hFuel : (windowEnd - cursor) / 60000000000 < fuel) (hBefore : cursor ≤ windowEnd) :
    partsTotal (windowParts fuel cursor windowEnd) (fun _ => true) =
      (windowEnd - cursor) / 1000000 := by
  induction fuel generalizing cursor with
  | zero => omega
  | succ fuel ih =>
    rcases hBefore.eq_or_lt with rfl | hBefore
    · rw [windowParts_of_le _ le_rfl, partsTotal_nil, sub_self]
      rfl
    rw [windowParts_succ fuel hBefore, hMinute, sub_zero]
    split
    · rw [partsTotal_nil]
      omega
    · rw [partsTotal_cons, if_pos rfl]
      rcases le_total windowEnd (cursor + 60000000000) with hLast | hMore
      · rw [min_eq_right hLast, windowParts_of_le fuel le_rfl, partsTotal_nil, add_zero]
      · rw [min_eq_left hMore, ih (by omega) (by omega) hMore]
        omega

/-- The time that is recorded for a window. -/
theorem partsTotal_minuteParts (h : cursor < windowEnd) :
    let boundary := cursor - cursor % 60000000000 + 60000000000
    partsTotal (minuteParts cursor windowEnd) (fun _ => true) =
      if windowEnd ≤ boundary then (windowEnd - cursor) / 1000000
      else if boundary - cursor < 1000000 then 0
      else (boundary - cursor) / 1000000 + (windowEnd - boundary) / 1000000 := by
  intro boundary
  have hFuel : (windowEnd - boundary) / 60000000000 <
      (((windowEnd - cursor) / (60 * second)).toNat + 1 : Nat) := by
    change _ < ((((windowEnd - cursor) / 60000000000).toNat + 1 : Nat) : Int)
    omega
  rw [minuteParts, windowParts_succ _ h]
  change partsTotal (if min boundary windowEnd - cursor < 1000000 then [] else
    (_, (min boundary windowEnd - cursor) / 1000000) :: windowParts _ (min boundary windowEnd) _) _ = _
  rcases le_or_gt windowEnd boundary with hLast | hMore
  · rw [if_pos hLast, min_eq_right hLast, windowParts_of_le _ le_rfl]
    split
    · rw [partsTotal_nil]
      omega
    · rw [partsTotal_cons, if_pos rfl, partsTotal_nil, add_zero]
  · rw [if_neg (not_le.mpr hMore), min_eq_left hMore.le]
    split
    · rfl
    · rw [partsTotal_cons, if_pos rfl, partsTotal_windowParts _ (by omega) hFuel hMore.le]

/-- Each part is in the minute it is recorded under. -/
theorem windowParts_placed (fuel : Nat) (cursor windowEnd minute : Int) :
    let recorded := partsTotal (windowParts fuel cursor windowEnd) (· == minute)
    recorded * 1000000 ≤ timeInMinute cursor windowEnd minute ∧ 0 ≤ recorded ∧
      (recorded ≠ 0 → 60000 ∣ minute) := by
  have hNone : (0 : Int) * 1000000 ≤ timeInMinute cursor windowEnd minute ∧ (0 : Int) ≤ 0 ∧
      ((0 : Int) ≠ 0 → 60000 ∣ minute) := ⟨le_max_left _ _, le_rfl, fun h => absurd rfl h⟩
  induction fuel generalizing cursor with
  | zero => exact hNone
  | succ fuel ih =>
    rcases le_or_gt windowEnd cursor with hAfter | hBefore
    · rw [windowParts_of_le _ hAfter]
      exact hNone
    rw [windowParts_succ fuel hBefore]
    split
    · exact hNone
    obtain ⟨hTime, hPositive, hMinute⟩ :=
      ih (min (cursor - cursor % 60000000000 + 60000000000) windowEnd) ⟨le_max_left _ _, hNone.2⟩
    rw [partsTotal_cons]
    simp only [timeInMinute, millis, second, beq_iff_eq] at hTime ⊢
    unfold Time Duration at *
    split
    · exact ⟨by omega, by omega, fun _ => by omega⟩
    · exact ⟨by omega, by omega, fun h => hMinute (by omega)⟩

theorem minuteParts_records (h : cursor < windowEnd) :
    RecordsWindow cursor windowEnd (partsTotal (minuteParts cursor windowEnd)) ↔
      WholeStart cursor windowEnd := by
  have hTotal := partsTotal_minuteParts h
  have hInner : innerBoundaries cursor windowEnd =
      (windowEnd - 1) / 60000000000 - cursor / 60000000000 := rfl
  change _ ↔ cursor + 1000000 ≤ cursor - cursor % 60000000000 + 60000000000 ∨
    windowEnd ≤ cursor - cursor % 60000000000 + 60000000000 ∨ windowEnd ≤ cursor + 2000000
  constructor
  · intro hRecords
    have hLeast : windowEnd - cursor ≤ (partsTotal _ _ + innerBoundaries _ _ + 1) * 1000000 :=
      hRecords.atLeast
    by_contra hShort
    rw [hTotal, if_neg (by omega), if_pos (by omega)] at hLeast
    omega
  · intro hWhole
    have hBounds : partsTotal (minuteParts cursor windowEnd) (fun _ => true) * 1000000 ≤
          windowEnd - cursor ∧
        windowEnd - cursor ≤ (partsTotal (minuteParts cursor windowEnd) (fun _ => true) +
          innerBoundaries cursor windowEnd + 1) * 1000000 := by
      rw [hTotal]
      split_ifs
      all_goals omega
    exact ⟨hBounds.1, hBounds.2, fun minute => (windowParts_placed _ _ _ minute).1,
      fun minute => (windowParts_placed _ _ _ minute).2⟩

end Parts

namespace Database

/-- The time observed on a GPU of a node, in a selection of minutes. -/
def nodeObserved (db : Database) (nodeID : String) (gpu : Int) (minutes : Int → Bool) : Int :=
  ((db.nodeRollups.rows.filter fun row =>
    decide (row.nodeID = nodeID ∧ row.gpu = gpu ∧ minutes row.minute = true)).map (·.observed)).sum

/-- The time observed on a GPU for a session, in a selection of minutes. -/
def sessionObserved (db : Database) (sessionID : String) (gpu : Int) (minutes : Int → Bool) : Int :=
  ((db.rollups.rows.filter fun row =>
    decide (row.sessionID = sessionID ∧ row.gpu = gpu ∧ minutes row.minute = true)).map
      (·.observed)).sum

/-- What a sample adds to the minutes of a node and of a session is the time of its window. -/
structure RecordsSample (db : Database) (nodeID sessionID : String) (entry : GPUSampleEntry)
    (windowStart windowEnd : Time) : Prop where
  node : RecordsWindow windowStart windowEnd fun minutes =>
    (db.applyNodeGPUIntervals nodeID entry windowStart windowEnd).nodeObserved nodeID entry.gpu minutes -
      db.nodeObserved nodeID entry.gpu minutes
  session : RecordsWindow windowStart windowEnd fun minutes =>
    (db.applyGPUIntervals sessionID entry windowStart windowEnd).sessionObserved sessionID entry.gpu
      minutes - db.sessionObserved sessionID entry.gpu minutes

theorem partUsage_observed {entry : GPUSampleEntry} (hValid : entry.validUtilization.isSome = true)
    (duration : Int) : (partUsage entry duration).observed = duration := by
  obtain ⟨value, hValue⟩ := Option.isSome_iff_exists.mp hValid
  rw [partUsage, hValue]

variable {entry : GPUSampleEntry} (hValid : entry.validUtilization.isSome = true)
  (parts : List (Time × Int)) (minutes : Int → Bool)

/-- Parts that each add their time, if it is in one of the minutes, add their total. -/
theorem foldl_observed {add : Database → Time × Int → Database} (observed : Database → Int)
    (hAdd : ∀ db part, observed (add db part) =
      observed db + if minutes (millis part.1) then part.2 else 0) (db : Database) :
    observed (parts.foldl add db) = observed db + partsTotal parts minutes := by
  induction parts generalizing db with
  | nil => rw [partsTotal_nil, add_zero, foldl_nil]
  | cons part parts ih => rw [foldl_cons, ih, partsTotal_cons, ← add_assoc, hAdd]

include hValid

theorem addNodeParts_observed (nodeID : String) (db : Database) :
    (parts.foldl (addNodePart nodeID entry) db).nodeObserved nodeID entry.gpu minutes =
      db.nodeObserved nodeID entry.gpu minutes + partsTotal parts minutes := by
  refine foldl_observed parts minutes (nodeObserved · nodeID entry.gpu minutes) ?_ db
  intro db part
  refine (@Table.sum_upsert _ _ NodeRollup.key _ db.nodeRollups _ _ _ (·.observed) _
    (by exact fun _ => rfl) (by exact fun _ => rfl) fun key =>
      decide (key.1 = nodeID ∧ key.2.1 = entry.gpu ∧ minutes key.2.2 = true)).trans (congrArg _ ?_)
  simp only [NodeRollup.key, true_and, decide_eq_true_eq, partUsage_observed hValid]

theorem addSessionParts_observed (sessionID : String) (db : Database) :
    (parts.foldl (addSessionPart sessionID entry) db).sessionObserved sessionID entry.gpu minutes =
      db.sessionObserved sessionID entry.gpu minutes + partsTotal parts minutes := by
  refine foldl_observed parts minutes (sessionObserved · sessionID entry.gpu minutes) ?_ db
  intro db part
  refine (@Table.sum_upsert _ _ MinuteRollup.key _ db.rollups _ _ _ (·.observed) _
    (by exact fun _ => rfl) (by exact fun _ => rfl) fun key =>
      decide (key.1 = sessionID ∧ key.2.1 = entry.gpu ∧ minutes key.2.2 = true)).trans
        (congrArg _ ?_)
  simp only [MinuteRollup.key, true_and, decide_eq_true_eq, partUsage_observed hValid]

end Database

/-- For a valid utilization, what a window adds to the minutes of a node and of a session is its
length but for the milliseconds lost at the cuts, each part in its minute, exactly if the window does
not leave a minute in its first millisecond. -/
theorem sample_recorded_iff {entry : GPUSampleEntry} (hValid : entry.validUtilization.isSome = true)
    {windowStart windowEnd : Time} (hWindow : windowStart < windowEnd) (nodeID sessionID : String)
    (db : Database) : db.RecordsSample nodeID sessionID entry windowStart windowEnd ↔
      WholeStart windowStart windowEnd := by
  have hNode : ∀ minutes, (db.applyNodeGPUIntervals nodeID entry windowStart windowEnd).nodeObserved
      nodeID entry.gpu minutes - db.nodeObserved nodeID entry.gpu minutes =
        partsTotal (minuteParts windowStart windowEnd) minutes := fun minutes =>
    sub_eq_of_eq_add' (Database.addNodeParts_observed hValid _ minutes nodeID db)
  have hSession : ∀ minutes, (db.applyGPUIntervals sessionID entry windowStart
      windowEnd).sessionObserved sessionID entry.gpu minutes - db.sessionObserved sessionID entry.gpu
        minutes = partsTotal (minuteParts windowStart windowEnd) minutes := fun minutes =>
    sub_eq_of_eq_add' (Database.addSessionParts_observed hValid _ minutes sessionID db)
  constructor
  · intro h
    have hRecords := h.node
    simp only [hNode] at hRecords
    exact (minuteParts_records hWindow).mp hRecords
  · intro hWhole
    have hRecords := (minuteParts_records hWindow).mpr hWhole
    exact ⟨by simpa only [hNode] using hRecords, by simpa only [hSession] using hRecords⟩

def busySample : GPUSampleEntry := { gpu := 0, utilizationPct := some 50 }

theorem sample_recorded_iff_busy :
    ({} : Database).RecordsSample "node" "session" busySample 0 (90 * second) :=
  (sample_recorded_iff (by decide) (by decide) "node" "session" {}).mpr (by decide)

/-- Nothing is recorded of ten seconds that begin half a millisecond before a minute. -/
theorem late_sample_lost :
    ¬ ∀ (entry : GPUSampleEntry) (windowStart windowEnd : Time) (nodeID sessionID : String)
      (db : Database), entry.validUtilization.isSome = true → windowStart < windowEnd →
        db.RecordsSample nodeID sessionID entry windowStart windowEnd := by
  intro hAll
  have hLeast := (hAll busySample 59999500000 69999500000 "node" "s" {} (by decide) (by decide)).node.atLeast
  revert hLeast
  decide +kernel

end GPUardian
