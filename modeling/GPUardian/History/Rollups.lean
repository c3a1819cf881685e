import GPUardian.History.Pages
import GPUardian.History.Quality
import Mathlib.Algebra.Group.Int.Defs
import Mathlib.Algebra.Group.Nat.Defs
import Mathlib.Algebra.Group.Prod

/-! The two places where the use of a GPU is counted: by the minute, and in the summary of its session.
A part of a sample is added to the minute in any case, to the summary only if there is one. -/
namespace GPUardian

open GoStrings Tables Option Interleaving

/-- The columns that are counted in both places: the times observed and busy, and the samples. -/
def Usage.counts (usage : Usage) : Int × Int × Nat × Nat :=
  (usage.observed, usage.busy, usage.validSamples, usage.missingSamples)

@[simp]
theorem Usage.counts_add (usage more : Usage) :
    (usage.add more).counts = usage.counts + more.counts := rfl

namespace Database

/-- What the summary of a session has for a GPU; without one nothing. -/
def summaryCounts (db : Database) (sessionID : String) (gpu : Int) : Int × Int × Nat × Nat :=
  ((db.summaries.find? (sessionID, gpu)).map (·.counts)).getD 0

/-- What the minutes of a session have for a GPU. -/
def rollupCounts (db : Database) (sessionID : String) (gpu : Int) : Int × Int × Nat × Nat :=
  ((db.rollups.rows.filter fun row => decide (row.sessionID = sessionID ∧ row.gpu = gpu)).map
    (·.counts)).sum

/-- Both places agree. -/
def Counted (db : Database) : Prop :=
  ∀ sessionID gpu, db.summaryCounts sessionID gpu = db.rollupCounts sessionID gpu

/-- The sessions that a sample is counted for have summaries for its GPUs. -/
def Summarized (nodeID : String) (payload : EventPayload) (db : Database) : Prop :=
  match payload with
  | .gpuSample payload => ∀ entry ∈ payload.gpus,
      ∀ groupID ∈ telemetryGroups entry.groupID entry.groupIDs,
        ∀ session ∈ db.resolveGPUSampleSession nodeID groupID,
          sampledStart payload session < sampledEnd payload session →
            (db.summaries.find? (session.sessionID, entry.gpu)).isSome = true
  | _ => True

instance (nodeID : String) (payload : EventPayload) (db : Database) :
    Decidable (db.Summarized nodeID payload) :=
  match payload with
  | .gpuSample payload => inferInstanceAs (Decidable (∀ entry ∈ payload.gpus, _))
  | .reservationUpsert _ | .reservationEnded _ | .authorizationUpsert _ | .authorizationEnded _
  | .job _ | .gap _ | .other => isTrue trivial

variable {nodeID : String} {db after : Database}

/-- No use was counted; there may be new summaries. -/
structure SameCounts (db after : Database) : Prop where
  rollups : after.rollups = db.rollups
  summaries : ∀ sessionID gpu, after.summaryCounts sessionID gpu = db.summaryCounts sessionID gpu

theorem SameCounts.refl (db : Database) : SameCounts db db := ⟨rfl, fun _ _ => rfl⟩

theorem SameCounts.trans {next : Database} (h : SameCounts db after) (h' : SameCounts after next) :
    SameCounts db next :=
  ⟨h'.rollups.trans h.rollups, fun sessionID gpu =>
    (h'.summaries sessionID gpu).trans (h.summaries sessionID gpu)⟩

theorem Counted.same (h : db.Counted) (hSame : SameCounts db after) : after.Counted := by
  intro sessionID gpu
  rw [hSame.summaries, h sessionID gpu, rollupCounts, rollupCounts, hSame.rollups]

theorem addSummary_sameCounts {sessionID : String} {gpu : Int}
    (h : db.addSummary sessionID gpu = .ok after) : SameCounts db after := by
  rw [addSummary_ok h]
  refine ⟨rfl, fun id other => ?_⟩
  unfold summaryCounts
  dsimp only
  rw [Table.find?_insertIgnore]
  cases hFind : db.summaries.find? (id, other) with
  | some row => rfl
  | none =>
    rw [none_or]
    split
    · rfl
    · rfl

/-- The statements for all events but samples count no use. -/
theorem Statement.sameCounts [Unicode] [Digest] {applied : EventPayload → Prop}
    (h : Statement nodeID applied db after) (hOther : ∀ sample, ¬ applied (.gpuSample sample)) :
    SameCounts db after := by
  cases h with
  | summary _ sessionID gpu _ h => exact addSummary_sameCounts h
  | claim _ serverID serverName payload occurredAt h =>
    unfold claimSession at h
    dsimp only at h
    split at h
    all_goals
      obtain ⟨history, _, h⟩ := bind_ok h
      cases h
      exact ⟨rfl, fun _ _ => rfl⟩
  | linkJob payload sessionID =>
    unfold Database.linkJob
    dsimp only
    split
    · exact ⟨rfl, fun _ _ => rfl⟩
    · exact ⟨rfl, fun _ _ => rfl⟩
  | jobGPU _ payload session gpu _ _ h =>
    unfold addJobGPU at h
    dsimp only at h
    split at h
    · obtain ⟨history, _, hAdd⟩ := bind_ok h
      have hSame := addSummary_sameCounts hAdd
      exact ⟨hSame.rollups, hSame.summaries⟩
    · cases h
      exact ⟨rfl, fun _ _ => rfl⟩
  | refresh _ payload h =>
    obtain ⟨history, _, h⟩ := bind_ok h
    cases h
    exact ⟨rfl, fun _ _ => rfl⟩
  | sample _ payload session _ _ h =>
    obtain ⟨history, _, h⟩ := bind_ok h
    cases h
    exact ⟨rfl, fun _ _ => rfl⟩
  | sessionPart _ _ _ _ hEvent => exact absurd hEvent (hOther _)
  | _ => exact ⟨rfl, fun _ _ => rfl⟩

section Parts

variable {sessionID : String} {entry : GPUSampleEntry} {part : Time × Int}

theorem addSessionPart_rollups (id : String) (gpu : Int) :
    (db.addSessionPart sessionID entry part).rollupCounts id gpu = db.rollupCounts id gpu +
      if sessionID = id ∧ entry.gpu = gpu then (partUsage entry part.2).counts else 0 := by
  have hSum := @Table.sum_upsert _ _ MinuteRollup.key _ db.rollups
    { toUsage := partUsage entry part.2, sessionID, gpu := entry.gpu, minute := millis part.1 } _ _
    (·.counts) (fun old => { old with toUsage := old.toUsage.add (partUsage entry part.2) })
    (fun _ => rfl) (fun _ => rfl) fun key => decide (key.1 = id ∧ key.2.1 = gpu)
  refine hSum.trans (congrArg _ ?_)
  by_cases hSame : sessionID = id ∧ entry.gpu = gpu
  · rw [if_pos hSame]
    exact if_pos (decide_eq_true hSame)
  · rw [if_neg hSame]
    exact if_neg fun hTrue => hSame (of_decide_eq_true hTrue)

theorem addSessionPart_summaries
    (hSummary : (db.summaries.find? (sessionID, entry.gpu)).isSome = true) (id : String) (gpu : Int) :
    (db.addSessionPart sessionID entry part).summaryCounts id gpu = db.summaryCounts id gpu +
      if sessionID = id ∧ entry.gpu = gpu then (partUsage entry part.2).counts else 0 := by
  have hFind := @Table.find?_amend _ _ GPUSummary.key _ db.summaries
    (fun row => if row.key = (sessionID, entry.gpu) then
      { row with toUsage := row.toUsage.add (partUsage entry part.2) } else row)
    (fun row => by split <;> rfl) (id, gpu)
  unfold summaryCounts
  refine (congrArg (fun row : Option GPUSummary => (row.map (·.counts)).getD 0) hFind).trans ?_
  by_cases hSame : sessionID = id ∧ entry.gpu = gpu
  · obtain ⟨rfl, rfl⟩ := hSame
    obtain ⟨row, hRow⟩ := isSome_iff_exists.mp hSummary
    rw [hRow, if_pos ⟨rfl, rfl⟩]
    simp only [map_some, getD_some, if_pos (Table.find?_mem hRow).2]
    exact Usage.counts_add _ _
  · rw [if_neg hSame, add_zero]
    cases hOld : db.summaries.find? (id, gpu) with
    | none => rfl
    | some row =>
      have hKey : row.key ≠ (sessionID, entry.gpu) := by
        rw [(Table.find?_mem hOld).2]
        exact fun hTaken => hSame ⟨(congrArg Prod.fst hTaken).symm, (congrArg Prod.snd hTaken).symm⟩
      simp only [map_some, getD_some, if_neg hKey]

/-- A part of a sample is counted in both places. -/
theorem addSessionPart_counted
    (hSummary : (db.summaries.find? (sessionID, entry.gpu)).isSome = true) (h : db.Counted) :
    (db.addSessionPart sessionID entry part).Counted := by
  intro id gpu
  rw [addSessionPart_summaries hSummary, addSessionPart_rollups, h id gpu]

end Parts

section Samples

variable {payload : GPUSample}

/-- What a sample needs to know of a session. -/
def sampled (payload : GPUSample) (session : SessionRow) : String × Time × Time :=
  (session.sessionID, sampledStart payload session, sampledEnd payload session)

/-- While a sample is applied, its groups mean the same sessions and windows, and the same sessions
have summaries. -/
structure Resolves (payload : GPUSample) (db after : Database) : Prop where
  sessions : ∀ nodeID groupID, (after.resolveGPUSampleSession nodeID groupID).map (sampled payload) =
    (db.resolveGPUSampleSession nodeID groupID).map (sampled payload)
  summaries : ∀ key, (after.summaries.find? key).isSome = (db.summaries.find? key).isSome

theorem Resolves.refl (db : Database) : Resolves payload db db := ⟨fun _ _ => rfl, fun _ => rfl⟩

theorem Resolves.trans {next : Database} (h : Resolves payload db after)
    (h' : Resolves payload after next) : Resolves payload db next :=
  ⟨fun nodeID groupID => (h'.sessions nodeID groupID).trans (h.sessions nodeID groupID),
    fun key => (h'.summaries key).trans (h.summaries key)⟩

theorem addSessionPart_resolves (sessionID : String) (entry : GPUSampleEntry) (part : Time × Int) :
    Resolves payload db (db.addSessionPart sessionID entry part) := by
  refine ⟨fun _ _ => rfl, fun key => ?_⟩
  refine (congrArg Option.isSome (Table.find?_amend ?_ key)).trans isSome_map
  intro row
  split
  · rfl
  · rfl

/-- A window that extends a claimed run leaves what the sample needs of it. -/
theorem sampled_sampledSession (row : SessionRow) :
    sampled payload (sampledSession payload row) = sampled payload row ∧
      (sampledSession payload row).group = row.group := by
  have hExtend : ∀ endMS (row : SessionRow), sampled payload (extendClaim endMS row) =
      sampled payload row ∧ (extendClaim endMS row).group = row.group := by
    intro endMS row
    unfold extendClaim
    split
    · rename_i hOpen
      exact ⟨by simp [sampled, sampledStart, sampledEnd, hOpen.1, hOpen.2], rfl⟩
    · exact ⟨rfl, rfl⟩
  unfold sampledSession
  dsimp only
  split
  · exact hExtend _ (row.markPartial _)
  · exact hExtend _ row

theorem seeSession_resolves {session : SessionRow} (h : db.seeSession payload session = .ok after) :
    Resolves payload db after := by
  obtain ⟨history, hWrite, h⟩ := bind_ok h
  cases h
  refine ⟨fun nodeID groupID => ?_, fun _ => rfl⟩
  have hRows := (History.writeSessions_ok hWrite).1
  -- a lookup by session or by group finds the written row
  have hFind : ∀ selects : SessionRow → Bool,
      (∀ row, selects (sampledSession payload row) = selects row) →
      (history.sessions.find? selects).map (sampled payload) =
        (db.history.sessions.find? selects).map (sampled payload) := by
    intro selects hSelects
    rw [hRows, List.find?_map, Option.map_map]
    congr 1
    · funext row
      rw [Function.comp_apply]
      split
      · exact (sampled_sampledSession row).1
      · rfl
    · congr 1
      funext row
      rw [Function.comp_apply]
      split
      · exact hSelects row
      · rfl
  unfold resolveGPUSampleSession
  dsimp only
  split
  · exact hFind _ fun row => by rw [(sampledSession_frame payload row).1]
  · exact hFind _ fun row => by rw [(sampled_sampledSession row).2]

/-- A sample is counted in both places for each of its groups. -/
theorem applyGroupSample_counted {entry : GPUSampleEntry} {groupID : String}
    (hSummary : ∀ session ∈ db.resolveGPUSampleSession nodeID groupID,
      sampledStart payload session < sampledEnd payload session →
        (db.summaries.find? (session.sessionID, entry.gpu)).isSome = true)
    (h : db.Counted) (hApply : db.applyGroupSample nodeID payload entry groupID = .ok after) :
    Resolves payload db after ∧ after.Counted := by
  unfold applyGroupSample at hApply
  split at hApply
  · cases hApply
    exact ⟨.refl _, h⟩
  · rename_i session hSession
    obtain ⟨seen, hSeen, hApply⟩ := bind_ok hApply
    have hResolves := seeSession_resolves hSeen
    have hCounted : seen.Counted := by
      obtain ⟨history, _, hSeen⟩ := bind_ok hSeen
      cases hSeen
      exact h
    cases hApply
    split
    · rename_i hWindow
      have hFound := hSummary session hSession hWindow
      obtain ⟨hParts, hLast⟩ := foldl_relates (R := Resolves payload)
        (I := fun db => (db.summaries.find? (session.sessionID, entry.gpu)).isSome = true ∧ db.Counted)
        .refl (fun _ _ _ => .trans)
        (fun db part _ hInv =>
          have hPart : Resolves payload db (db.addSessionPart session.sessionID entry part) :=
            addSessionPart_resolves session.sessionID entry part
          ⟨hPart, (hPart.summaries _).trans hInv.1, addSessionPart_counted hInv.1 hInv.2⟩)
        ⟨(hResolves.summaries _).trans hFound, hCounted⟩
      exact ⟨hResolves.trans hParts, hLast.2⟩
    · exact ⟨hResolves, hCounted⟩

/-- While the groups are resolved as before, the sessions of a sample have their summaries. -/
theorem Summarized.resolves (h : db.Summarized nodeID (.gpuSample payload))
    (hResolves : Resolves payload db after) : after.Summarized nodeID (.gpuSample payload) := by
  intro entry hEntry groupID hGroup session hSession hWindow
  have hOld : sampled payload session ∈
      (db.resolveGPUSampleSession nodeID groupID).map (sampled payload) := by
    rw [← hResolves.sessions]
    exact Option.mem_map_of_mem _ hSession
  obtain ⟨old, hFound, hSame⟩ := Option.mem_map.mp hOld
  obtain ⟨hID, hBounds⟩ := Prod.mk.inj hSame
  obtain ⟨hStart, hEnd⟩ := Prod.mk.inj hBounds
  rw [hResolves.summaries, ← hID]
  exact h entry hEntry groupID hGroup old hFound (by rwa [hStart, hEnd])

/-- The use of a GPU of the node is counted apart. -/
theorem applyNodeGPUIntervals_keeps (entry : GPUSampleEntry) (windowStart windowEnd : Time) :
    ∃ nodeRollups, db.applyNodeGPUIntervals nodeID entry windowStart windowEnd =
      { db with nodeRollups } := by
  unfold applyNodeGPUIntervals
  induction minuteParts windowStart windowEnd generalizing db with
  | nil => exact ⟨db.nodeRollups, rfl⟩
  | cons part parts ih =>
    obtain ⟨nodeRollups, hRest⟩ := @ih (db.addNodePart nodeID entry part)
    exact ⟨nodeRollups, hRest⟩

theorem applyGPUSample_counted (hSummary : db.Summarized nodeID (.gpuSample payload))
    (h : db.Counted) (hApply : db.applyGPUSample nodeID payload = .ok after) : after.Counted := by
  unfold applyGPUSample at hApply
  split at hApply
  · refine (foldlM_relates (R := Resolves payload)
      (I := fun db => db.Summarized nodeID (.gpuSample payload) ∧ db.Counted)
      .refl (fun _ _ _ => .trans) ?_ ⟨hSummary, h⟩ hApply).2.2
    intro db entry hEntry next hInv hGroups
    obtain ⟨nodeRollups, hNode⟩ := @applyNodeGPUIntervals_keeps nodeID db entry payload.windowStart
      payload.windowEnd
    rw [hNode] at hGroups
    have hNodeResolves : Resolves payload db { db with nodeRollups } := ⟨fun _ _ => rfl, fun _ => rfl⟩
    obtain ⟨hResolves, hLast⟩ := foldlM_relates (R := Resolves payload)
      (I := fun db => db.Summarized nodeID (.gpuSample payload) ∧ db.Counted)
      .refl (fun _ _ _ => .trans)
      (fun _ groupID hGroup _ hInv hApply =>
        have hStep := applyGroupSample_counted (hInv.1 entry hEntry groupID hGroup) hInv.2 hApply
        ⟨hStep.1, hInv.1.resolves hStep.1, hStep.2⟩)
      ⟨hInv.1.resolves hNodeResolves, hInv.2⟩ hGroups
    exact ⟨hNodeResolves.trans hResolves, hLast⟩
  · cases hApply
    exact h

end Samples

/-- Events whose samples find their summaries keep the two places equal. -/
theorem counted_invariant [Unicode] [Digest] : EventInvariant Summarized Counted where
  node _ _ _ _ h := h
  ingested _ _ h := h
  sync _ _ h := h
  event := by
    intro nodeID serverID serverName knownOwners occurredAt db payload after hOk h hApply
    cases payload with
    | gpuSample payload => exact applyGPUSample_counted hOk h hApply
    | _ =>
      have hStatements : Statements nodeID (· = _) db after := applyPayload_statements rfl hApply
      refine h.same ?_
      clear hApply
      induction hStatements with
      | refl => exact .refl _
      | tail _ hStep ih => exact ih.trans (hStep.sameCounts (by simp))

end Database

/-- After pages whose samples found the summaries of their sessions, each summary has what the minutes
of its GPU add up to. -/
theorem summaries_match_rollups [Unicode] [Digest] (format : PayloadFormat) (calls : List PageCall)
    (hRun : Along (PageCall.apply format)
      (fun db call => call.Meets format Database.Summarized db) {} calls)
    (sessionID : String) (gpu : Int) :
    let db := run (PageCall.apply format) {} calls
    db.summaryCounts sessionID gpu = db.rollupCounts sessionID gpu := by
  have hStart : ({} : Database).Counted := fun _ _ => rfl
  exact Database.counted_invariant.run hRun hStart sessionID gpu

section Runs

/-- The run goes on to use a GPU. -/
def runSample (gpu : Int) : GPUSample :=
  { windowStart := claimedNoon, windowEnd := claimedNoon + 10 * second, status := "ok"
    gpus := [{ gpu, groupID := "claimed-auth:auth_1", utilizationPct := some 50 }] }

/-- The page with the start of the run, and one with a sample. -/
def sampledCalls : List PageCall :=
  [{ now := claimedNoon + second, serverID := "server_1", serverName := "alpha", page := claimPage },
    { now := claimedNoon + 11 * second, serverID := "server_1", serverName := "alpha"
      page :=
        { claimPage with
          events := [{ seq := 3, occurredAt := claimedNoon + 10 * second, bootID := "boot_1"
                       type := "gpu.sample", payload := [0] }]
          nextCursor := "3", latestSeq := 3 } }]

def sampledFormat (gpu : Int) : PayloadFormat :=
  listFormat [.job claimStarted, .gpuSample (runSample gpu)]

open scoped Plain

theorem summaries_match_rollups_noon :
    let db := run (PageCall.apply (sampledFormat 0)) {} sampledCalls
    let sessionID := History.sessionID "node_1" "claimed-auth:auth_1"
    db.rollupCounts sessionID 0 = (10000, 10000, 1, 0) ∧
      db.summaryCounts sessionID 0 = db.rollupCounts sessionID 0 := by
  refine ⟨by decide +kernel, @summaries_match_rollups ascii plain _ _ ?_ _ _⟩
  decide +kernel

/-- The event is lost that gives the run its second GPU: the sample of it is counted by the minute
only. -/
theorem lost_update_not_summarized :
    let db := run (PageCall.apply (sampledFormat 1)) {} sampledCalls
    let sessionID := History.sessionID "node_1" "claimed-auth:auth_1"
    db.rollupCounts sessionID 1 = (10000, 10000, 1, 0) ∧ db.summaryCounts sessionID 1 = 0 := by
  decide +kernel

end Runs

end GPUardian
