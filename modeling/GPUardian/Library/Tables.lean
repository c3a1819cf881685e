import Mathlib.Data.List.Nodup
import Mathlib.Algebra.BigOperators.Group.List.Basic

/-! Tables of rows under a primary key, and the statements that change them: an insert that updates
the row whose key is taken, an insert that gives way to it, an update that writes no key, and a
deletion. -/
namespace Tables

open List Option

variable {α κ : Type}

structure Table (key : α → κ) where
  rows : List α := []
  keys : (rows.map key).Nodup := by simp

namespace Table

variable {key : α → κ}

/-- An update that leaves the keys. -/
def amend (f : α → α) (hKey : ∀ row, key (f row) = key row) (table : Table key) : Table key where
  rows := table.rows.map f
  keys := by
    rw [List.map_map, show key ∘ f = key from funext hKey]
    exact table.keys

def delete (deletes : α → Bool) (table : Table key) : Table key where
  rows := table.rows.filter (!deletes ·)
  keys := table.keys.sublist (filter_sublist.map key)

variable [DecidableEq κ]

def find? (value : κ) (table : Table key) : Option α := table.rows.find? (key · = value)

/-- The new row, or an update of the row that has its key. -/
def upsert (row : α) (update : α → α) (hKey : ∀ old, key (update old) = key old)
    (table : Table key) : Table key :=
  if h : key row ∈ table.rows.map key then
    table.amend (fun old => if key old = key row then update old else old) fun old => by
      split
      · exact hKey old
      · rfl
  else
    { rows := table.rows ++ [row]
      keys := by
        rw [map_append, map_singleton]
        exact table.keys.append (nodup_singleton _) (disjoint_singleton.mpr h) }

/-- A row whose key is taken is not inserted. -/
def insertIgnore (row : α) (table : Table key) : Table key := table.upsert row id fun _ => rfl

section Lemmas

variable {table : Table key} {row other : α}

theorem find?_mem {value : κ} (h : table.find? value = some row) :
    row ∈ table.rows ∧ key row = value :=
  ⟨mem_of_find?_eq_some h, by simpa using find?_some h⟩

theorem find?_isSome {value : κ} :
    (table.find? value).isSome = true ↔ value ∈ table.rows.map key := by
  rw [find?, List.find?_isSome, List.mem_map]
  simp only [decide_eq_true_eq]

omit [DecidableEq κ] in
theorem keys_amend (f : α → α) (hKey : ∀ row, key (f row) = key row) :
    (table.amend f hKey).rows.map key = table.rows.map key := by
  change (table.rows.map f).map key = _
  rw [List.map_map, show key ∘ f = key from funext hKey]

omit [DecidableEq κ] in
/-- The rows that a selection by key finds stay if the update leaves each of them. -/
theorem filter_amend {f : α → α} {hKey : ∀ row, key (f row) = key row} (selects : κ → Bool)
    (h : ∀ row ∈ table.rows, selects (key row) = true → f row = row) :
    (table.amend f hKey).rows.filter (fun row => selects (key row)) =
      table.rows.filter (fun row => selects (key row)) := by
  change (table.rows.map f).filter _ = _
  generalize table.rows = rows at h ⊢
  induction rows with
  | nil => rfl
  | cons row rows ih =>
    have hRest := ih fun other hOther => h other (mem_cons_of_mem _ hOther)
    rw [map_cons, filter_cons, filter_cons, hKey, hRest]
    split
    · rename_i hSelected
      rw [h row mem_cons_self hSelected]
    · rfl

omit [DecidableEq κ] in
/-- They stay if the update is of other rows. -/
theorem filter_amend_selected {p : α → Prop} [DecidablePred p] {update : α → α} (selects : κ → Bool)
    (hKey : ∀ row, key (update row) = key row)
    (h : ∀ row ∈ table.rows, p row → selects (key row) = false) :
    (table.rows.map fun row => if p row then update row else row).filter
        (fun row => selects (key row)) = table.rows.filter (fun row => selects (key row)) := by
  refine @filter_amend _ _ key table _ (fun row => ?_) selects fun row hRow hSelected =>
    if_neg fun hAmended => ?_
  · split
    · exact hKey row
    · rfl
  · rw [h row hRow hAmended] at hSelected
    cases hSelected

/-- They stay if the new row is not one of them. -/
theorem filter_upsert {update : α → α} (hKey : ∀ old, key (update old) = key old)
    (selects : κ → Bool) (h : selects (key row) = false) :
    (table.upsert row update hKey).rows.filter (fun row => selects (key row)) =
      table.rows.filter (fun row => selects (key row)) := by
  unfold upsert
  split
  · apply filter_amend
    intro old _ hSelected
    refine if_neg fun hSame => ?_
    rw [hSame, h] at hSelected
    cases hSelected
  · rw [filter_append, filter_cons_of_neg (by simp [h]), filter_nil, append_nil]

/-- The rows after an upsert: the new row, the updated one, and old ones. -/
theorem mem_upsert {update : α → α} (hKey : ∀ old, key (update old) = key old)
    (h : other ∈ (table.upsert row update hKey).rows) :
    other = row ∨ (∃ old ∈ table.rows, key old = key row ∧ other = update old) ∨
      other ∈ table.rows := by
  unfold upsert at h
  split at h
  · obtain ⟨old, hOld, rfl⟩ := List.mem_map.mp h
    split
    · rename_i hSame
      exact .inr (.inl ⟨old, hOld, hSame, rfl⟩)
    · exact .inr (.inr hOld)
  · rcases mem_append.mp h with hOld | hNew
    · exact .inr (.inr hOld)
    · exact .inl (mem_singleton.mp hNew)

/-- The keys after an upsert. -/
theorem mem_keys_upsert {update : α → α} (hKey : ∀ old, key (update old) = key old) {value : κ} :
    value ∈ (table.upsert row update hKey).rows.map key ↔
      value = key row ∨ value ∈ table.rows.map key := by
  unfold upsert
  split
  · rename_i hTaken
    rw [keys_amend]
    exact ⟨.inr, fun h => h.elim (· ▸ hTaken) fun h => h⟩
  · rw [map_append, mem_append, map_singleton, mem_singleton, or_comm]

theorem mem_insertIgnore (h : other ∈ (table.insertIgnore row).rows) :
    other = row ∨ other ∈ table.rows := by
  rcases mem_upsert (fun _ => rfl) h with hNew | ⟨old, hOld, _, rfl⟩ | hOld
  · exact .inl hNew
  · exact .inr hOld
  · exact .inr hOld

/-- A table whose rows are their own keys is a set. -/
theorem mem_insertIgnore_iff [DecidableEq α] {table : Table (id : α → α)} :
    other ∈ (table.insertIgnore row).rows ↔ other = row ∨ other ∈ table.rows := by
  have hKeys : other ∈ (table.insertIgnore row).rows.map id ↔
      other = id row ∨ other ∈ table.rows.map id := mem_keys_upsert fun _ => rfl
  rwa [List.map_id, List.map_id] at hKeys

theorem filter_insertIgnore (selects : κ → Bool) (h : selects (key row) = false) :
    (table.insertIgnore row).rows.filter (fun row => selects (key row)) =
      table.rows.filter (fun row => selects (key row)) :=
  filter_upsert (fun _ => rfl) selects h

theorem find?_amend {f : α → α} (hKey : ∀ row, key (f row) = key row) (value : κ) :
    (table.amend f hKey).find? value = (table.find? value).map f := by
  unfold find?
  change (table.rows.map f).find? _ = _
  rw [find?_map]
  simp only [Function.comp_def, hKey]

/-- The row that is there, or the new one. -/
theorem find?_insertIgnore (value : κ) : (table.insertIgnore row).find? value =
    (table.find? value).or (if key row = value then some row else none) := by
  unfold insertIgnore upsert
  split
  · rename_i hTaken
    rw [find?_amend]
    have hSame : (fun old => if key old = key row then id old else old) = (id : α → α) := by
      funext old
      split
      · rfl
      · rfl
    rw [hSame, Option.map_id, id]
    split
    · rename_i hValue
      obtain ⟨old, hOld⟩ := isSome_iff_exists.mp (find?_isSome.mpr (hValue ▸ hTaken))
      rw [hOld, some_or]
    · rw [or_none]
  · unfold find?
    rw [find?_append, find?_singleton]
    simp only [decide_eq_true_eq]

section Sums

variable {M : Type} [AddCommMonoid M] (weight : α → M)

/-- One of the rows gets more weight. -/
theorem sum_map_update {rows : List α} {update : α → α} {more : M} {value : κ}
    (hUpdate : ∀ old, weight (update old) = weight old + more) (hKeys : (rows.map key).Nodup)
    (hMem : value ∈ rows.map key) :
    ((rows.map fun old => if key old = value then update old else old).map weight).sum =
      (rows.map weight).sum + more := by
  induction rows with
  | nil => cases hMem
  | cons old rows ih =>
    rw [map_cons, nodup_cons] at hKeys
    rw [map_cons, map_cons, sum_cons, map_cons, sum_cons]
    by_cases hOld : key old = value
    · have hRest : (rows.map fun other => if key other = value then update other else other) =
          rows := by
        refine (map_congr_left fun other hOther => if_neg fun hSame => hKeys.1 ?_).trans
          (List.map_id' rows)
        rw [hOld, ← hSame]
        exact List.mem_map_of_mem hOther
      rw [if_pos hOld, hUpdate, hRest, add_right_comm]
    · have hMore := ih hKeys.2 ((mem_cons.mp hMem).resolve_left fun h => hOld h.symm)
      rw [if_neg hOld, hMore, add_assoc]

/-- The sum over a selection by key, after an upsert that adds the weight of the new row. -/
theorem sum_upsert {update : α → α} (hKey : ∀ old, key (update old) = key old)
    (hUpdate : ∀ old, weight (update old) = weight old + weight row) (selects : κ → Bool) :
    (((table.upsert row update hKey).rows.filter fun row => selects (key row)).map weight).sum =
      ((table.rows.filter fun row => selects (key row)).map weight).sum +
        if selects (key row) then weight row else 0 := by
  cases hSelected : selects (key row) with
  | false =>
    rw [filter_upsert hKey selects hSelected]
    simp
  | true =>
    unfold upsert
    split
    · rename_i hTaken
      have hFilter : (table.rows.map fun old => if key old = key row then update old else old).filter
            (fun row => selects (key row)) =
          (table.rows.filter fun row => selects (key row)).map fun old =>
            if key old = key row then update old else old := by
        rw [List.filter_map]
        congr 1
        refine filter_congr fun old _ => ?_
        rw [Function.comp_apply]
        split
        · rw [hKey]
        · rfl
      have hKeys : ((table.rows.filter fun row => selects (key row)).map key).Nodup :=
        table.keys.sublist (filter_sublist.map key)
      have hMem : key row ∈ (table.rows.filter fun row => selects (key row)).map key := by
        obtain ⟨old, hOld, hSame⟩ := List.mem_map.mp hTaken
        exact List.mem_map.mpr ⟨old, mem_filter.mpr ⟨hOld, hSame ▸ hSelected⟩, hSame⟩
      change ((List.filter _ (table.rows.map _)).map weight).sum = _
      rw [hFilter, sum_map_update weight hUpdate hKeys hMem]
      rfl
    · simp [hSelected]

end Sums

end Lemmas

end Table

end Tables
