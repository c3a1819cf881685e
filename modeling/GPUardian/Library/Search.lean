import Mathlib.Data.List.Basic

/-! Go's `sort.Search`: bisection for the first index from which on a property holds. -/
namespace GoSort

open List Option

/-- The loop over `i < j`. It halves the distance, so `fuel` rounds are enough for a distance of
`fuel`. -/
def searchLoop (f : Nat → Bool) : Nat → Nat → Nat → Nat
  | 0, i, _ => i
  | fuel + 1, i, j =>
    if i < j then
      let h := (i + j) / 2
      if f h then searchLoop f fuel i h else searchLoop f fuel (h + 1) j
    else i

def search (n : Nat) (f : Nat → Bool) : Nat := searchLoop f n 0 n

/-- The first index with the property lies between `i` and `j`. -/
structure Bisects (n : Nat) (f : Nat → Bool) (i j : Nat) : Prop where
  le : i ≤ j
  bound : j ≤ n
  below : ∀ k, k < i → f k = false
  above : ∀ k, j ≤ k → k < n → f k = true

section Search

variable {n : Nat} {f : Nat → Bool}

theorem searchLoop_bisects (hMono : ∀ a b, a ≤ b → b < n → f a = true → f b = true)
    {fuel i j : Nat} (h : Bisects n f i j) (hFuel : j - i ≤ fuel) :
    Bisects n f (searchLoop f fuel i j) (searchLoop f fuel i j) := by
  induction fuel generalizing i j with
  | zero =>
    have hSame : j = i := by
      have hLE := h.le
      omega
    subst hSame
    exact h
  | succ fuel ih =>
    have hLE := h.le
    have hBound := h.bound
    rw [searchLoop]
    split
    · rename_i hLT
      dsimp only
      split
      · rename_i hTrue
        refine ih ⟨by omega, by omega, h.below, ?_⟩ (by omega)
        intro k hFrom hEnd
        exact hMono _ k hFrom hEnd hTrue
      · rename_i hFalse
        refine ih ⟨by omega, h.bound, ?_, h.above⟩ (by omega)
        intro k hBefore
        by_contra hTrue
        exact hFalse (hMono k _ (by omega) (by omega) (by simpa using hTrue))
    · have hSame : j = i := by omega
      subst hSame
      exact h

theorem search_bisects (hMono : ∀ a b, a ≤ b → b < n → f a = true → f b = true) :
    Bisects n f (search n f) (search n f) :=
  searchLoop_bisects hMono
    ⟨Nat.zero_le n, Nat.le_refl n, fun _ hBefore => absurd hBefore (Nat.not_lt_zero _),
      fun _ hFrom hEnd => absurd hEnd (Nat.not_lt.mpr hFrom)⟩ (by omega)

end Search

/-- Where a property holds from some element of a list on, what comes after the index found are the
elements with the property. -/
theorem drop_search {α : Type} {p : α → Bool} {xs : List α}
    (h : xs.Pairwise fun x y => p x = true → p y = true) :
    xs.drop (search xs.length fun i => xs[i]?.any p) = xs.filter p := by
  have hSpec : Bisects xs.length (fun i => xs[i]?.any p) _ _ := search_bisects (by
    intro a b hLE hEnd hTrue
    rcases Nat.eq_or_lt_of_le hLE with rfl | hLT
    · exact hTrue
    · have hStart : a < xs.length := Nat.lt_trans hLT hEnd
      rw [getElem?_eq_getElem hStart, any_some] at hTrue
      rw [getElem?_eq_getElem hEnd, any_some]
      exact pairwise_iff_getElem.mp h a b hStart hEnd hLT hTrue)
  set k := search xs.length fun i => xs[i]?.any p
  have hBefore : (xs.take k).filter p = [] := by
    refine filter_eq_nil_iff.mpr fun x hx hTrue => ?_
    obtain ⟨i, hi, rfl⟩ := mem_iff_getElem.mp hx
    rw [length_take] at hi
    have hFalse := hSpec.below i (by omega)
    rw [getElem_take] at hTrue
    rw [getElem?_eq_getElem (by omega), any_some, hTrue] at hFalse
    cases hFalse
  have hAfter : (xs.drop k).filter p = xs.drop k := by
    refine filter_eq_self.mpr fun x hx => ?_
    obtain ⟨i, hi, rfl⟩ := mem_iff_getElem.mp hx
    rw [length_drop] at hi
    have hTrue := hSpec.above (k + i) (by omega) (by omega)
    rw [getElem?_eq_getElem (by omega), any_some] at hTrue
    rwa [getElem_drop]
  calc xs.drop k = (xs.take k).filter p ++ (xs.drop k).filter p := by
        rw [hBefore, hAfter, nil_append]
    _ = xs.filter p := by rw [← filter_append, take_append_drop]

/-- In a list in ascending order, the elements above one of them are those after it. -/
theorem filter_above {α : Type} (key : α → Nat) {before after : List α} {x : α}
    (h : (before ++ x :: after).Pairwise fun a b => key a < key b) :
    (before ++ x :: after).filter (fun y => decide (key x < key y)) = after := by
  rw [pairwise_append, pairwise_cons] at h
  obtain ⟨_, ⟨hAfter, _⟩, hBefore⟩ := h
  rw [filter_append, filter_eq_nil_iff.mpr, filter_cons_of_neg (by simp),
    filter_eq_self.mpr, nil_append]
  · intro y hMem
    exact decide_eq_true (hAfter y hMem)
  · intro y hMem
    have hLT := hBefore y hMem x mem_cons_self
    rw [decide_eq_true_eq]
    omega

/-- In a list in the order of its keys, those with the smallest key come first. -/
theorem filter_least {α : Type} (key : α → Nat) {least : Nat} {xs : List α}
    (hLeast : ∀ x ∈ xs, least ≤ key x) (h : xs.Pairwise fun a b => key a ≤ key b) :
    xs.filter (fun x => decide (key x = least)) ++ xs.filter (fun x => decide (key x ≠ least)) = xs := by
  induction xs with
  | nil => rfl
  | cons x xs ih =>
    rw [forall_mem_cons] at hLeast
    rw [pairwise_cons] at h
    by_cases hKey : key x = least
    · rw [filter_cons_of_pos (by simpa using hKey), filter_cons_of_neg (by simpa using hKey),
        cons_append, ih hLeast.2 h.2]
    · have hNone : (x :: xs).filter (fun x => decide (key x = least)) = [] := by
        refine filter_eq_nil_iff.mpr ?_
        rw [forall_mem_cons]
        refine ⟨by simpa using hKey, fun y hMem => ?_⟩
        have hLE := h.1 y hMem
        have hStart := hLeast.1
        rw [decide_eq_true_eq]
        omega
      have hAll : (x :: xs).filter (fun x => decide (key x ≠ least)) = x :: xs := by
        refine filter_eq_self.mpr ?_
        rw [forall_mem_cons]
        refine ⟨by simpa using hKey, fun y hMem => ?_⟩
        have hLE := h.1 y hMem
        have hStart := hLeast.1
        rw [decide_eq_true_eq]
        omega
      rw [hNone, hAll, nil_append]

/-- A list in the order of its keys is the sequence of its groups. -/
theorem flatMap_groups {α : Type} (key : α → Nat) {keys : List Nat} {xs : List α}
    (hKeys : keys.Pairwise (· < ·)) (hAll : ∀ x ∈ xs, key x ∈ keys)
    (h : xs.Pairwise fun a b => key a ≤ key b) :
    keys.flatMap (fun k => xs.filter fun x => decide (key x = k)) = xs := by
  induction keys generalizing xs with
  | nil =>
    have hNil : xs = [] := eq_nil_iff_forall_not_mem.mpr fun x hMem => by
      simpa using hAll x hMem
    rw [hNil]
    rfl
  | cons least keys ih =>
    rw [pairwise_cons] at hKeys
    have hLeast : ∀ x ∈ xs, least ≤ key x := by
      intro x hMem
      rcases mem_cons.mp (hAll x hMem) with hKey | hKey
      · omega
      · have hLT := hKeys.1 _ hKey
        omega
    have hRest : keys.flatMap (fun k => xs.filter fun x => decide (key x = k)) =
        xs.filter fun x => decide (key x ≠ least) := by
      have hOthers : ∀ x ∈ xs.filter (fun x => decide (key x ≠ least)), key x ∈ keys := by
        intro x hMem
        rw [mem_filter, decide_eq_true_eq] at hMem
        exact (mem_cons.mp (hAll x hMem.1)).resolve_left hMem.2
      rw [← ih hKeys.2 hOthers (h.sublist filter_sublist)]
      refine flatMap_congr fun k hMem => ?_
      rw [List.filter_filter]
      refine filter_congr fun x _ => ?_
      have hLT := hKeys.1 k hMem
      by_cases hKey : key x = k
      · simp [hKey]
        omega
      · simp [hKey]
    rw [flatMap_cons, hRest, filter_least key hLeast h]

end GoSort
