import Mathlib.Data.List.Forall2
import Mathlib.Data.List.Nodup
import Mathlib.Tactic.Common

/-! Go slices over shared backing arrays. A slice is a view of a prefix of an array,
and the loops below write through it, so two slices of one array see each other's
writes. The lemmas say when such writes implement the corresponding operation on
lists, and when they leave another slice alone. -/
namespace GoSlice

open List

variable {α : Type}

/-- Backing arrays, addressed by their position. Arrays are never freed. -/
structure Arena (α : Type) where
  arrays : List (List α)

/-- A slice that starts at the head of its array; a nil slice has no array. -/
structure Slice where
  addr : Option Nat
  len : Nat

def Slice.nil : Slice := ⟨none, 0⟩

namespace Arena

def get (heap : Arena α) (addr : Nat) : List α := heap.arrays[addr]?.getD []

def put (heap : Arena α) (addr : Nat) (array : List α) : Arena α :=
  ⟨heap.arrays.set addr array⟩

def alloc (heap : Arena α) (array : List α) : Arena α := ⟨heap.arrays ++ [array]⟩

@[simp]
theorem length_put (heap : Arena α) (addr : Nat) (array : List α) :
    (heap.put addr array).arrays.length = heap.arrays.length :=
  length_set

@[simp]
theorem length_alloc (heap : Arena α) (array : List α) :
    (heap.alloc array).arrays.length = heap.arrays.length + 1 := by
  simp [alloc]

theorem get_put_self (heap : Arena α) {addr : Nat} (array : List α)
    (h : addr < heap.arrays.length) : (heap.put addr array).get addr = array := by
  simp [get, put, getElem?_set_self h]

theorem get_put_ne (heap : Arena α) {addr other : Nat} (array : List α) (h : addr ≠ other) :
    (heap.put addr array).get other = heap.get other := by
  simp [get, put, getElem?_set_ne h]

theorem get_alloc_new (heap : Arena α) (array : List α) :
    (heap.alloc array).get heap.arrays.length = array := by
  simp [get, alloc]

theorem get_alloc_old (heap : Arena α) (array : List α) {addr : Nat}
    (h : addr < heap.arrays.length) : (heap.alloc array).get addr = heap.get addr := by
  simp [get, alloc, getElem?_append_left h]

end Arena

/-- The elements a slice shows. -/
def view (heap : Arena α) (s : Slice) : List α :=
  match s.addr with
  | none => []
  | some addr => (heap.get addr).take s.len

/-- The array exists and is at least as long as the slice. -/
def Valid (heap : Arena α) (s : Slice) : Prop :=
  match s.addr with
  | none => s.len = 0
  | some addr => addr < heap.arrays.length ∧ s.len ≤ (heap.get addr).length

/-- Two slices that do not share a backing array. -/
def Apart (s t : Slice) : Prop := ∀ addr, s.addr = some addr → t.addr ≠ some addr

theorem Apart.symm {s t : Slice} (h : Apart s t) : Apart t s :=
  fun addr ht hs => h addr hs ht

section Loops

/-- `for i := range s { s[i] = f(i, s[i]) }`, from index `i` for `n` elements. -/
def updateFrom (f : Nat → α → α) : Nat → Nat → List α → List α
  | _, 0, array => array
  | i, n + 1, array => updateFrom f (i + 1) n (array.modify i (f i))

/-- The same loop, left after the first element that satisfies `p`. -/
def updateFirstFrom (p : α → Bool) (f : α → α) : Nat → Nat → List α → List α
  | _, 0, array => array
  | i, n + 1, array =>
    match array[i]? with
    | none => array
    | some x => if p x then array.set i (f x) else updateFirstFrom p f (i + 1) n array

/-- `kept := s[:0]; for _, x := range s { if p(x) { kept = append(kept, x) } }`:
the kept elements move to the front of the same array. Returns the array and the
length of `kept`. -/
def filterFrom (p : α → Bool) : Nat → Nat → Nat → List α → List α × Nat
  | _, j, 0, array => (array, j)
  | i, j, n + 1, array =>
    match array[i]? with
    | none => (array, j)
    | some x =>
      if p x then filterFrom p (i + 1) (j + 1) n (array.set j x)
      else filterFrom p (i + 1) j n array

/-- What `updateFirstFrom` computes, on a list. -/
def modifyFirst (p : α → Bool) (f : α → α) : List α → List α
  | [] => []
  | x :: rest => if p x then f x :: rest else x :: modifyFirst p f rest

/-- Where the update keeps the selected element selected, a search finds its image. -/
theorem find?_modifyFirst {p : α → Bool} {f : α → α} (hKeep : ∀ x, p x = true → p (f x) = true)
    (xs : List α) : (modifyFirst p f xs).find? p = (xs.find? p).map f := by
  induction xs with
  | nil => rfl
  | cons x rest ih =>
    by_cases hx : p x = true
    · simp [modifyFirst, hx, hKeep x hx]
    · simp [modifyFirst, hx, ih]

/-- A search for elements that the update does not touch finds what it found. -/
theorem find?_modifyFirst_of_disjoint {p q : α → Bool} {f : α → α}
    (hApart : ∀ x, p x = true → q x = false ∧ q (f x) = false) (xs : List α) :
    (modifyFirst p f xs).find? q = xs.find? q := by
  induction xs with
  | nil => rfl
  | cons x rest ih =>
    by_cases hx : p x = true
    · simp [modifyFirst, hx, hApart x hx]
    · by_cases hq : q x = true <;> simp [modifyFirst, hx, hq, ih]

theorem mem_modifyFirst {p : α → Bool} {f : α → α} {xs : List α} {y : α}
    (h : y ∈ modifyFirst p f xs) : y ∈ xs ∨ ∃ x ∈ xs, p x = true ∧ y = f x := by
  induction xs with
  | nil => cases h
  | cons x xs ih =>
    unfold modifyFirst at h
    split at h
    · rename_i hx
      rcases mem_cons.mp h with rfl | hRest
      · exact .inr ⟨x, mem_cons_self, hx, rfl⟩
      · exact .inl (mem_cons_of_mem x hRest)
    · rcases mem_cons.mp h with rfl | hRest
      · exact .inl mem_cons_self
      · rcases ih hRest with hOld | ⟨old, hOld, hSelected⟩
        · exact .inl (mem_cons_of_mem x hOld)
        · exact .inr ⟨old, mem_cons_of_mem x hOld, hSelected⟩

/-- A change to the first selected element relates every element to its image. -/
theorem forall₂_modifyFirst {p : α → Bool} {f : α → α} {R : α → α → Prop} {xs : List α}
    (hRefl : ∀ x, R x x) (hFirst : ∀ x, xs.find? p = some x → R x (f x)) :
    List.Forall₂ R xs (modifyFirst p f xs) := by
  induction xs with
  | nil => exact .nil
  | cons x xs ih =>
    by_cases hx : p x = true
    · rw [modifyFirst, if_pos hx]
      exact .cons (hFirst x (by simp [hx])) (forall₂_same.mpr fun y _ => hRefl y)
    · rw [modifyFirst, if_neg hx]
      exact .cons (hRefl x) (ih fun y hy => hFirst y (by simp [hx, hy]))

/-- An element of one of two related lists has a partner in the other. -/
theorem forall₂_partner {β : Type} {R : α → β → Prop} {xs : List α} {ys : List β}
    (h : List.Forall₂ R xs ys) {x : α} (hx : x ∈ xs) : ∃ y ∈ ys, R x y := by
  induction h with
  | nil => exact absurd hx not_mem_nil
  | @cons a b as bs hHead _ ih =>
    rcases mem_cons.mp hx with rfl | hTail
    · exact ⟨b, mem_cons_self, hHead⟩
    · obtain ⟨y, hy, hRel⟩ := ih hTail
      exact ⟨y, mem_cons_of_mem b hy, hRel⟩

/-- The partner of an element, as the pair that stands at one index. -/
theorem forall₂_zip_partner {β : Type} {R : α → β → Prop} {xs : List α} {ys : List β}
    (h : List.Forall₂ R xs ys) {y : β} (hy : y ∈ ys) : ∃ x, (x, y) ∈ xs.zip ys ∧ R x y := by
  induction h with
  | nil => exact absurd hy not_mem_nil
  | @cons a b as bs hHead _ ih =>
    rcases mem_cons.mp hy with rfl | hTail
    · exact ⟨a, mem_cons_self, hHead⟩
    · obtain ⟨x, hx, hRel⟩ := ih hTail
      exact ⟨x, mem_cons_of_mem _ hx, hRel⟩

theorem forall₂_compose {β γ : Type} {R : α → β → Prop} {S : β → γ → Prop} {T : α → γ → Prop}
    (hCompose : ∀ a b c, R a b → S b c → T a c) {xs : List α} {ys : List β} {zs : List γ}
    (hFirst : List.Forall₂ R xs ys) (hSecond : List.Forall₂ S ys zs) : List.Forall₂ T xs zs := by
  induction hFirst generalizing zs with
  | nil =>
    cases hSecond
    exact .nil
  | cons hHead _ ih =>
    cases hSecond with
    | cons hHead' hTail' => exact .cons (hCompose _ _ _ hHead hHead') (ih hTail')

/-- The later list has some of the elements, in order, each changed as the relation allows. -/
def Leaves (R : α → α → Prop) (before after : List α) : Prop :=
  ∃ kept, List.Sublist kept before ∧ List.Forall₂ R kept after

namespace Leaves

variable {R : α → α → Prop} {before after : List α}

theorem of_sublist (hRefl : ∀ x, R x x) (h : List.Sublist after before) : Leaves R before after :=
  ⟨after, h, forall₂_same.mpr fun x _ => hRefl x⟩

theorem of_forall₂ (h : List.Forall₂ R before after) : Leaves R before after :=
  ⟨before, Sublist.refl before, h⟩

theorem partner (h : Leaves R before after) {y : α} (hy : y ∈ after) : ∃ x ∈ before, R x y := by
  obtain ⟨kept, hKept, hRel⟩ := h
  obtain ⟨x, hx, hxy⟩ := forall₂_partner hRel.flip hy
  exact ⟨x, hKept.subset hx, hxy⟩

/-- A column that the changes do not touch only gets shorter. -/
theorem map_sublist {β : Type} {f : α → β} (hf : ∀ x y, R x y → f y = f x)
    (h : Leaves R before after) : List.Sublist (after.map f) (before.map f) := by
  obtain ⟨kept, hKept, hRel⟩ := h
  have hSame : after.map f = kept.map f := by
    induction hRel with
    | nil => rfl
    | @cons x y xs ys hHead hTail ih =>
      rw [map_cons, map_cons, hf x y hHead,
        ih ((sublist_cons_self x xs).trans hKept)]
  rw [hSame]
  exact hKept.map f

/-- Elements that count after the changes counted before them. -/
theorem countP_le {p q : α → Bool} (hCounts : ∀ x y, R x y → q y = true → p x = true)
    (h : Leaves R before after) : after.countP q ≤ before.countP p := by
  obtain ⟨kept, hKept, hRel⟩ := h
  refine Nat.le_trans ?_ hKept.countP_le
  clear hKept
  induction hRel with
  | nil => exact Nat.le_refl _
  | @cons x y xs ys hHead hTail ih =>
    rw [countP_cons, countP_cons]
    by_cases hy : q y = true
    · rw [if_pos hy, if_pos (hCounts x y hHead hy)]
      omega
    · rw [if_neg hy]
      omega

end Leaves

/-- One more element leaves the count within a bound that was checked for it. -/
theorem countP_concat_le {p q : α → Bool} {xs : List α} {x : α} {bound : Nat}
    (hBefore : xs.countP q ≤ bound)
    (hNew : q x = true → (∀ y ∈ xs, q y = true → p y = true) ∧ xs.countP p < bound) :
    (xs ++ [x]).countP q ≤ bound := by
  rw [countP_append, countP_singleton]
  split
  · rename_i hx
    obtain ⟨hCounts, hFree⟩ := hNew hx
    exact Nat.succ_le_of_lt (Nat.lt_of_le_of_lt (countP_mono_left hCounts) hFree)
  · exact hBefore

/-- Appending an element whose key is new keeps the keys distinct. -/
theorem nodup_map_append_singleton {β : Type} {key : α → β} {xs : List α} {x : α}
    (hNodup : (xs.map key).Nodup) (hNew : key x ∉ xs.map key) :
    ((xs ++ [x]).map key).Nodup := by
  rw [map_append, map_singleton]
  refine nodup_append.mpr ⟨hNodup, pairwise_singleton _ _, ?_⟩
  intro old hOld added hAdded hEqual
  rw [hEqual, mem_singleton.mp hAdded] at hOld
  exact hNew hOld

/-- Where the keys are distinct, a search that only that key can satisfy finds the element. -/
theorem find?_of_nodup {β : Type} {key : α → β} {p : α → Bool} {xs : List α} {x : α}
    (hNodup : (xs.map key).Nodup) (hMem : x ∈ xs) (hx : p x = true)
    (hKey : ∀ y ∈ xs, p y = true → key y = key x) : xs.find? p = some x := by
  obtain ⟨y, hFind⟩ := Option.isSome_iff_exists.mp (List.find?_isSome.mpr ⟨x, hMem, hx⟩)
  have hFound := mem_of_find?_eq_some hFind
  rw [hFind, inj_on_of_nodup_map hNodup hFound hMem (hKey y hFound (find?_some hFind))]

theorem updateFrom_length (f : Nat → α → α) (i n : Nat) (array : List α) :
    (updateFrom f i n array).length = array.length := by
  induction n generalizing i array with
  | zero => rfl
  | succ n ih => simp [updateFrom, ih]

theorem updateFrom_eq (f : Nat → α → α) (i n : Nat) (array : List α) :
    updateFrom f i n array =
      array.take i ++ ((array.drop i).take n).mapIdx (fun k => f (i + k)) ++
        array.drop (i + n) := by
  induction n generalizing i array with
  | zero => simp [updateFrom]
  | succ n ih =>
    rw [updateFrom, ih]
    apply ext_getElem?
    intro k
    simp only [getElem?_append, length_append, length_take, length_mapIdx,
      length_drop, getElem?_take, getElem?_drop, getElem?_mapIdx,
      getElem?_modify, length_modify]
    grind

theorem updateFirstFrom_length (p : α → Bool) (f : α → α) (i n : Nat) (array : List α) :
    (updateFirstFrom p f i n array).length = array.length := by
  induction n generalizing i with
  | zero => rfl
  | succ n ih =>
    rw [updateFirstFrom]
    split
    · rfl
    · split <;> simp [ih]

theorem updateFirstFrom_eq (p : α → Bool) (f : α → α) (i n : Nat) (array : List α)
    (h : i + n ≤ array.length) :
    updateFirstFrom p f i n array =
      array.take i ++ modifyFirst p f ((array.drop i).take n) ++ array.drop (i + n) := by
  induction n generalizing i with
  | zero => simp [updateFirstFrom, modifyFirst]
  | succ n ih =>
    have hi : i < array.length := by omega
    have hDrop : array.drop i = array[i] :: array.drop (i + 1) := drop_eq_getElem_cons hi
    have hTake : array.take (i + 1) = array.take i ++ [array[i]] := by
      rw [take_append_getElem hi]
    rw [updateFirstFrom, getElem?_eq_getElem hi, hDrop, take_succ_cons, modifyFirst]
    dsimp only
    split
    · rw [set_eq_take_append_cons_drop, if_pos hi]
      have hSplit : array.drop (i + 1) =
          (array.drop (i + 1)).take n ++ array.drop (i + (n + 1)) := by
        have hRest := take_append_drop n (array.drop (i + 1))
        rw [drop_drop, show i + 1 + n = i + (n + 1) by omega] at hRest
        exact hRest.symm
      conv_lhs => rw [hSplit]
      simp
    · rw [ih (i + 1) (by omega), hTake, show i + 1 + n = i + (n + 1) by omega]
      simp only [append_assoc, cons_append, nil_append]

/-- The write position never passes the read position, so every element is read
before it can be overwritten. -/
theorem filterFrom_spec (p : α → Bool) (i j n : Nat) (array : List α) (hj : j ≤ i)
    (h : i + n ≤ array.length) :
    (filterFrom p i j n array).1.length = array.length ∧
    (filterFrom p i j n array).2 ≤ i + n ∧
    (filterFrom p i j n array).1.take (filterFrom p i j n array).2 =
      array.take j ++ ((array.drop i).take n).filter p := by
  induction n generalizing i j array with
  | zero => simp [filterFrom, hj]
  | succ n ih =>
    have hi : i < array.length := by omega
    have hDrop : array.drop i = array[i] :: array.drop (i + 1) := drop_eq_getElem_cons hi
    rw [filterFrom, getElem?_eq_getElem hi, hDrop, take_succ_cons]
    dsimp only
    by_cases hp : p array[i]
    · rw [if_pos hp, filter_cons_of_pos hp]
      obtain ⟨hLength, hLe, hTake⟩ :=
        ih (i + 1) (j + 1) (array.set j array[i]) (by omega) (by simpa using by omega)
      have hFront : (array.set j array[i]).take (j + 1) = array.take j ++ [array[i]] := by
        have hj' : j < (array.set j array[i]).length := by simpa using by omega
        rw [← take_append_getElem hj', take_set_of_le (Nat.le_refl j)]
        simp
      have hBack : (array.set j array[i]).drop (i + 1) = array.drop (i + 1) :=
        drop_set_of_lt (by omega)
      refine ⟨by simpa using hLength, by omega, ?_⟩
      rw [hTake, hFront, hBack]
      simp
    · rw [if_neg hp, filter_cons_of_neg hp]
      obtain ⟨hLength, hLe, hTake⟩ := ih (i + 1) j array (by omega) (by omega)
      exact ⟨hLength, by omega, hTake⟩

end Loops

/-- One statement that changes a slice held in a record field. -/
inductive Edit (α : Type) where
  | keep
  | append (xs : List α)
  | update (f : Nat → α → α)
  | updateFirst (p : α → Bool) (f : α → α)
  | filter (p : α → Bool)
  | replace (xs : List α)

/-- What the statement means for the elements shown. -/
def Edit.onList : Edit α → List α → List α
  | .keep, xs => xs
  | .append ys, xs => xs ++ ys
  | .update f, xs => xs.mapIdx f
  | .updateFirst p f, xs => modifyFirst p f xs
  | .filter p, xs => xs.filter p
  | .replace ys, _ => ys

/-- An indexed update relates every element to its image. -/
theorem Edit.forall₂_update_at {R : α → α → Prop} {f : Nat → α → α} {xs : List α}
    (h : ∀ i x, xs[i]? = some x → R x (f i x)) : List.Forall₂ R xs ((Edit.update f).onList xs) := by
  induction xs generalizing f with
  | nil => exact List.Forall₂.nil
  | cons x xs ih =>
    simp only [onList, mapIdx_cons]
    exact List.Forall₂.cons (h 0 x rfl) (ih fun i y hy => h (i + 1) y hy)

theorem Edit.forall₂_update {R : α → α → Prop} {f : Nat → α → α} (xs : List α)
    (h : ∀ i, ∀ x ∈ xs, R x (f i x)) : List.Forall₂ R xs ((Edit.update f).onList xs) :=
  Edit.forall₂_update_at fun i x hx => h i x (mem_of_getElem? hx)

theorem Edit.onList_update_self {f : Nat → α → α} {xs : List α} (h : ∀ i, ∀ x ∈ xs, f i x = x) :
    (Edit.update f).onList xs = xs := by
  apply ext_getElem?
  intro i
  cases hx : xs[i]? with
  | none => simp [onList, hx]
  | some x => simp [onList, hx, h i x (mem_of_getElem? hx)]

/-- A loop that does not look at the index is a map. -/
theorem Edit.onList_update_map (f : α → α) (xs : List α) :
    (Edit.update fun _ x => f x).onList xs = xs.map f := by
  apply ext_getElem?
  intro i
  simp [Edit.onList]

/-- A loop that marks the elements it selects and keeps their keys leaves no unmarked element
under a key whose elements it selects. -/
theorem Edit.onList_update_marked {κ : Type} (key : α → κ) (selected : Nat → α → Bool)
    (mark : α → α) {xs : List α} {k : κ} (hKey : ∀ x, key (mark x) = key x)
    (hSelected : ∀ i x, xs[i]? = some x → key x = k → selected i x = true) {P : α → Prop}
    (hMark : ∀ x, P (mark x)) :
    ∀ x ∈ (Edit.update fun i x => if selected i x then mark x else x).onList xs, key x = k → P x := by
  intro x hx hxKey
  obtain ⟨i, hi, rfl⟩ := mem_mapIdx.mp hx
  have hOld : key xs[i] = k := by
    split at hxKey
    · rw [← hKey, hxKey]
    · exact hxKey
  rw [if_pos (hSelected i xs[i] (getElem?_eq_getElem hi) hOld)]
  exact hMark _

theorem Edit.onList_filter_self {p : α → Bool} {xs : List α} (h : ∀ x ∈ xs, p x) :
    (Edit.filter p).onList xs = xs :=
  filter_eq_self.mpr h

/-- The statement shows no element under a new key. -/
def Edit.KeepsKeys {κ : Type} (key : α → κ) (xs : List α) : Edit α → Prop
  | .keep => True
  | .append ys => ys = []
  | .update f => ∀ i x, key (f i x) = key x
  | .updateFirst _ f => ∀ x, key (f x) = key x
  | .filter _ => True
  | .replace ys => ys ⊆ xs

/-- So does a loop that marks some elements and keeps their keys. -/
theorem Edit.keepsKeys_mark {κ : Type} {key : α → κ} (mark : α → α) (selected : Nat → α → Bool)
    (xs : List α) (hKey : ∀ x, key (mark x) = key x) :
    (Edit.update fun i x => if selected i x then mark x else x).KeepsKeys key xs := by
  intro i x
  dsimp only
  split
  · exact hKey x
  · rfl

theorem Edit.KeepsKeys.partner {κ : Type} {key : α → κ} {xs : List α} {e : Edit α}
    (h : e.KeepsKeys key xs) {y : α} (hy : y ∈ e.onList xs) : ∃ x ∈ xs, key y = key x := by
  cases e with
  | keep => exact ⟨y, hy, rfl⟩
  | append ys =>
    obtain rfl : ys = [] := h
    exact ⟨y, by simpa [onList] using hy, rfl⟩
  | update f =>
    obtain ⟨i, hi, rfl⟩ := mem_mapIdx.mp hy
    exact ⟨xs[i], getElem_mem hi, h i xs[i]⟩
  | updateFirst p f =>
    rcases mem_modifyFirst hy with hOld | ⟨x, hx, _, rfl⟩
    · exact ⟨y, hOld, rfl⟩
    · exact ⟨x, hx, h x⟩
  | filter p => exact ⟨y, (mem_filter.mp hy).1, rfl⟩
  | replace ys => exact ⟨y, h hy, rfl⟩

/-- `append(s, xs...)`: in place when the capacity suffices, otherwise into a new
array with some spare cells. -/
def appendTo (spare : List α) (heap : Arena α) (s : Slice) (xs : List α) : Arena α × Slice :=
  match s.addr with
  | none =>
    if xs = [] then (heap, s)
    else (heap.alloc (xs ++ spare), ⟨some heap.arrays.length, xs.length⟩)
  | some addr =>
    let array := heap.get addr
    if s.len + xs.length ≤ array.length then
      (heap.put addr (array.take s.len ++ xs ++ array.drop (s.len + xs.length)),
        ⟨some addr, s.len + xs.length⟩)
    else
      (heap.alloc (array.take s.len ++ xs ++ spare),
        ⟨some heap.arrays.length, s.len + xs.length⟩)

/-- What the statement does to memory. -/
def Edit.onSlice (spare : List α) (heap : Arena α) (s : Slice) : Edit α → Arena α × Slice
  | .keep => (heap, s)
  | .append xs => appendTo spare heap s xs
  | .update f =>
    match s.addr with
    | none => (heap, s)
    | some addr => (heap.put addr (updateFrom f 0 s.len (heap.get addr)), s)
  | .updateFirst p f =>
    match s.addr with
    | none => (heap, s)
    | some addr => (heap.put addr (updateFirstFrom p f 0 s.len (heap.get addr)), s)
  | .filter p =>
    match s.addr with
    | none => (heap, s)
    | some addr =>
      let kept := filterFrom p 0 0 s.len (heap.get addr)
      (heap.put addr kept.1, ⟨some addr, kept.2⟩)
  | .replace xs => (heap.alloc (xs ++ spare), ⟨some heap.arrays.length, xs.length⟩)

/-- Every statement either rewrites the slice's own array or moves to a new one. -/
inductive Touches (heap heap' : Arena α) (s s' : Slice) : Prop where
  | same (hHeap : heap' = heap) (hSlice : s' = s)
  | own {addr : Nat} (array : List α) (hAddr : s.addr = some addr) (hAddr' : s'.addr = some addr)
      (hHeap : heap' = heap.put addr array)
  | fresh (array : List α) (hAddr : s'.addr = some heap.arrays.length)
      (hHeap : heap' = heap.alloc array)

theorem Touches.frame {heap heap' : Arena α} {s s' t : Slice} (h : Touches heap heap' s s')
    (hApart : Apart s t) (ht : Valid heap t) :
    view heap' t = view heap t ∧ Valid heap' t ∧ Apart s' t := by
  obtain ⟨tAddr, tLen⟩ := t
  cases h with
  | same hHeap hSlice =>
    subst hHeap hSlice
    exact ⟨rfl, ht, hApart⟩
  | @own addr array hAddr hAddr' hHeap =>
    subst hHeap
    refine ⟨?_, ?_, ?_⟩
    · cases tAddr with
      | none => rfl
      | some other =>
        have hNe : addr ≠ other := fun he => hApart addr hAddr (by rw [he])
        simp [view, Arena.get_put_ne heap array hNe]
    · cases tAddr with
      | none => exact ht
      | some other =>
        have hNe : addr ≠ other := fun he => hApart addr hAddr (by rw [he])
        simp only [Valid, Arena.get_put_ne heap array hNe, Arena.length_put]
        exact ht
    · intro other hOther
      rw [hAddr'] at hOther
      exact hApart other (hAddr.trans hOther)
  | fresh array hAddr hHeap =>
    subst hHeap
    cases tAddr with
    | none => exact ⟨rfl, ht, fun _ _ => nofun⟩
    | some other =>
      simp only [Valid] at ht
      refine ⟨?_, ?_, ?_⟩
      · simp [view, Arena.get_alloc_old heap array ht.1]
      · simp only [Valid, Arena.get_alloc_old heap array ht.1]
        exact ⟨by rw [Arena.length_alloc]; omega, ht.2⟩
      · intro addr hs hOther
        rw [hAddr] at hs
        cases hs
        cases hOther
        exact Nat.lt_irrefl _ ht.1

theorem appendTo_touches (spare : List α) (heap : Arena α) (s : Slice) (xs : List α) :
    Touches heap (appendTo spare heap s xs).1 s (appendTo spare heap s xs).2 := by
  unfold appendTo
  split
  · split
    · exact .same rfl rfl
    · exact .fresh _ rfl rfl
  · rename_i addr hAddr
    dsimp only
    split
    · exact .own _ hAddr rfl rfl
    · exact .fresh _ rfl rfl

theorem Edit.touches (spare : List α) (heap : Arena α) (s : Slice) (e : Edit α) :
    Touches heap (e.onSlice spare heap s).1 s (e.onSlice spare heap s).2 := by
  cases e with
  | keep => exact .same rfl rfl
  | append xs => exact appendTo_touches spare heap s xs
  | update f =>
    simp only [onSlice]
    split
    · exact .same rfl rfl
    · rename_i addr hAddr
      exact .own _ hAddr hAddr rfl
  | updateFirst p f =>
    simp only [onSlice]
    split
    · exact .same rfl rfl
    · rename_i addr hAddr
      exact .own _ hAddr hAddr rfl
  | filter p =>
    simp only [onSlice]
    split
    · exact .same rfl rfl
    · rename_i addr hAddr
      exact .own _ hAddr rfl rfl
  | replace xs => exact .fresh _ rfl rfl

theorem view_alloc_new (heap : Arena α) (xs spare : List α) :
    view (heap.alloc (xs ++ spare)) ⟨some heap.arrays.length, xs.length⟩ = xs := by
  simp [view, Arena.get_alloc_new]

theorem valid_alloc_new (heap : Arena α) (xs spare : List α) :
    Valid (heap.alloc (xs ++ spare)) ⟨some heap.arrays.length, xs.length⟩ := by
  simp [Valid, Arena.get_alloc_new]

theorem appendTo_spec (spare : List α) (heap : Arena α) (s : Slice) (hs : Valid heap s)
    (xs : List α) :
    view (appendTo spare heap s xs).1 (appendTo spare heap s xs).2 = view heap s ++ xs ∧
    Valid (appendTo spare heap s xs).1 (appendTo spare heap s xs).2 := by
  obtain ⟨sAddr, sLen⟩ := s
  cases sAddr with
  | none =>
    by_cases hx : xs = []
    · simpa [appendTo, hx, view] using hs
    · simp only [appendTo, if_neg hx]
      exact ⟨view_alloc_new heap xs spare, valid_alloc_new heap xs spare⟩
  | some addr =>
    simp only [Valid] at hs
    have hLength : ((heap.get addr).take sLen ++ xs).length = sLen + xs.length := by
      simp [Nat.min_eq_left hs.2]
    by_cases hFit : sLen + xs.length ≤ (heap.get addr).length
    · simp only [appendTo, if_pos hFit, view, Valid, Arena.get_put_self heap _ hs.1]
      refine ⟨?_, by simpa using hs.1, ?_⟩
      · rw [← hLength, take_left]
      · rw [length_append, hLength]
        omega
    · simp only [appendTo, if_neg hFit]
      rw [← hLength]
      exact ⟨view_alloc_new heap _ spare, valid_alloc_new heap _ spare⟩

/-- In-place statements compute the list operation of the same name. -/
theorem Edit.onSlice_spec (spare : List α) {heap : Arena α} {s : Slice} (hs : Valid heap s)
    (e : Edit α) :
    view (e.onSlice spare heap s).1 (e.onSlice spare heap s).2 = e.onList (view heap s) ∧
    Valid (e.onSlice spare heap s).1 (e.onSlice spare heap s).2 := by
  cases e with
  | keep => exact ⟨rfl, hs⟩
  | append xs => exact appendTo_spec spare heap s hs xs
  | replace xs => exact ⟨view_alloc_new heap xs spare, valid_alloc_new heap xs spare⟩
  | update f =>
    obtain ⟨sAddr, sLen⟩ := s
    cases sAddr with
    | none => exact ⟨rfl, hs⟩
    | some addr =>
      simp only [Valid] at hs
      simp only [onSlice, view, Valid, Arena.get_put_self heap _ hs.1, updateFrom_length, onList]
      refine ⟨?_, by simpa using hs.1, hs.2⟩
      rw [updateFrom_eq]
      simp [Nat.min_eq_left hs.2]
  | updateFirst p f =>
    obtain ⟨sAddr, sLen⟩ := s
    cases sAddr with
    | none => exact ⟨rfl, hs⟩
    | some addr =>
      simp only [Valid] at hs
      simp only [onSlice, view, Valid, Arena.get_put_self heap _ hs.1,
        updateFirstFrom_length, onList]
      refine ⟨?_, by simpa using hs.1, hs.2⟩
      have hLength : (modifyFirst p f ((heap.get addr).take sLen)).length = sLen := by
        have hAll := updateFirstFrom_length p f 0 sLen (heap.get addr)
        rw [updateFirstFrom_eq p f 0 sLen _ (by simpa using hs.2)] at hAll
        simp only [take_zero, nil_append, drop_zero, Nat.zero_add,
          length_append, length_drop] at hAll
        omega
      rw [updateFirstFrom_eq p f 0 sLen _ (by simpa using hs.2)]
      simp [hLength]
  | filter p =>
    obtain ⟨sAddr, sLen⟩ := s
    cases sAddr with
    | none => exact ⟨rfl, hs⟩
    | some addr =>
      simp only [Valid] at hs
      obtain ⟨hLength, hLe, hTake⟩ :=
        filterFrom_spec p 0 0 sLen (heap.get addr) (Nat.le_refl 0) (by simpa using hs.2)
      simp only [onSlice, view, Valid, Arena.get_put_self heap _ hs.1, onList]
      refine ⟨by simpa using hTake, by simpa using hs.1, ?_⟩
      rw [hLength]
      omega

/-- A record field that is worked on in place, together with the copy taken when it
was last saved. The two never share an array. -/
structure Column (α : Type) where
  heap : Arena α
  live : Slice
  saved : Slice
  live_valid : Valid heap live
  saved_valid : Valid heap saved
  apart : Apart live saved

namespace Column

def rows (column : Column α) : List α := view column.heap column.live

def savedRows (column : Column α) : List α := view column.heap column.saved

/-- A field read from a file, and the copy taken of it. -/
def load (spare xs : List α) : Column α :=
  let live := appendTo spare ⟨[]⟩ Slice.nil xs
  let saved := appendTo spare live.1 Slice.nil xs
  have hLive := (appendTo_spec spare ⟨[]⟩ Slice.nil rfl xs).2
  have hFrame := (appendTo_touches spare live.1 Slice.nil xs).frame (t := live.2)
    (fun _ => nofun) hLive
  { heap := saved.1
    live := live.2
    saved := saved.2
    live_valid := hFrame.2.1
    saved_valid := (appendTo_spec spare live.1 Slice.nil rfl xs).2
    apart := hFrame.2.2.symm }

def edit (spare : List α) (e : Edit α) (column : Column α) : Column α :=
  have hFrame := (e.touches spare column.heap column.live).frame column.apart column.saved_valid
  { heap := (e.onSlice spare column.heap column.live).1
    live := (e.onSlice spare column.heap column.live).2
    saved := column.saved
    live_valid := (e.onSlice_spec spare column.live_valid).2
    saved_valid := hFrame.2.1
    apart := hFrame.2.2 }

/-- The working rows become the saved ones: `saved = append([]T(nil), live...)`. -/
def commit (spare : List α) (column : Column α) : Column α :=
  let saved := appendTo spare column.heap Slice.nil column.rows
  have hFrame := (appendTo_touches spare column.heap Slice.nil column.rows).frame
    (t := column.live) (fun _ => nofun) column.live_valid
  { heap := saved.1
    live := column.live
    saved := saved.2
    live_valid := hFrame.2.1
    saved_valid := (appendTo_spec spare column.heap Slice.nil rfl _).2
    apart := hFrame.2.2.symm }

/-- The saved rows become the working ones: `live = append([]T(nil), saved...)`. -/
def rollback (spare : List α) (column : Column α) : Column α :=
  let live := appendTo spare column.heap Slice.nil column.savedRows
  have hFrame := (appendTo_touches spare column.heap Slice.nil column.savedRows).frame
    (t := column.saved) (fun _ => nofun) column.saved_valid
  { heap := live.1
    live := live.2
    saved := column.saved
    live_valid := (appendTo_spec spare column.heap Slice.nil rfl _).2
    saved_valid := hFrame.2.1
    apart := hFrame.2.2 }

@[simp]
theorem rows_edit (spare : List α) (e : Edit α) (column : Column α) :
    (column.edit spare e).rows = e.onList column.rows :=
  (e.onSlice_spec spare column.live_valid).1

@[simp]
theorem savedRows_edit (spare : List α) (e : Edit α) (column : Column α) :
    (column.edit spare e).savedRows = column.savedRows :=
  ((e.touches spare column.heap column.live).frame column.apart column.saved_valid).1

@[simp]
theorem rows_commit (spare : List α) (column : Column α) :
    (column.commit spare).rows = column.rows :=
  ((appendTo_touches spare column.heap Slice.nil column.rows).frame
    (t := column.live) (fun _ => nofun) column.live_valid).1

@[simp]
theorem savedRows_commit (spare : List α) (column : Column α) :
    (column.commit spare).savedRows = column.rows :=
  (appendTo_spec spare column.heap Slice.nil rfl column.rows).1

@[simp]
theorem rows_rollback (spare : List α) (column : Column α) :
    (column.rollback spare).rows = column.savedRows :=
  (appendTo_spec spare column.heap Slice.nil rfl column.savedRows).1

@[simp]
theorem savedRows_rollback (spare : List α) (column : Column α) :
    (column.rollback spare).savedRows = column.savedRows :=
  ((appendTo_touches spare column.heap Slice.nil column.savedRows).frame
    (t := column.saved) (fun _ => nofun) column.saved_valid).1

@[simp]
theorem rows_load (spare xs : List α) : (load spare xs).rows = xs := by
  have hLive := appendTo_spec spare ⟨[]⟩ Slice.nil rfl xs
  have hFrame := (appendTo_touches spare (appendTo spare ⟨[]⟩ Slice.nil xs).1 Slice.nil xs).frame
    (t := (appendTo spare ⟨[]⟩ Slice.nil xs).2) (fun _ => nofun) hLive.2
  exact hFrame.1.trans hLive.1

@[simp]
theorem savedRows_load (spare xs : List α) : (load spare xs).savedRows = xs :=
  (appendTo_spec spare (appendTo spare ⟨[]⟩ Slice.nil xs).1 Slice.nil rfl xs).1

end Column

end GoSlice
