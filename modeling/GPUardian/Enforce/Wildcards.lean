import GPUardian.Enforce.Matching

/-! The texts that the pattern of a scope covers. The search takes the first place for each part of a
pattern; a star before the next part makes up for the places that it passes over. -/
namespace GoStrings

open List

variable {α : Type}

/-- The texts of a pattern in which `star` stands for any text and every other symbol for itself. -/
inductive Covers (star : α) : List α → List α → Prop where
  | nil : Covers star [] []
  | skip (gap : List α) {pattern rest : List α} :
      Covers star pattern rest → Covers star (star :: pattern) (gap ++ rest)
  | symbol {x : α} {pattern rest : List α} :
      x ≠ star → Covers star pattern rest → Covers star (x :: pattern) (x :: rest)

/-- Each part follows the one before it after a gap, and nothing follows the last. -/
def CoversParts : List (List α) → List α → Prop
  | [], value => value = []
  | part :: parts, value => ∃ gap rest, value = gap ++ (part ++ rest) ∧ CoversParts parts rest

/-- A gap before the parts joins that of the first. -/
theorem CoversParts.after {parts : List (List α)} {taken : List α} (gap rest : List α)
    (h : CoversParts parts taken) :
    ∃ taken' rest', gap ++ (taken ++ rest) = taken' ++ rest' ∧ CoversParts parts taken' := by
  cases parts with
  | nil => exact ⟨[], _, rfl, rfl⟩
  | cons part parts =>
    obtain ⟨skipped, taken, rfl, hTaken⟩ := h
    exact ⟨gap ++ skipped ++ (part ++ taken), rest, by simp, gap ++ skipped, taken, rfl, hTaken⟩

/-- The last part stands at the end. -/
theorem coversParts_concat {parts : List (List α)} {last value : List α} :
    CoversParts (parts ++ [last]) value ↔
      ∃ taken rest, value = taken ++ rest ∧ CoversParts parts taken ∧ last <:+ rest := by
  induction parts generalizing value with
  | nil => simp [CoversParts, IsSuffix, eq_comm]
  | cons part parts ih =>
    simp only [cons_append, CoversParts, ih]
    constructor
    · rintro ⟨gap, _, rfl, taken, rest, rfl, hTaken, hLast⟩
      exact ⟨gap ++ (part ++ taken), rest, by simp, ⟨gap, taken, rfl, hTaken⟩, hLast⟩
    · rintro ⟨_, rest, rfl, ⟨gap, taken, rfl, hTaken⟩, hLast⟩
      exact ⟨gap, taken ++ rest, by simp, taken, rest, rfl, hTaken, hLast⟩

variable [DecidableEq α]

/-- The parts between the stars of a pattern, and the texts that they cover. -/
theorem covers_iff_parts (star : α) (pattern : List α) : ∃ first parts,
    splitAt star pattern = first :: parts ∧
    (star ∈ pattern ∧ parts ≠ [] ∨ star ∉ pattern ∧ parts = [] ∧ first = pattern) ∧
    ∀ value, Covers star pattern value ↔ ∃ rest, value = first ++ rest ∧ CoversParts parts rest := by
  induction pattern with
  | nil =>
    refine ⟨[], [], rfl, by simp, fun value => ⟨fun h => ?_, ?_⟩⟩
    · cases h
      exact ⟨[], rfl, rfl⟩
    · rintro ⟨_, rfl, rfl⟩
      exact .nil
  | cons x pattern ih =>
    obtain ⟨first, parts, hSplit, hStars, hCovers⟩ := ih
    by_cases hStar : x = star
    · subst hStar
      refine ⟨[], first :: parts, by simp [splitAt, hSplit], by simp, fun value => ⟨fun h => ?_, ?_⟩⟩
      · cases h with
        | skip gap h =>
          obtain ⟨rest, rfl, hRest⟩ := (hCovers _).mp h
          exact ⟨_, rfl, gap, rest, rfl, hRest⟩
        | symbol hNe => exact absurd rfl hNe
      · rintro ⟨_, rfl, gap, rest, rfl, hRest⟩
        exact .skip gap ((hCovers _).mpr ⟨rest, rfl, hRest⟩)
    · refine ⟨x :: first, parts, by simp [splitAt, hStar, hSplit], ?_, fun value => ⟨fun h => ?_, ?_⟩⟩
      · simpa [Ne.symm hStar] using hStars
      · cases h with
        | skip => exact absurd rfl hStar
        | symbol _ h =>
          obtain ⟨rest, rfl, hRest⟩ := (hCovers _).mp h
          exact ⟨rest, rfl, hRest⟩
      · rintro ⟨rest, rfl, hRest⟩
        exact .symbol hStar ((hCovers _).mpr ⟨rest, rfl, hRest⟩)

theorem index?_some {part value : List α} {i : Nat} (h : index? part value = some i) :
    value = value.take i ++ (part ++ value.drop (i + part.length)) := by
  induction value generalizing i with
  | nil => simp_all [index?]
  | cons x value ih =>
    simp only [index?] at h
    split at h
    · rename_i hPrefix
      obtain ⟨rest, hRest⟩ := isPrefixOf_iff_prefix.mp hPrefix
      cases h
      simp [← hRest]
    · obtain ⟨j, hFound, rfl⟩ := Option.map_eq_some_iff.mp h
      have hValue := ih hFound
      simp only [take_succ_cons, cons_append, cons.injEq, true_and, Nat.add_right_comm j 1,
        drop_succ_cons]
      exact hValue

/-- The first place of a part is not after another one. -/
theorem index?_le (gap part rest : List α) :
    ∃ i ≤ gap.length, index? part (gap ++ (part ++ rest)) = some i := by
  induction gap with
  | nil =>
    refine ⟨0, le_rfl, ?_⟩
    rw [nil_append, index?.eq_def]
    split
    · simp_all
    · rename_i hValue
      simp [← hValue]
  | cons x gap ih =>
    obtain ⟨i, hLe, hFound⟩ := ih
    rw [cons_append, index?]
    split
    · exact ⟨0, Nat.zero_le _, rfl⟩
    · exact ⟨i + 1, by simpa using hLe, by simp [hFound]⟩

end GoStrings

namespace GPUardian

open GoStrings List

theorem wildcardParts_cons (part : List Char) (parts : List (List Char)) (value : List Char) :
    wildcardParts (part :: parts) value = true ↔ ∃ i, index? part value = some i ∧
      wildcardParts parts (value.drop (i + part.length)) = true := by
  rw [wildcardParts]
  split
  · subst part
    cases value <;> simp [index?]
  · cases index? part value <;> simp

/-- The loop finds the parts if the text begins with a text of them. -/
theorem wildcardParts_iff (parts : List (List Char)) (value : List Char) :
    wildcardParts parts value = true ↔ ∃ taken rest, value = taken ++ rest ∧ CoversParts parts taken := by
  induction parts generalizing value with
  | nil => simp [wildcardParts, CoversParts]
  | cons part parts ih =>
    rw [wildcardParts_cons]
    constructor
    · rintro ⟨i, hFound, hRest⟩
      obtain ⟨taken, rest, hTaken, hCovers⟩ := (ih _).mp hRest
      refine ⟨value.take i ++ (part ++ taken), rest, ?_, value.take i, taken, rfl, hCovers⟩
      rw [append_assoc, append_assoc, ← hTaken]
      exact index?_some hFound
    · rintro ⟨_, rest, rfl, gap, taken, rfl, hCovers⟩
      obtain ⟨i, hLe, hFound⟩ := index?_le gap part (taken ++ rest)
      refine ⟨i, by simpa using hFound, (ih _).mpr ?_⟩
      -- what lies between the first place and the one that the text has is a gap of the next part
      have hDrop : (gap ++ (part ++ taken) ++ rest).drop (i + part.length) =
          (gap ++ part).drop (i + part.length) ++ (taken ++ rest) := by
        rw [← drop_append_of_le_length (by simp; omega)]
        simp
      rw [hDrop]
      exact hCovers.after _ _

/-- The parts are found in a text that ends with the last of them exactly if they cover it. -/
theorem wildcardSearch_iff (first : List Char) {parts : List (List Char)} (hParts : parts ≠ [])
    (value : List Char) :
    (first.isPrefixOf value && wildcardParts parts (value.drop first.length) &&
      ((parts.getLast?.getD first) == [] || (parts.getLast?.getD first).isSuffixOf value)) = true ↔
    ∃ rest, value = first ++ rest ∧ CoversParts parts rest := by
  obtain ⟨init, last, rfl⟩ := (eq_nil_or_concat' parts).resolve_left hParts
  have hLast : ∀ text : List Char, (last == [] || last.isSuffixOf text) = true ↔ last <:+ text := by
    cases last <;> simp
  simp only [Bool.and_eq_true, isPrefixOf_iff_prefix, wildcardParts_iff, getLast?_concat,
    Option.getD_some, hLast, coversParts_concat]
  constructor
  · rintro ⟨⟨⟨_, rfl⟩, _, rest, hRest, taken, found, rfl, hTaken, hFound⟩, hEnd⟩
    rw [drop_left] at hRest
    subst hRest
    -- the last part was found after the others, so the one at the end is also after them
    refine ⟨_, rfl, taken, found ++ rest, by simp, hTaken, ?_⟩
    refine suffix_of_suffix_length_le hEnd ⟨first ++ taken, by simp⟩ ?_
    exact hFound.length_le.trans (by simp)
  · rintro ⟨_, rfl, taken, rest, rfl, hTaken, hEnd⟩
    refine ⟨⟨prefix_append _ _, taken ++ rest, [], by simp, taken, rest, rfl, hTaken, hEnd⟩, ?_⟩
    exact hEnd.trans ⟨first ++ taken, by simp⟩

/-- A pattern that is not blank covers the texts of its language, and a blank one covers none. -/
theorem wildcardMatch_iff_covers (pattern value : String) : wildcardMatch pattern value = true ↔
    trimSpace pattern ≠ "" ∧ Covers '*' (trimSpace pattern).toList (trimSpace value).toList := by
  obtain ⟨first, parts, hSplit, hStars, hCovers⟩ := covers_iff_parts '*' (trimSpace pattern).toList
  rw [hCovers]
  simp only [wildcardMatch, hSplit, ← String.toList_eq_nil_iff, ne_eq]
  generalize (trimSpace pattern).toList = pattern at *
  generalize (trimSpace value).toList = value at *
  split
  · simp_all
  · rename_i hBlank
    simp only [hBlank, not_false_eq_true, true_and]
    rcases hStars with ⟨hStar, hParts⟩ | ⟨hPlain, rfl, rfl⟩
    · rw [if_neg (not_not.mpr hStar)]
      split
      · subst pattern
        obtain ⟨rfl, rfl⟩ : [] = first ∧ [[]] = parts := by simpa [GoStrings.splitAt] using hSplit
        exact iff_of_true rfl ⟨value, rfl, value, [], by simp, rfl⟩
      · exact wildcardSearch_iff first hParts value
    · rw [if_pos hPlain, beq_iff_eq, eq_comm]
      simp [CoversParts]

end GPUardian
