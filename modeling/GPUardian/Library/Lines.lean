import Mathlib.Data.List.Basic

/-! Go's `bufio.Scanner` over the lines of a text. -/
namespace GoLines

open List

abbrev Bytes := List UInt8

def newline : UInt8 := 10

def carriageReturn : UInt8 := 13

/-- A trailing carriage return is not part of a line. -/
def dropCR (line : Bytes) : Bytes :=
  if line.getLast? = some carriageReturn then line.dropLast else line

/-- The lines that the scanner yields, `line` being the part of the next one that it has read, and
whether it stops at one that does not fit its buffer together with its newline. What follows the
last newline is a line of its own, unless it is empty. -/
def scan (limit : Nat) : Bytes → Bytes → List Bytes × Bool
  | line, [] =>
    if line = [] then ([], false)
    else if limit ≤ line.length then ([], true)
    else ([dropCR line], false)
  | line, byte :: rest =>
    if byte = newline then
      if limit ≤ line.length then ([], true)
      else
        let (lines, tooLong) := scan limit [] rest
        (dropCR line :: lines, tooLong)
    else scan limit (line ++ [byte]) rest

theorem scan_line {limit : Nat} {line rest : Bytes} (start : Bytes) (h : newline ∉ line) :
    scan limit start (line ++ rest) = scan limit (start ++ line) rest := by
  induction line generalizing start with
  | nil => simp
  | cons byte line ih =>
    rw [mem_cons, not_or] at h
    rw [cons_append, scan, if_neg (Ne.symm h.1), ih (start ++ [byte]) h.2, append_assoc,
      singleton_append]

theorem dropCR_of_not_mem {line : Bytes} (h : carriageReturn ∉ line) : dropCR line = line := by
  refine if_neg fun hLast => h ?_
  exact mem_of_mem_getLast? hLast

/-- A line that has outgrown the buffer is the last one that is read. -/
theorem scan_outgrown {limit : Nat} (start rest : Bytes) (hLimit : 0 < limit)
    (h : limit ≤ start.length) : (scan limit start rest).2 = true := by
  induction rest generalizing start with
  | nil =>
    have hNonempty : start ≠ [] := ne_nil_of_length_pos (Nat.lt_of_lt_of_le hLimit h)
    rw [scan, if_neg hNonempty, if_pos h]
  | cons byte rest ih =>
    rw [scan, if_pos h]
    split
    · rfl
    · exact ih (start ++ [byte]) (by rw [length_append]; omega)

/-- Where the scanner does not stop early, all lines fit. -/
theorem fits_of_scan {limit : Nat} {lines : List Bytes} (hLimit : 0 < limit)
    (hNewline : ∀ line ∈ lines, newline ∉ line)
    (h : (scan limit [] (lines.flatMap (· ++ [newline]))).2 = false) :
    ∀ line ∈ lines, line.length < limit := by
  induction lines with
  | nil => simp
  | cons line lines ih =>
    rw [forall_mem_cons] at hNewline
    rw [flatMap_cons, append_assoc, scan_line [] hNewline.1, nil_append] at h
    have hFits : line.length < limit := by
      by_contra hLong
      rw [scan_outgrown line _ hLimit (Nat.not_lt.mp hLong)] at h
      cases h
    rw [singleton_append, scan, if_pos rfl, if_neg (Nat.not_le.mpr hFits)] at h
    exact forall_mem_cons.mpr ⟨hFits, ih hNewline.2 h⟩

/-- A text of lines that fit is read line by line. -/
theorem scan_lines {limit : Nat} {lines : List Bytes} (hNewline : ∀ line ∈ lines, newline ∉ line)
    (hReturn : ∀ line ∈ lines, carriageReturn ∉ line) (hFits : ∀ line ∈ lines, line.length < limit) :
    scan limit [] (lines.flatMap (· ++ [newline])) = (lines, false) := by
  induction lines with
  | nil => rfl
  | cons line lines ih =>
    rw [forall_mem_cons] at hNewline hReturn hFits
    rw [flatMap_cons, append_assoc, scan_line [] hNewline.1, nil_append,
      singleton_append, scan, if_pos rfl, if_neg (Nat.not_le.mpr hFits.1),
      ih hNewline.2 hReturn.2 hFits.2, dropCR_of_not_mem hReturn.1]

end GoLines
