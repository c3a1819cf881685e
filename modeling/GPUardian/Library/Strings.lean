import Mathlib.Data.List.Infix

/-! The part of Go's `strings` and `path` packages that programs over identifiers
use. Text is a Lean `String`, so every value is valid UTF-8. The Unicode tables are
not reproduced: they are a parameter of everything that folds case or quotes. -/
namespace GoStrings

open List

/-- A property of the characters of a text is decided over the text, not over all characters. -/
instance (priority := high) decidableForallChar {p : Char → Prop} [DecidablePred p] (text : List Char) :
    Decidable (∀ c ∈ text, p c) := List.decidableBAll p text

/-- Unicode tables. `lower` is `unicode.ToLower`, `fold` picks one representative of
each orbit of `unicode.SimpleFold`, and `isPrint` is `strconv.IsPrint`. -/
class Unicode where
  lower : Char → Char
  fold : Char → Char
  isPrint : Char → Bool

/-- Small letters of ASCII are in lower case. -/
def Unicode.KeepsSmall [Unicode] : Prop := ∀ c : Char, c.isLower → Unicode.lower c = c

def Unicode.LowersOnce [Unicode] : Prop := ∀ c, Unicode.lower (Unicode.lower c) = Unicode.lower c

/-- The tables restricted to ASCII. -/
@[reducible]
def ascii : Unicode where
  lower := Char.toLower
  fold := Char.toLower
  isPrint c := 0x20 ≤ c.toNat && c.toNat < 0x7f

/-- Capital letters move up by 32, and nothing else moves. -/
theorem ascii_lower_cases (c : Char) :
    (65 ≤ c.toNat ∧ c.toNat ≤ 90 ∧ (ascii.lower c).toNat = c.toNat + 32) ∨
      ¬ (65 ≤ c.toNat ∧ c.toNat ≤ 90) ∧ ascii.lower c = c := by
  have hRange : c.val ≥ 'A'.val ∧ c.val ≤ 'Z'.val ↔ 65 ≤ c.toNat ∧ c.toNat ≤ 90 :=
    and_congr UInt32.le_iff_toNat_le UInt32.le_iff_toNat_le
  by_cases hUpper : c.val ≥ 'A'.val ∧ c.val ≤ 'Z'.val
  · obtain ⟨hLow, hHigh⟩ := hRange.mp hUpper
    refine .inl ⟨hLow, hHigh, ?_⟩
    have hMoved : (ascii.lower c).val = c.val + ('a'.val - 'A'.val) :=
      congrArg Char.val (dif_pos hUpper)
    show (ascii.lower c).val.toNat = c.val.toNat + 32
    have hGap : ('a'.val - 'A'.val).toNat = 32 := rfl
    have hCode : c.val.toNat ≤ 90 := hHigh
    rw [hMoved, UInt32.toNat_add, hGap]
    omega
  · exact .inr ⟨mt hRange.mpr hUpper, dif_neg hUpper⟩

theorem ascii_lower_lower (c : Char) : ascii.lower (ascii.lower c) = ascii.lower c := by
  rcases ascii_lower_cases c with ⟨hLow, hHigh, hMoved⟩ | ⟨_, hSame⟩
  · rcases ascii_lower_cases (ascii.lower c) with hAgain | ⟨_, hSame⟩
    · omega
    · exact hSame
  · rw [hSame, hSame]

theorem ascii_lower_of_isLower (c : Char) (h : c.isLower) : ascii.lower c = c := by
  rcases ascii_lower_cases c with ⟨_, hHigh, _⟩ | ⟨_, hSame⟩
  · have hLow := UInt32.le_iff_toNat_le.mp (of_decide_eq_true (Bool.and_eq_true_iff.mp h).1)
    exact absurd (hLow.trans hHigh) (by decide)
  · exact hSame

/-- `unicode.IsSpace`. -/
def isSpace (c : Char) : Bool :=
  let n := c.toNat
  (0x09 ≤ n && n ≤ 0x0d) || n == 0x20 || n == 0x85 || n == 0xa0 || n == 0x1680 ||
    (0x2000 ≤ n && n ≤ 0x200a) || n == 0x2028 || n == 0x2029 || n == 0x202f ||
    n == 0x205f || n == 0x3000

theorem ascii_isSpace_lower (c : Char) : isSpace (ascii.lower c) = isSpace c := by
  rcases ascii_lower_cases c with ⟨hLow, hHigh, hMoved⟩ | ⟨_, hSame⟩
  · have hVisible : ∀ d : Char, 65 ≤ d.toNat → d.toNat ≤ 122 → isSpace d = false := by
      intro d _ _
      simp only [isSpace, Bool.or_eq_false_iff, Bool.and_eq_false_iff, decide_eq_false_iff_not,
        beq_eq_false_iff_ne]
      omega
    rw [hVisible _ (by omega) (by omega), hVisible c hLow (by omega)]
  · rw [hSame]

/-- `strings.TrimSpace`. -/
def trimSpace (s : String) : String :=
  String.ofList ((s.toList.dropWhile isSpace).reverse.dropWhile isSpace).reverse

theorem trimSpace_of_forall {s : String} (h : ∀ c ∈ s.toList, isSpace c = false) :
    trimSpace s = s := by
  have hKeep : ∀ cs : List Char, (∀ c ∈ cs, isSpace c = false) → cs.dropWhile isSpace = cs := by
    intro cs hAll
    cases cs with
    | nil => rfl
    | cons c rest => rw [dropWhile_cons_of_neg (by rw [hAll c mem_cons_self]; simp)]
  rw [trimSpace, hKeep _ h, hKeep _ (by simpa using h), reverse_reverse, String.ofList_toList]

/-- A list whose first symbol stays begins where it began. -/
theorem dropWhile_of_head {p : Char → Bool} {cs : List Char}
    (h : ∀ c, cs.head? = some c → p c = false) : cs.dropWhile p = cs := by
  cases cs with
  | nil => rfl
  | cons c rest => exact dropWhile_cons_of_neg (by rw [h c rfl]; exact Bool.false_ne_true)

theorem head?_dropWhile {p : Char → Bool} (cs : List Char) {c : Char}
    (h : (cs.dropWhile p).head? = some c) : p c = false := by
  have hNot := head?_dropWhile_not p cs
  rw [h] at hNot
  exact hNot

theorem trimSpace_trimSpace (s : String) : trimSpace (trimSpace s) = trimSpace s := by
  obtain ⟨lead, hLead⟩ : ∃ lead, lead = s.toList.dropWhile isSpace := ⟨_, rfl⟩
  obtain ⟨kept, hKept⟩ : ∃ kept, kept = (lead.reverse.dropWhile isSpace).reverse := ⟨_, rfl⟩
  have hTail : kept.reverse.dropWhile isSpace = kept.reverse := by
    refine dropWhile_of_head fun c hc => head?_dropWhile lead.reverse ?_
    rwa [hKept, reverse_reverse] at hc
  have hHead : kept.dropWhile isSpace = kept := by
    refine dropWhile_of_head fun c hc => head?_dropWhile s.toList ?_
    -- What is cut off at the end leaves the beginning as it is.
    have hPrefix : kept <+: lead := by
      rw [hKept, ← reverse_suffix, reverse_reverse]
      exact dropWhile_suffix isSpace
    obtain ⟨rest, hRest⟩ := hPrefix
    rw [← hLead, ← hRest, head?_append, hc]
    rfl
  rw [trimSpace, trimSpace, String.toList_ofList, ← hLead, ← hKept, hHead, hTail,
    reverse_reverse]

/-- `strings.ToLower`. -/
def toLower [Unicode] (s : String) : String :=
  String.ofList (s.toList.map Unicode.lower)

theorem toLower_ne_empty [Unicode] {s : String} (h : s ≠ "") : toLower s ≠ "" := by
  intro hEmpty
  have hList := congrArg String.toList hEmpty
  simp only [toLower, String.toList_ofList, String.toList_empty, map_eq_nil_iff] at hList
  exact h (String.toList_eq_nil_iff.mp hList)

theorem trimSpace_toLower [Unicode] (hSpace : ∀ c, isSpace (Unicode.lower c) = isSpace c)
    (s : String) : trimSpace (toLower s) = toLower (trimSpace s) := by
  have hDrop : ∀ cs : List Char, (cs.map Unicode.lower).dropWhile isSpace =
      (cs.dropWhile isSpace).map Unicode.lower := by
    intro cs
    rw [dropWhile_map]
    congr 2
    exact funext hSpace
  simp only [trimSpace, toLower, String.toList_ofList, hDrop, ← map_reverse]

theorem toLower_of_forall [Unicode] {s : String} (h : ∀ c ∈ s.toList, Unicode.lower c = c) :
    toLower s = s := by
  rw [toLower, map_congr_left h, map_id', String.ofList_toList]

theorem toLower_toLower [Unicode]
    (hLower : Unicode.LowersOnce) (s : String) :
    toLower (toLower s) = toLower s := by
  rw [toLower, toLower, String.toList_ofList, map_map]
  exact congrArg String.ofList (map_congr_left fun c _ => hLower c)

/-- `strings.EqualFold`. -/
def equalFold [Unicode] (s t : String) : Bool :=
  s.toList.map Unicode.fold == t.toList.map Unicode.fold

/-- `len` of a Go string: its UTF-8 byte count. -/
def byteLen (s : String) : Nat := s.utf8ByteSize

/-- The lowest `width` hexadecimal digits of a code point. -/
def hexDigits : Nat → Nat → List Char
  | 0, _ => []
  | width + 1, n => hexDigits width (n / 16) ++ [Nat.digitChar (n % 16)]

/-- One symbol inside a `%q` text. -/
def quoteChar [Unicode] (c : Char) : List Char :=
  let n := c.toNat
  if n = 0x22 ∨ n = 0x5c then [Char.ofNat 0x5c, c]
  else if Unicode.isPrint c then [c]
  else match n with
    | 0x07 => [Char.ofNat 0x5c, 'a']
    | 0x08 => [Char.ofNat 0x5c, 'b']
    | 0x0c => [Char.ofNat 0x5c, 'f']
    | 0x0a => [Char.ofNat 0x5c, 'n']
    | 0x0d => [Char.ofNat 0x5c, 'r']
    | 0x09 => [Char.ofNat 0x5c, 't']
    | 0x0b => [Char.ofNat 0x5c, 'v']
    | _ =>
      if n < 0x20 ∨ n = 0x7f then [Char.ofNat 0x5c, 'x'] ++ hexDigits 2 n
      else if n < 0x10000 then [Char.ofNat 0x5c, 'u'] ++ hexDigits 4 n
      else [Char.ofNat 0x5c, 'U'] ++ hexDigits 8 n

/-- The `%q` format of a string. -/
def quote [Unicode] (s : String) : String :=
  String.ofList ([Char.ofNat 0x22] ++ s.toList.flatMap quoteChar ++ [Char.ofNat 0x22])

def hasPrefix (s lead : String) : Bool := lead.toList.isPrefixOf s.toList

section Lists

variable {α : Type} [DecidableEq α]

/-- Offset of the first occurrence of `part`, as `strings.Index` finds it. -/
def index? (part : List α) : List α → Option Nat
  | [] => if part = [] then some 0 else none
  | value@(_ :: rest) =>
    if part.isPrefixOf value then some 0 else (index? part rest).map (· + 1)

/-- `strings.Split` at a one-symbol separator: always at least one part. -/
def splitAt (sep : α) : List α → List (List α)
  | [] => [[]]
  | x :: rest =>
    if x = sep then [] :: splitAt sep rest
    else match splitAt sep rest with
      | [] => [[x]]
      | part :: parts => (x :: part) :: parts

/-- `strings.SplitN` at a one-symbol separator into at most `n + 1` parts. -/
def splitAtMost (sep : α) : Nat → List α → List (List α)
  | 0, value => [value]
  | _ + 1, [] => [[]]
  | n + 1, x :: rest =>
    if x = sep then [] :: splitAtMost sep n rest
    else match splitAtMost sep (n + 1) rest with
      | [] => [[x]]
      | part :: parts => (x :: part) :: parts

end Lists

/-- Lexical elimination of empty, `.` and `..` components below the root. The
accumulator holds the kept components in reverse. -/
def cleanComponents : List (List Char) → List (List Char) → List (List Char)
  | kept, [] => kept.reverse
  | kept, part :: rest =>
    if part = [] ∨ part = ['.'] then cleanComponents kept rest
    else if part = ['.', '.'] then cleanComponents kept.tail rest
    else cleanComponents (part :: kept) rest

/-- `path.Clean` of a path that starts with a slash. -/
def cleanRooted (value : String) : String :=
  String.ofList ('/' :: ['/'].intercalate (cleanComponents [] (splitAt '/' value.toList)))

/-- Lower-case hexadecimal digits, as `hex.DecodeString` accepts them after
`strings.ToLower`. -/
def isHexDigit (c : Char) : Bool :=
  ('0' ≤ c && c ≤ '9') || ('a' ≤ c && c ≤ 'f') || ('A' ≤ c && c ≤ 'F')

/-- A hexadecimal digit is no white space. -/
theorem isSpace_of_isHexDigit {c : Char} (h : isHexDigit c = true) : isSpace c = false := by
  have hRange : (48 ≤ c.toNat ∧ c.toNat ≤ 57) ∨ (97 ≤ c.toNat ∧ c.toNat ≤ 102) ∨
      (65 ≤ c.toNat ∧ c.toNat ≤ 70) := by
    simp only [isHexDigit, Bool.or_eq_true, Bool.and_eq_true, decide_eq_true_eq, Char.le_def,
      UInt32.le_iff_toNat_le] at h
    rcases h with (h | h) | h
    · exact .inl h
    · exact .inr (.inl h)
    · exact .inr (.inr h)
  simp only [isSpace, Bool.or_eq_false_iff, Bool.and_eq_false_iff, decide_eq_false_iff_not,
    beq_eq_false_iff_ne]
  omega

end GoStrings
