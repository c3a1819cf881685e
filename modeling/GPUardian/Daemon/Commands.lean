import Mathlib.Data.List.Basic
import Mathlib.Algebra.Order.Group.Nat

/-! The command of a job as it is reported. Arguments are bytes; those that are not UTF-8 are
replaced, and the last one that has room is cut at a character. -/
namespace GPUardian

open List

abbrev Argument := List UInt8

/-- `utf8.DecodeRuneInString`, without a rune where it answers `RuneError` of width one. -/
def decodeRune (bytes : Argument) : Option Char := bytes.toByteArray.utf8DecodeChar? 0

/-- `utf8.ValidString`. -/
def validString (bytes : Argument) : Bool := bytes.toByteArray.validateUTF8

/-- The loop of `strings.ToValidUTF8`: the next bytes belong to a rune that is copied, and the last
byte before it was invalid. -/
def toValidFrom (replacement : Argument) : Nat → Bool → Argument → Argument
  | _, _, [] => []
  | copied + 1, invalid, byte :: rest => byte :: toValidFrom replacement copied invalid rest
  | 0, invalid, byte :: rest =>
    match decodeRune (byte :: rest) with
    | some rune => byte :: toValidFrom replacement (rune.utf8Size - 1) false rest
    | none => (if invalid then [] else replacement) ++ toValidFrom replacement 0 true rest

/-- `strings.ToValidUTF8(argument, "?")`. -/
def toValidUTF8 (argument : Argument) : Argument := toValidFrom [63] 0 false argument

/-- The first bytes of an argument, less those that would leave a rune incomplete. -/
def cutArgument (argument : Argument) : Nat → Argument
  | 0 => []
  | size + 1 =>
    if validString (argument.take (size + 1)) then argument.take (size + 1)
    else cutArgument argument size

def boundedArgument (remaining : Nat) (argument : Argument) : Argument :=
  let argument := toValidUTF8 argument
  if remaining < argument.length then cutArgument argument remaining else argument

/-- The loop, with the arguments and the bytes that still have room. -/
def boundedFrom : Nat → Nat → List Argument → List Argument
  | slots + 1, remaining + 1, argument :: command =>
    boundedArgument (remaining + 1) argument ::
      boundedFrom slots (remaining + 1 - (boundedArgument (remaining + 1) argument).length) command
  | _, _, _ => []

def boundedTelemetryCommand (command : List Argument) : List Argument :=
  boundedFrom 128 (16 * 1024) command

/-- The arguments are those given, but the last may be cut. -/
def ReportsArguments : List Argument → List Argument → Prop
  | _, [] => True
  | [], _ :: _ => False
  | given :: command, argument :: reported =>
    (argument = toValidUTF8 given ∨ argument <+: toValidUTF8 given ∧ reported = []) ∧
      ReportsArguments command reported

structure KeepsArguments (command reported : List Argument) : Prop where
  arguments : reported.length ≤ 128
  bytes : reported.flatten.length ≤ 16384
  valid : ∀ argument ∈ reported, validString argument = true
  given : ReportsArguments command reported

/-- The argument that does not fit is cut at a character, or no other could be reported after it. -/
def CutsAtCharacter : Nat → Nat → List Argument → Prop
  | slots + 1, remaining + 1, argument :: command =>
    if (toValidUTF8 argument).length ≤ remaining + 1 then
      CutsAtCharacter slots (remaining + 1 - (toValidUTF8 argument).length) command
    else validString ((toValidUTF8 argument).take (remaining + 1)) = true ∨ slots = 0 ∨ command = []
  | _, _, _ => True

theorem validString_iff {bytes : Argument} :
    validString bytes = true ↔ bytes.toByteArray.IsValidUTF8 :=
  ByteArray.validateUTF8_eq_true_iff

theorem validString_append {first second : Argument} (h : validString first = true)
    (h' : validString second = true) : validString (first ++ second) = true := by
  rw [validString_iff, toByteArray_append]
  exact (validString_iff.mp h).append (validString_iff.mp h')

theorem decodeRune_some {bytes : Argument} {rune : Char} (h : decodeRune bytes = some rune) :
    ∃ rest, bytes = String.utf8EncodeChar rune ++ rest := by
  obtain ⟨rest, hRest⟩ := ByteArray.exists_of_utf8DecodeChar?_eq_some h
  refine ⟨rest.data.toList, toByteArray_inj.mp ?_⟩
  rw [hRest, toByteArray_append]
  congr 1
  ext1
  simp

/-- A rune is copied, and what follows it is read from its beginning. -/
theorem toValidFrom_rune (replacement : Argument) (invalid : Bool) (rune : Char) (rest : Argument) :
    toValidFrom replacement 0 invalid (String.utf8EncodeChar rune ++ rest) =
      String.utf8EncodeChar rune ++ toValidFrom replacement 0 false rest := by
  have hCopy : ∀ copied : Argument, toValidFrom replacement copied.length false (copied ++ rest) =
      copied ++ toValidFrom replacement 0 false rest := by
    intro copied
    induction copied with
    | nil => rfl
    | cons byte copied ih => simp [toValidFrom, ih]
  have hRune : decodeRune (String.utf8EncodeChar rune ++ rest) = some rune := by
    rw [decodeRune, toByteArray_append]
    exact ByteArray.utf8DecodeChar?_utf8EncodeChar_append
  have hSize := String.length_utf8EncodeChar rune
  cases hBytes : String.utf8EncodeChar rune with
  | nil => simp [hBytes, rune.utf8Size_pos.ne] at hSize
  | cons byte copied =>
    rw [hBytes] at hRune hSize
    rw [cons_append] at hRune ⊢
    simp [toValidFrom, hRune, ← hCopy, ← hSize]

theorem toValidFrom_valid {replacement : Argument} (hReplacement : validString replacement = true)
    (invalid : Bool) (bytes : Argument) :
    validString (toValidFrom replacement 0 invalid bytes) = true := by
  induction hSize : bytes.length using Nat.strong_induction_on generalizing bytes invalid with
  | _ size ih =>
    subst hSize
    cases bytes with
    | nil => rfl
    | cons byte rest =>
      cases hRune : decodeRune (byte :: rest) with
      | none =>
        rw [toValidFrom, hRune]
        refine validString_append ?_ (ih _ (by simp) true rest rfl)
        split
        · rfl
        · exact hReplacement
      | some rune =>
        obtain ⟨after, hAfter⟩ := decodeRune_some hRune
        rw [hAfter, toValidFrom_rune]
        refine validString_append ?_ (ih _ ?_ false after rfl)
        · exact validString_iff.mpr ⟨[rune], by rw [utf8Encode_singleton]⟩
        · simp [hAfter, rune.utf8Size_pos]

/-- An argument is cut to the most bytes that are whole characters. -/
theorem cutArgument_spec (argument : Argument) (size : Nat) :
    ∃ n ≤ size, cutArgument argument size = argument.take n ∧
      validString (argument.take n) = true ∧ (validString (argument.take size) = true → n = size) := by
  induction size with
  | zero => exact ⟨0, le_rfl, rfl, rfl, fun _ => rfl⟩
  | succ size ih =>
    rw [cutArgument]
    split
    · rename_i hValid
      exact ⟨size + 1, le_rfl, rfl, hValid, fun _ => rfl⟩
    · rename_i hInvalid
      obtain ⟨n, hLe, hCut, hValid, _⟩ := ih
      exact ⟨n, by omega, hCut, hValid, fun h => absurd h hInvalid⟩

/-- What is reported of an argument. -/
theorem boundedArgument_spec (remaining : Nat) (argument : Argument) :
    validString (boundedArgument remaining argument) = true ∧
    boundedArgument remaining argument <+: toValidUTF8 argument ∧
    (boundedArgument remaining argument).length ≤ remaining ∧
    ((toValidUTF8 argument).length ≤ remaining →
      boundedArgument remaining argument = toValidUTF8 argument) ∧
    (remaining < (toValidUTF8 argument).length →
      ((boundedArgument remaining argument).length = remaining ↔
        validString ((toValidUTF8 argument).take remaining) = true)) := by
  have hValid : validString (toValidUTF8 argument) = true := toValidFrom_valid rfl false argument
  unfold boundedArgument
  dsimp only
  split
  · rename_i hLong
    obtain ⟨n, hLe, hCut, hWhole, hAll⟩ := cutArgument_spec (toValidUTF8 argument) remaining
    have hLength : ((toValidUTF8 argument).take n).length = n := length_take_of_le (by omega)
    rw [hCut, hLength]
    refine ⟨hWhole, take_prefix _ _, hLe, by omega, fun _ => ⟨?_, hAll⟩⟩
    rintro rfl
    exact hWhole
  · rename_i hShort
    exact ⟨hValid, prefix_rfl, by omega, fun _ => rfl, fun h => absurd h hShort⟩

theorem boundedFrom_bounds (slots remaining : Nat) (command : List Argument) :
    (boundedFrom slots remaining command).length ≤ slots ∧
    (boundedFrom slots remaining command).flatten.length ≤ remaining ∧
    ∀ argument ∈ boundedFrom slots remaining command, validString argument = true := by
  fun_induction boundedFrom slots remaining command with
  | case1 slots remaining given command ih =>
    obtain ⟨hSlots, hBytes, hValid⟩ := ih
    obtain ⟨hArgument, _, hLength, _⟩ := boundedArgument_spec (remaining + 1) given
    simp only [length_cons, flatten_cons, length_append]
    exact ⟨by omega, by omega, forall_mem_cons.mpr ⟨hArgument, hValid⟩⟩
  | case2 => simp

theorem boundedFrom_eq_nil {slots remaining : Nat} {command : List Argument} :
    boundedFrom slots remaining command = [] ↔ slots = 0 ∨ remaining = 0 ∨ command = [] := by
  cases slots <;> cases remaining <;> cases command <;> simp [boundedFrom]

theorem boundedFrom_reports_iff (slots remaining : Nat) (command : List Argument) :
    ReportsArguments command (boundedFrom slots remaining command) ↔
      CutsAtCharacter slots remaining command := by
  fun_induction boundedFrom slots remaining command with
  | case1 slots remaining given command ih =>
    obtain ⟨_, hPrefix, hLength, hFits, hCut⟩ := boundedArgument_spec (remaining + 1) given
    rw [ReportsArguments, CutsAtCharacter]
    split
    · rename_i hShort
      rw [hFits hShort] at ih ⊢
      simp [ih]
    · rename_i hLong
      have hOther : boundedArgument (remaining + 1) given ≠ toValidUTF8 given := by
        intro h
        rw [h] at hLength
        exact hLong hLength
      have hFull : remaining + 1 - (boundedArgument (remaining + 1) given).length = 0 ↔
          validString ((toValidUTF8 given).take (remaining + 1)) = true := by
        rw [← hCut (by omega)]
        omega
      rw [← hFull, or_left_comm, ← boundedFrom_eq_nil]
      constructor
      · rintro ⟨hEqual | ⟨_, hRest⟩, _⟩
        · exact absurd hEqual hOther
        · exact hRest
      · intro hRest
        simp [hRest, hPrefix, ReportsArguments]
  | case2 => simp [ReportsArguments, CutsAtCharacter]

theorem boundedTelemetryCommand_keeps_iff (command : List Argument) :
    KeepsArguments command (boundedTelemetryCommand command) ↔
      CutsAtCharacter 128 (16 * 1024) command := by
  obtain ⟨hArguments, hBytes, hValid⟩ := boundedFrom_bounds 128 (16 * 1024) command
  rw [← boundedFrom_reports_iff]
  exact ⟨fun h => h.given, fun h => ⟨hArguments, hBytes, hValid, h⟩⟩

/-- One byte remains where an `é` had to be left out, and the next argument takes it. -/
theorem argument_follows_cut :
    ¬ ∀ command, KeepsArguments command (boundedTelemetryCommand command) := by
  intro h
  have hText : ∀ n, toValidUTF8 (replicate n 120) = replicate n 120 := by
    intro n
    induction n with
    | zero => rfl
    | succ n ih =>
      rw [replicate_succ]
      exact (toValidFrom_rune _ _ 'x' _).trans (congrArg (120 :: ·) ih)
  obtain ⟨long, hLong, hSize⟩ : ∃ long, toValidUTF8 long = long ∧ long.length = 16383 :=
    ⟨replicate 16383 120, hText 16383, length_replicate⟩
  have hChar : toValidUTF8 [195, 169] = [195, 169] := toValidFrom_rune [63] false 'é' []
  have hCuts := (h [long, [195, 169], [98]]).given
  rw [boundedTelemetryCommand, boundedFrom_reports_iff] at hCuts
  simp [CutsAtCharacter, hLong, hSize, hChar, show validString [195] = false by decide +kernel]
    at hCuts

end GPUardian
