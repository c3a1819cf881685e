import GPUardian.Model.State
import Mathlib.Data.List.TakeWhile
import Mathlib.Logic.Equiv.List
import Mathlib.Tactic.DeriveEncodable

/-! The text form of the state file. The source uses JSON and relies on one fact about
it, that decoding an encoded state returns that state; the encoding itself is a
parameter. A codec of this kind exists for any choice of a few short texts. -/
namespace GPUardian

open GoStrings List

/-- An encoding of states. The text is followed by a newline in the file. -/
structure Codec where
  encode : State → String
  decode : String → Except String State
  decode_encode : ∀ state, decode (encode state ++ "\n") = .ok state
  encode_not_blank : ∀ state, trimSpace (encode state ++ "\n") ≠ ""

section TableCodec

instance encodableChar : Encodable Char := Encodable.ofLeftInverse Char.toNat Char.ofNat Char.ofNat_toNat

instance encodableString : Encodable String :=
  Encodable.ofLeftInverse String.toList String.ofList fun _ => String.ofList_toList

deriving instance Encodable for Token, Reservation, Authorization, SoftClaim, Lease, BypassRule,
  AuditEvent, State

/-- A bracketed number in unary. -/
def numberText (digit : Char) (n : Nat) : String :=
  String.ofList (['['] ++ List.replicate (n + 1) digit ++ [']'])

theorem count_numberText (digit other : Char) (n : Nat) (hOpen : other ≠ '[') (hClose : other ≠ ']')
    (hLine : other ≠ Char.ofNat 10) :
    (numberText digit n ++ "\n").toList.count other = if digit = other then n + 1 else 0 := by
  simp [numberText, count_append, count_replicate, hOpen.symm, hClose.symm, hLine.symm]

theorem numberText_not_blank (digit : Char) (n : Nat) : trimSpace (numberText digit n ++ "\n") ≠ "" := by
  intro hBlank
  have hList := congrArg String.toList hBlank
  simp only [trimSpace, numberText, String.toList_append, String.toList_ofList] at hList
  rw [cons_append, cons_append, cons_append,
    dropWhile_cons_of_neg (by decide)] at hList
  have hEmpty := reverse_eq_nil_iff.mp (hList.trans (by decide))
  rw [dropWhile_eq_nil_iff] at hEmpty
  exact absurd (hEmpty '[' (by simp)) (by decide)

/-- A codec with short texts for the states of a table: a state is written as its place
in the table, or as its number among all states. -/
def tableCodec (table : List State) : Codec where
  encode state :=
    match table.idxOf? state with
    | some i => numberText '1' i
    | none => numberText '0' (Encodable.encode state)
  decode text :=
    match text.toList.count '1' with
    | i + 1 => .ok (table.getD i {})
    | 0 =>
      match Encodable.decode (text.toList.count '0' - 1) with
      | some state => .ok state
      | none => .error "unexpected end of JSON input"
  decode_encode state := by
    cases hIndex : table.idxOf? state with
    | some i =>
      have hGet : table[i]? = some state := by
        obtain ⟨hi, hState, _⟩ := findIdx?_eq_some_iff_getElem.mp hIndex
        rw [getElem?_eq_getElem hi]
        exact congrArg some (beq_iff_eq.mp hState)
      dsimp only
      rw [count_numberText '1' '1' i (by decide) (by decide) (by decide), if_pos rfl]
      simp [hGet]
    | none =>
      dsimp only
      rw [count_numberText '0' '1' _ (by decide) (by decide) (by decide), if_neg (by decide),
        count_numberText '0' '0' _ (by decide) (by decide) (by decide), if_pos rfl]
      simp
  encode_not_blank state := by
    split
    · exact numberText_not_blank _ _
    · exact numberText_not_blank _ _

end TableCodec

end GPUardian
