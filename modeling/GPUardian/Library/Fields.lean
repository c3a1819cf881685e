import Mathlib.Data.List.Basic

/-! Texts made of fields with a NUL character between them. Fields without such a character are
determined by the text. -/
namespace GoFields

open List

theorem append_sep_inj {α : Type} {sep : α} {first second rest rest' : List α} (hFirst : sep ∉ first)
    (hSecond : sep ∉ second) (h : first ++ sep :: rest = second ++ sep :: rest') :
    first = second ∧ rest = rest' := by
  induction first generalizing second with
  | nil =>
    cases second with
    | nil => exact ⟨rfl, (cons.inj h).2⟩
    | cons c second =>
      obtain ⟨rfl, _⟩ := cons.inj h
      exact absurd mem_cons_self hSecond
  | cons c first ih =>
    cases second with
    | nil =>
      obtain ⟨rfl, _⟩ := cons.inj h
      exact absurd mem_cons_self hFirst
    | cons d second =>
      obtain ⟨rfl, hTail⟩ := cons.inj h
      rw [mem_cons, not_or] at hFirst hSecond
      obtain ⟨rfl, hRest⟩ := ih hFirst.2 hSecond.2 hTail
      exact ⟨rfl, hRest⟩

/-- A text that can be a field. -/
def Plain (field : String) : Prop := '\x00' ∉ field.toList

instance (field : String) : Decidable (Plain field) := inferInstanceAs (Decidable (_ ∉ _))

theorem field_inj {first second rest rest' : String} (hFirst : Plain first) (hSecond : Plain second)
    (h : first ++ "\x00" ++ rest = second ++ "\x00" ++ rest') : first = second ∧ rest = rest' := by
  have hList := congrArg String.toList h
  simp only [String.toList_append, append_assoc] at hList
  obtain ⟨hSame, hRest⟩ := append_sep_inj hFirst hSecond hList
  exact ⟨String.toList_injective hSame, String.toList_injective hRest⟩

theorem rest_inj {lead rest rest' : String} (h : lead ++ "\x00" ++ rest = lead ++ "\x00" ++ rest') :
    rest = rest' := by
  have hList := congrArg String.toList h
  simp only [String.toList_append, append_cancel_left_eq] at hList
  exact String.toList_injective hList

/-- The last field is not followed by another one. -/
theorem field_ne {last first rest : String} (hLast : Plain last) : last ≠ first ++ "\x00" ++ rest := by
  rintro rfl
  exact hLast (by simp)

theorem isDigit_of_mem_repr {n : Nat} {c : Char} (h : c ∈ n.repr.toList) : c.isDigit = true := by
  rw [Nat.repr_eq_ofList_toDigits, String.toList_ofList] at h
  exact Nat.isDigit_of_mem_toDigits (by decide) (by decide) h

theorem plain_nat (n : Nat) : Plain n.repr := fun hMem =>
  absurd (isDigit_of_mem_repr hMem) (by decide)

theorem plain_int (n : Int) : Plain n.repr := by
  cases n with
  | ofNat n => exact plain_nat n
  | negSucc n =>
    intro hMem
    rw [show (Int.negSucc n).repr = "-" ++ (n + 1).repr from rfl, String.toList_append,
      mem_append] at hMem
    rcases hMem with hSign | hDigits
    · exact absurd hSign (by decide)
    · exact plain_nat _ hDigits

theorem not_mem_nat_repr (n : Nat) : '-' ∉ n.repr.toList := fun hMem =>
  absurd (isDigit_of_mem_repr hMem) (by decide)

theorem nat_repr_inj {m n : Nat} (h : m.repr = n.repr) : m = n := by
  have hDigits := congrArg String.toList h
  simp only [Nat.repr_eq_ofList_toDigits, String.toList_ofList] at hDigits
  simpa using congrArg (fun digits => Nat.ofDigitChars 10 digits 0) hDigits

theorem int_repr_inj {m n : Int} (h : m.repr = n.repr) : m = n := by
  cases m with
  | ofNat m =>
    cases n with
    | ofNat n => rw [nat_repr_inj (show m.repr = n.repr from h)]
    | negSucc n =>
      have hSign : m.repr = "-" ++ (n + 1).repr := h
      exact absurd (by rw [hSign]; simp) (not_mem_nat_repr m)
  | negSucc m =>
    cases n with
    | ofNat n =>
      have hSign : "-" ++ (m + 1).repr = n.repr := h
      exact absurd (by rw [← hSign]; simp) (not_mem_nat_repr n)
    | negSucc n =>
      have hList := congrArg String.toList (show "-" ++ (m + 1).repr = "-" ++ (n + 1).repr from h)
      simp only [String.toList_append, append_cancel_left_eq] at hList
      have hSame := nat_repr_inj (String.toList_injective hList)
      rw [Nat.succ.inj hSame]

end GoFields
