import Mathlib.Data.List.Basic

/-! Interleavings of concurrent steps. A system is a step function; an interleaving is the
list of its steps in the order in which they happen, and a step that is not enabled does
nothing. -/
theorem List.mem_concat {α : Type} {xs : List α} {x y : α} : y ∈ xs ++ [x] ↔ y ∈ xs ∨ y = x := by
  simp

theorem List.forall_mem_concat {α : Type} {p : α → Prop} {xs : List α} {x : α} :
    (∀ y ∈ xs ++ [x], p y) ↔ (∀ y ∈ xs, p y) ∧ p x := by
  simp [or_imp, forall_and]

namespace Interleaving

open List

variable {σ ε : Type} (step : σ → ε → σ)

/-- The state after the events. -/
def run (s : σ) (events : List ε) : σ := events.foldl step s

@[simp]
theorem run_nil (s : σ) : run step s [] = s := rfl

@[simp]
theorem run_cons (s : σ) (event : ε) (events : List ε) :
    run step s (event :: events) = run step (step s event) events := rfl

@[simp]
theorem run_append (s : σ) (first second : List ε) :
    run step s (first ++ second) = run step (run step s first) second :=
  foldl_append

/-- Every event meets a condition in the state it happens in. -/
def Along (ok : σ → ε → Prop) : σ → List ε → Prop
  | _, [] => True
  | s, event :: events => ok s event ∧ Along ok (step s event) events

variable {step} {ok : σ → ε → Prop} {s : σ} {events first second : List ε}

instance Along.decidable [∀ s event, Decidable (ok s event)] :
    ∀ (s : σ) (events : List ε), Decidable (Along step ok s events)
  | _, [] => isTrue trivial
  | s, event :: events =>
    have := Along.decidable (step s event) events
    inferInstanceAs (Decidable (ok s event ∧ Along step ok (step s event) events))

@[simp]
theorem along_append :
    Along step ok s (first ++ second) ↔
      Along step ok s first ∧ Along step ok (run step s first) second := by
  induction first generalizing s with
  | nil => simp [Along]
  | cons event first ih => simp [Along, ih, and_assoc]

theorem Along.imp {ok' : σ → ε → Prop} (hImp : ∀ s event, ok s event → ok' s event)
    (h : Along step ok s events) : Along step ok' s events := by
  induction events generalizing s with
  | nil => trivial
  | cons event events ih => exact ⟨hImp s event h.1, ih h.2⟩

theorem Along.of_forall (h : ∀ event ∈ events, ∀ s, ok s event) (s : σ) : Along step ok s events := by
  induction events generalizing s with
  | nil => trivial
  | cons event events ih =>
    rw [forall_mem_cons] at h
    exact ⟨h.1 s, ih h.2 _⟩

theorem Along.and {ok' : σ → ε → Prop} (h : Along step ok s events)
    (h' : Along step ok' s events) :
    Along step (fun s event => ok s event ∧ ok' s event) s events := by
  induction events generalizing s with
  | nil => trivial
  | cons event events ih => exact ⟨⟨h.1, h'.1⟩, ih h.2 h'.2⟩

/-- A property that every admitted step keeps holds after all of them. -/
theorem Along.invariant (Inv : σ → Prop)
    (hStep : ∀ s event, ok s event → Inv s → Inv (step s event)) (h : Along step ok s events)
    (hInv : Inv s) : Inv (run step s events) := by
  induction events generalizing s with
  | nil => exact hInv
  | cons event events ih => exact ih h.2 (hStep s event h.1 hInv)

/-- A preorder that every admitted step respects relates the first and the last state. -/
theorem Along.relates {Inv : σ → Prop} (R : σ → σ → Prop) (hRefl : ∀ s, R s s)
    (hTrans : ∀ a b c, R a b → R b c → R a c)
    (hStep : ∀ s event, ok s event → Inv s → Inv (step s event))
    (hRel : ∀ s event, ok s event → Inv s → R s (step s event))
    (h : Along step ok s events) (hInv : Inv s) : R s (run step s events) := by
  induction events generalizing s with
  | nil => exact hRefl s
  | cons event events ih =>
    exact hTrans _ _ _ (hRel s event h.1 hInv) (ih h.2 (hStep s event h.1 hInv))

section Loops

variable {R : σ → σ → Prop} {I : σ → Prop} {items : List ε} {s' : σ}

/-- A sequence of two calls that succeeds. -/
theorem bind_ok {μ α β : Type} {first : Except μ α} {next : α → Except μ β} {b : β}
    (h : (first >>= next) = .ok b) : ∃ a, first = .ok a ∧ next a = .ok b := by
  cases first with
  | error message => cases h
  | ok a => exact ⟨a, rfl, h⟩

/-- What every turn of a loop keeps and relates, the loop keeps and relates. -/
theorem foldl_relates {f : σ → ε → σ} (hRefl : ∀ s, R s s)
    (hTrans : ∀ a b c, R a b → R b c → R a c)
    (hTurn : ∀ s, ∀ item ∈ items, I s → R s (f s item) ∧ I (f s item)) (hStart : I s) :
    R s (items.foldl f s) ∧ I (items.foldl f s) := by
  induction items generalizing s with
  | nil => exact ⟨hRefl s, hStart⟩
  | cons item items ih =>
    obtain ⟨hFirst, hNext⟩ := hTurn s item mem_cons_self hStart
    obtain ⟨hRest, hLast⟩ :=
      ih (fun s other hOther => hTurn s other (mem_cons_of_mem _ hOther)) hNext
    exact ⟨hTrans _ _ _ hFirst hRest, hLast⟩

/-- The same for a loop that may fail, if it does not. -/
theorem foldlM_relates {μ : Type} {f : σ → ε → Except μ σ} (hRefl : ∀ s, R s s)
    (hTrans : ∀ a b c, R a b → R b c → R a c)
    (hTurn : ∀ s, ∀ item ∈ items, ∀ t, I s → f s item = .ok t → R s t ∧ I t) (hStart : I s)
    (h : items.foldlM f s = .ok s') : R s s' ∧ I s' := by
  induction items generalizing s with
  | nil =>
    cases h
    exact ⟨hRefl _, hStart⟩
  | cons item items ih =>
    rw [foldlM_cons] at h
    obtain ⟨next, hItem, hItems⟩ := bind_ok h
    obtain ⟨hFirst, hNext⟩ := hTurn s item mem_cons_self next hStart hItem
    obtain ⟨hRest, hLast⟩ :=
      ih (fun s other hOther => hTurn s other (mem_cons_of_mem _ hOther)) hNext hItems
    exact ⟨hTrans _ _ _ hFirst hRest, hLast⟩

end Loops

end Interleaving
