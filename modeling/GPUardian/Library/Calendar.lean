import Mathlib.Data.List.Forall2
import Mathlib.Data.Set.BooleanAlgebra
import Mathlib.Order.CompletePartialOrder
import Mathlib.Order.Interval.Set.LinearOrder

/-! Bookings of resources over half-open intervals of a linear order. A calendar is
exclusive when no two live slots of one resource share an instant. -/
namespace Calendar

open List

variable {κ τ : Type} [LinearOrder τ]

structure Slot (κ τ : Type) where
  resource : κ
  start : τ
  stop : τ
  live : Bool

def Slot.window (slot : Slot κ τ) : Set τ := Set.Ico slot.start slot.stop

/-- Two slots that may stand in one calendar. -/
def Compatible (a b : Slot κ τ) : Prop :=
  a.resource = b.resource → a.live → b.live → Disjoint a.window b.window

def Exclusive (slots : List (Slot κ τ)) : Prop := slots.Pairwise Compatible

/-- The slot after a change that can end it but neither move nor revive it. -/
structure Ends (before after : Slot κ τ) : Prop where
  resource : after.resource = before.resource
  start : after.start = before.start
  stop : after.stop = before.stop
  live : after.live → before.live

omit [LinearOrder τ] in
theorem Ends.refl (slot : Slot κ τ) : Ends slot slot := ⟨rfl, rfl, rfl, id⟩

theorem Compatible.ends {a b a' b' : Slot κ τ} (h : Compatible a b) (ha : Ends a a')
    (hb : Ends b b') : Compatible a' b' := by
  intro hResource hLiveA hLiveB
  rw [ha.resource, hb.resource] at hResource
  have hDisjoint := h hResource (ha.live hLiveA) (hb.live hLiveB)
  simpa only [Slot.window, ha.start, ha.stop, hb.start, hb.stop] using hDisjoint

/-- Two windows that do not overlap in the sense of the usual two comparisons. -/
theorem disjoint_window {a b : Slot κ τ} (h : ¬ (a.start < b.stop ∧ b.start < a.stop)) :
    Disjoint a.window b.window := by
  rw [Set.disjoint_left]
  intro t hA hB
  exact h ⟨hA.1.trans_lt hB.2, hB.1.trans_lt hA.2⟩

namespace Exclusive

variable {slots more : List (Slot κ τ)}

theorem thin (h : Exclusive slots) (hSub : List.Sublist more slots) : Exclusive more :=
  List.Pairwise.sublist hSub h

/-- Ending slots in place keeps a calendar exclusive. -/
theorem end_slots (h : Exclusive slots) (hEnds : List.Forall₂ Ends slots more) :
    Exclusive more := by
  induction hEnds with
  | nil => exact List.Pairwise.nil
  | @cons a b slots more hHead hTail ih =>
    obtain ⟨hFirst, hRest⟩ := pairwise_cons.mp h
    refine pairwise_cons.mpr ⟨?_, ih hRest⟩
    intro b' hb'
    obtain ⟨a', ha', hEnd⟩ : ∃ a' ∈ slots, Ends a' b' := by
      obtain ⟨i, hi, rfl⟩ := getElem_of_mem hb'
      have hLength := hTail.length_eq
      exact ⟨slots[i], getElem_mem _, hTail.get (by omega) hi⟩
    exact (hFirst a' ha').ends hHead hEnd

/-- New slots on different resources, each clear of the calendar, can be added. -/
theorem book (h : Exclusive slots) (hResources : (more.map (·.resource)).Nodup)
    (hClear : ∀ old ∈ slots, ∀ new ∈ more, Compatible old new) : Exclusive (slots ++ more) := by
  refine pairwise_append.mpr ⟨h, ?_, hClear⟩
  rw [nodup_iff_pairwise_ne, pairwise_map] at hResources
  exact hResources.imp fun hNe hResource => absurd hResource hNe

end Exclusive

end Calendar
