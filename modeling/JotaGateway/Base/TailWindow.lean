-- SUMMARY: The shortest end of a growing list that weighs at least a bound, kept by dropping from its front.
import Mathlib.Algebra.Order.Group.Unbundled.Basic
import Mathlib.Algebra.Order.Group.Defs
import Mathlib.Algebra.BigOperators.Group.List.Basic
import Mathlib.Data.List.Infix

/-!
# Tail windows

Of a list that only grows at its end, keep the shortest suffix that weighs at
least `bound`, or all of it while it weighs less. The weight of the window is
carried along and not summed again.
-/

namespace TailWindow

variable {α β K : Type*} [AddCommGroup K] {weight : α → K} {bound : K}
  {l tail shorter : List α} {x : α}

/-- The weight of a list. -/
def total (weight : α → K) (l : List α) : K := (l.map weight).sum

@[simp] theorem total_nil : total weight [] = 0 := rfl

@[simp] theorem total_cons (x : α) (l : List α) :
    total weight (x :: l) = weight x + total weight l := by
  rw [total, List.map_cons, List.sum_cons, total]

@[simp] theorem total_append (l l' : List α) :
    total weight (l ++ l') = total weight l + total weight l' := by
  rw [total, List.map_append, List.sum_append, total, total]

variable [LinearOrder K]

/-- `tail` is the shortest suffix of `l` that weighs at least `bound`, or all of `l`. -/
structure Shortest (weight : α → K) (bound : K) (l tail : List α) : Prop where
  suffix : tail <:+ l
  enough : bound ≤ total weight tail ∨ tail = l
  least : ∀ shorter, shorter <:+ tail → shorter ≠ tail → total weight shorter < bound

namespace Shortest

theorem nil : Shortest weight bound [] [] :=
  ⟨List.suffix_rfl, .inr rfl, fun _ h hne => absurd (List.suffix_nil.mp h) hne⟩

/-- There is one such window. -/
theorem unique {tail' : List α} (h : Shortest weight bound l tail)
    (h' : Shortest weight bound l tail') : tail = tail' := by
  -- of two windows one is the end of the other, and a proper end does not weigh enough
  have hends : ∀ {t t' : List α}, Shortest weight bound l t → Shortest weight bound l t' →
      t <:+ t' → t = t' := by
    intro t t' ht ht' hle
    by_contra hne
    rcases ht.enough with henough | rfl
    · exact absurd (ht'.least t hle hne) (not_lt.mpr henough)
    · exact hne (hle.eq_of_length_le ht'.suffix.length_le)
  rcases List.suffix_or_suffix_of_suffix h.suffix h'.suffix with hle | hle
  · exact hends h h' hle
  · exact (hends h' h hle).symm

end Shortest

/-- Drops from the front while what is left weighs enough; `sum` is the weight of the list. -/
def trim (weight : α → K) (bound : K) : List α → K → List α × K
  | [], sum => ([], sum)
  | x :: l, sum =>
    if bound ≤ sum - weight x then trim weight bound l (sum - weight x) else (x :: l, sum)

theorem trim_map (f : β → α) (l : List β) (sum : K) :
    trim weight bound (l.map f) sum =
      ((trim (fun y => weight (f y)) bound l sum).1.map f,
        (trim (fun y => weight (f y)) bound l sum).2) := by
  induction l generalizing sum with
  | nil => rfl
  | cons y l ih =>
    simp only [List.map_cons, trim]
    split
    · exact ih _
    · rfl

theorem trim_total (l : List α) :
    (trim weight bound l (total weight l)).2 =
      total weight (trim weight bound l (total weight l)).1 := by
  induction l with
  | nil => rfl
  | cons x l ih =>
    rw [total_cons, trim, add_sub_cancel_left]
    split
    · exact ih
    · rw [total_cons]

theorem trim_suffix (l : List α) (sum : K) : (trim weight bound l sum).1 <:+ l := by
  induction l generalizing sum with
  | nil => exact List.suffix_rfl
  | cons x l ih =>
    rw [trim]
    split
    · exact (ih _).trans (List.suffix_cons x l)
    · exact List.suffix_rfl

/-- What is dropped was not needed. -/
theorem trim_enough (h : bound ≤ total weight l ∨ tail = l) :
    bound ≤ total weight (trim weight bound l (total weight l)).1 ∨
      (trim weight bound l (total weight l)).1 = tail := by
  induction l generalizing tail with
  | nil => exact h.imp_right Eq.symm
  | cons x l ih =>
    rw [total_cons, trim, add_sub_cancel_left]
    split
    · rename_i hrest
      have hsame : bound ≤ total weight l ∨ l = l := .inr rfl
      exact .inl ((ih hsame).elim id fun heq => by rwa [heq])
    · rw [total_cons] at h
      rw [total_cons]
      exact h.imp_right Eq.symm

variable [IsOrderedAddMonoid K]

theorem total_nonneg (hpos : ∀ x, 0 ≤ weight x) (l : List α) : 0 ≤ total weight l := by
  induction l with
  | nil => exact le_rfl
  | cons x l ih =>
    rw [total_cons]
    exact add_nonneg (hpos x) ih

theorem total_mono (hpos : ∀ x, 0 ≤ weight x) (h : shorter <:+ l) :
    total weight shorter ≤ total weight l := by
  obtain ⟨dropped, rfl⟩ := h
  rw [total_append]
  exact le_add_of_nonneg_left (total_nonneg hpos dropped)

/-- Nothing more can be dropped. -/
theorem trim_least (hpos : ∀ x, 0 ≤ weight x) (l : List α)
    (h : shorter <:+ (trim weight bound l (total weight l)).1)
    (hne : shorter ≠ (trim weight bound l (total weight l)).1) : total weight shorter < bound := by
  induction l with
  | nil => exact absurd (List.suffix_nil.mp h) hne
  | cons x l ih =>
    rw [total_cons, trim, add_sub_cancel_left] at h hne
    split at h
    · rename_i hrest
      rw [if_pos hrest] at hne
      exact ih h hne
    · rename_i hrest
      rw [if_neg hrest] at hne
      have hsuffix := (List.suffix_cons_iff.mp h).resolve_left hne
      exact (total_mono hpos hsuffix).trans_lt (not_le.mp hrest)

/-- The list grows by one element: it is added to the window, which is then trimmed. -/
theorem Shortest.concat (hpos : ∀ x, 0 ≤ weight x) (h : Shortest weight bound l tail) (x : α) :
    Shortest weight bound (l ++ [x])
      (trim weight bound (tail ++ [x]) (total weight (tail ++ [x]))).1 := by
  have hgrown : bound ≤ total weight (tail ++ [x]) ∨ l ++ [x] = tail ++ [x] := by
    refine h.enough.imp ?_ fun heq => by rw [heq]
    intro hle
    rw [total_append]
    exact hle.trans (le_add_of_nonneg_right (total_nonneg hpos [x]))
  have hsuffix : tail ++ [x] <:+ l ++ [x] := by
    obtain ⟨dropped, hdropped⟩ := h.suffix
    exact ⟨dropped, by rw [← List.append_assoc, hdropped]⟩
  exact ⟨(trim_suffix _ _).trans hsuffix, trim_enough hgrown, fun _ => trim_least hpos _⟩

end TailWindow
