-- SUMMARY: A counting semaphore and the ids that hold its permits: the balance between them, through acquire and release.
import Mathlib.Data.Nat.Count
import Mathlib.Logic.Function.Basic
import Mathlib.Tactic.Common

/-!
# Permits

A semaphore with `free` permits left, and numbered holders, created in order.
`Balanced` says that every permit is free or with one holder.
-/

namespace Permits

variable {holds holds' : Nat → Bool} {capacity free count i : Nat}

/-- How many of the first `count` ids hold a permit. -/
def held (holds : Nat → Bool) (count : Nat) : Nat := Nat.count (fun i => holds i = true) count

theorem held_succ (holds : Nat → Bool) (count : Nat) :
    held holds (count + 1) = held holds count + if holds count = true then 1 else 0 :=
  Nat.count_succ _ count

theorem held_congr (h : ∀ i < count, holds i = holds' i) : held holds count = held holds' count := by
  refine Nat.le_antisymm (Nat.count_mono_left ?_) (Nat.count_mono_left ?_)
  · intro i hi hholds
    exact (h i hi).symm.trans hholds
  · intro i hi hholds
    exact (h i hi).trans hholds

/-- Below an id that is not counted nothing changes. -/
theorem held_update_of_le (h : count ≤ i) (x : Bool) :
    held (Function.update holds i x) count = held holds count :=
  held_congr fun _ hj => Function.update_of_ne (Nat.ne_of_lt (Nat.lt_of_lt_of_le hj h)) ..

theorem held_release (hi : i < count) (hholds : holds i = true) :
    held (Function.update holds i false) count + 1 = held holds count := by
  induction count with
  | zero => cases hi
  | succ count ih =>
    rw [held_succ, held_succ]
    by_cases heq : i = count
    · subst heq
      rw [held_update_of_le (Nat.le_refl i), Function.update_self, hholds]
      rfl
    · have hrest := ih (by omega)
      rw [Function.update_of_ne (fun h => heq h.symm), ← hrest]
      omega

theorem held_eq_zero (h : ∀ i < count, holds i = false) : held holds count = 0 := by
  refine Nat.count_iff_forall_not.2 ?_
  intro i hi hholds
  cases hholds.symm.trans (h i hi)

/-- Of `capacity` permits `free` are free and each other one is with an id below `count`. -/
structure Balanced (capacity free : Nat) (holds : Nat → Bool) (count : Nat) : Prop where
  fresh : ∀ i, count ≤ i → holds i = false
  balance : free + held holds count = capacity

namespace Balanced

theorem start : Balanced capacity capacity (fun _ => false) 0 := ⟨fun _ _ => rfl, rfl⟩

theorem congr (h : Balanced capacity free holds count) (hsame : ∀ i, holds' i = holds i) :
    Balanced capacity free holds' count := by
  rw [funext hsame]
  exact h

theorem lt (h : Balanced capacity free holds count) (hi : holds i = true) : i < count := by
  by_contra hge
  have hfree := h.fresh i (Nat.le_of_not_lt hge)
  rw [hi] at hfree
  cases hfree

/-- A new id takes a permit. -/
theorem acquire (h : Balanced capacity (free + 1) holds count) :
    Balanced capacity free (Function.update holds count true) (count + 1) := by
  refine ⟨?_, ?_⟩
  · intro i hi
    rw [Function.update_of_ne (by omega)]
    exact h.fresh i (by omega)
  · have hbalance := h.balance
    rw [held_succ, held_update_of_le (Nat.le_refl count), Function.update_self, if_pos rfl]
    omega

theorem release (h : Balanced capacity free holds count) (hi : holds i = true) :
    Balanced capacity (free + 1) (Function.update holds i false) count := by
  refine ⟨?_, ?_⟩
  · intro j hj
    by_cases heq : j = i
    · subst heq
      exact Function.update_self ..
    · rw [Function.update_of_ne heq]
      exact h.fresh j hj
  · have hrest := held_release (h.lt hi) hi
    have hbalance := h.balance
    omega

theorem held_le (h : Balanced capacity free holds count) : held holds count ≤ capacity :=
  Nat.le.intro (Nat.add_comm .. ▸ h.balance)

/-- When nobody holds one all permits are free. -/
theorem all_free (h : Balanced capacity free holds count) (hnone : ∀ i < count, holds i = false) :
    free = capacity := by
  rw [← h.balance, held_eq_zero hnone, Nat.add_zero]

end Balanced

end Permits
