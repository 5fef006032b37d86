-- SUMMARY: A bounded FIFO queue as a list: plain put, and a put that evicts the oldest entries when full.
import Mathlib.Data.List.Basic
import Mathlib.Tactic.Common

/-!
# Bounded queues

The entries of a bounded queue, oldest first. A `maxsize` of 0 means no bound,
as in `asyncio.Queue`.
-/

namespace BoundedQueue

variable {α : Type*} {maxsize : Nat} {items : List α} {x : α}

def full (maxsize : Nat) (items : List α) : Bool := 0 < maxsize && maxsize ≤ items.length

/-- Put at the end; `none` is `QueueFull`. -/
def putNowait (maxsize : Nat) (items : List α) (x : α) : Option (List α) :=
  if full maxsize items then none else some (items ++ [x])

/-- Put even if the queue is full, discarding the oldest entries. -/
def forcePut (maxsize : Nat) : List α → α → List α
  | [], x => [x]
  | y :: rest, x =>
    if full maxsize (y :: rest) then forcePut maxsize rest x else y :: rest ++ [x]

theorem full_eq_true : full maxsize items = true ↔ 0 < maxsize ∧ maxsize ≤ items.length := by
  simp [full]

theorem putNowait_eq_none : putNowait maxsize items x = none ↔ full maxsize items = true := by
  simp [putNowait]

theorem putNowait_eq_some {items' : List α} (h : putNowait maxsize items x = some items') :
    full maxsize items = false ∧ items' = items ++ [x] := by
  simp only [putNowait] at h
  split at h <;> simp_all

/-- A plain put keeps the bound. -/
theorem putNowait_length {items' : List α} (hmax : 0 < maxsize)
    (h : putNowait maxsize items x = some items') : items'.length ≤ maxsize := by
  obtain ⟨hfull, rfl⟩ := putNowait_eq_some h
  simp only [full, hmax, decide_true, Bool.true_and, decide_eq_false_iff_not] at hfull
  simp
  omega

theorem forcePut_of_not_full (h : full maxsize items = false) :
    forcePut maxsize items x = items ++ [x] := by
  cases items with
  | nil => rfl
  | cons y rest => simp [forcePut, h]

/-- On a queue that keeps its bound, a forced put evicts at most the oldest entry. -/
theorem forcePut_of_full (hlen : items.length ≤ maxsize) (h : full maxsize items = true) :
    forcePut maxsize items x = items.tail ++ [x] := by
  obtain ⟨hmax, hle⟩ := full_eq_true.mp h
  cases items with
  | nil => simp only [List.length_nil] at hle; omega
  | cons y rest =>
    have hrest : full maxsize rest = false := by
      simp only [full, List.length_cons] at hlen ⊢
      simp
      omega
    simp only [forcePut, h, if_true, List.tail_cons]
    exact forcePut_of_not_full hrest

/-- A forced put leaves its entry last. -/
theorem forcePut_getLast (items : List α) : (forcePut maxsize items x).getLast? = some x := by
  induction items with
  | nil => rfl
  | cons y rest ih =>
    simp only [forcePut]
    split
    · exact ih
    · exact List.getLast?_concat

/-- What a forced put keeps was already in the queue. -/
theorem mem_forcePut {y : α} (h : y ∈ forcePut maxsize items x) : y ∈ items ∨ y = x := by
  induction items with
  | nil => right; simpa [forcePut] using h
  | cons z rest ih =>
    simp only [forcePut] at h
    split at h
    · exact (ih h).imp_left (List.mem_cons_of_mem z)
    · rcases List.mem_append.mp h with h | h
      · exact .inl h
      · exact .inr (List.mem_singleton.mp h)

end BoundedQueue
