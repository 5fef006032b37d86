-- SUMMARY: A queue whose end is a marker that consumers put back: one producer, any number of iterations.
import Mathlib.Data.List.ReduceOption
import Mathlib.Tactic.Common

/-!
# Queues with an end marker

A producer puts items and, once, the marker `none`. Who takes the marker puts it
back, so that everyone else ends too.
-/

namespace EndMarked

abbrev Queue (α : Type*) := List (Option α)

variable {α : Type*} {q q' : Queue α} {x : α} {r : Option α} {ended : Bool}

/-- The items in the queue. -/
abbrev items (q : Queue α) : List α := q.reduceOption

def put (q : Queue α) (x : α) : Queue α := q ++ [some x]

def finish (q : Queue α) : Queue α := q ++ [none]

/-- Takes the head, and puts it back if it is the marker. An empty queue blocks. -/
def get : Queue α → Option (Option α × Queue α)
  | [] => none
  | some x :: rest => some (some x, rest)
  | none :: rest => some (none, rest ++ [none])

/-- What up to `n` calls of `get` take. -/
def gets : Nat → Queue α → List (Option α)
  | 0, _ => []
  | n + 1, q =>
    match get q with
    | none => []
    | some (r, q) => r :: gets n q

/-- The marker is behind the items if the queue has ended, and nowhere if it has not. -/
def Marked (ended : Bool) (q : Queue α) : Prop :=
  q = (items q).map some ++ if ended then [none] else []

@[simp] theorem items_put (q : Queue α) (x : α) : items (put q x) = items q ++ [x] := by
  rw [put, items, List.reduceOption_append]
  rfl

@[simp] theorem items_finish (q : Queue α) : items (finish q) = items q := by
  rw [finish, items, List.reduceOption_append]
  exact List.append_nil _

namespace Marked

theorem nil : Marked false ([] : Queue α) := rfl

theorem put (h : Marked false q) (x : α) : Marked false (put q x) := by
  rw [Marked, items_put, List.map_append, List.append_assoc]
  exact congrArg (· ++ [some x]) (h.trans (List.append_nil _))

theorem finish (h : Marked false q) : Marked true (finish q) := by
  rw [Marked, items_finish]
  exact congrArg (· ++ [none]) (h.trans (List.append_nil _))

/-- What there is to take: the first item, else the marker, which stays. -/
theorem get_cases (h : Marked ended q) (hget : get q = some (r, q')) :
    (∃ x, r = some x ∧ items q = x :: items q' ∧ Marked ended q') ∨
      (r = none ∧ items q = [] ∧ q' = q ∧ ended = true) := by
  match q with
  | some x :: rest =>
    cases hget
    refine .inl ⟨x, rfl, List.reduceOption_cons_of_some _ _, ?_⟩
    rw [Marked, items, List.reduceOption_cons_of_some, List.map_cons, List.cons_append] at h
    exact (List.cons.inj h).2
  | none :: rest =>
    cases hget
    have hitems : items (none :: rest) = [] := by
      cases hitems : items (none :: rest) with
      | nil => rfl
      | cons x l =>
        rw [Marked, hitems, List.map_cons, List.cons_append] at h
        cases (List.cons.inj h).1
    rw [Marked, hitems] at h
    cases ended with
    | false => cases h
    | true =>
      obtain ⟨-, rfl⟩ := List.cons.inj h
      exact .inr ⟨rfl, hitems, rfl, rfl⟩

theorem get (h : Marked ended q) (hget : EndMarked.get q = some (r, q')) : Marked ended q' := by
  rcases h.get_cases hget with ⟨x, -, -, hq'⟩ | ⟨-, -, rfl, -⟩
  · exact hq'
  · exact h

/-- An ended queue does not block. -/
theorem get_of_ended (h : Marked true q) :
    (∃ x q', items q = x :: items q' ∧ EndMarked.get q = some (some x, q') ∧ Marked true q') ∨
      (items q = [] ∧ EndMarked.get q = some (none, q)) := by
  cases hget : EndMarked.get q with
  | none =>
    match q with
    | [] => cases h
  | some taken =>
    obtain ⟨r, q'⟩ := taken
    rcases h.get_cases hget with ⟨x, rfl, hitems, hq'⟩ | ⟨rfl, hitems, rfl, -⟩
    · exact .inl ⟨x, q', hitems, rfl, hq'⟩
    · exact .inr ⟨hitems, rfl⟩

/-- From an ended queue come its items, in order, and then only the end. -/
theorem gets_of_ended (h : Marked true q) (n : Nat) :
    gets n q = ((items q).take n).map some ++ List.replicate (n - (items q).length) none := by
  induction n generalizing q with
  | zero => rw [Nat.zero_sub, List.take_zero]; rfl
  | succ n ih =>
    rcases h.get_of_ended with ⟨x, q', hitems, hget, hq'⟩ | ⟨hitems, hget⟩
    · rw [gets, hget, hitems, List.take_succ_cons, List.length_cons, Nat.succ_sub_succ]
      exact congrArg (some x :: ·) (ih hq')
    · have hrest := ih h
      simp only [hitems, List.take_nil, List.map_nil, List.nil_append, List.length_nil,
        Nat.sub_zero] at hrest
      simp only [gets, hget, hitems, hrest, List.take_nil, List.map_nil, List.nil_append,
        List.length_nil, Nat.sub_zero, List.replicate_succ]

end Marked

end EndMarked
