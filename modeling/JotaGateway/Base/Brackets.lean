-- SUMMARY: Logs in which intervals open and close one at a time, each under a new and greater name.
import Mathlib.Data.List.Sort
import Mathlib.Order.Basic

/-!
# Bracketed logs

Each message of a log opens an interval, closes one, belongs within one, comes
after one or is free. A log is bracketed when each message was admissible at
the moment it was appended: an interval opens when no other is open, under a
name greater than all before, and its messages come while it is open.
-/

namespace Brackets

inductive Mark (ι : Type*) where
  | opens (i : ι)
  | closes (i : ι)
  | within (i : ι)
  | after (i : ι)
  | free

namespace Mark

variable {ι : Type*} {m : Mark ι} {i : ι}

/-- It neither opens nor closes an interval. -/
def inert : Mark ι → Prop
  | .opens _ | .closes _ => False
  | _ => True

end Mark

variable {α ι : Type*} {mark : α → Mark ι} {log more : List α} {a : α} {i j : ι}

-- ---------------------------------------------------------------------------
-- Open intervals
-- ---------------------------------------------------------------------------

def Opened (mark : α → Mark ι) (log : List α) (i : ι) : Prop := ∃ a ∈ log, mark a = .opens i

def Closed (mark : α → Mark ι) (log : List α) (i : ι) : Prop := ∃ a ∈ log, mark a = .closes i

/-- Interval `i` is open at the end of the log. -/
def OpenAt (mark : α → Mark ι) (log : List α) (i : ι) : Prop :=
  Opened mark log i ∧ ¬ Closed mark log i

theorem opened_nil : ¬ Opened mark [] i := by
  rintro ⟨a, ha, -⟩
  cases ha

theorem closed_nil : ¬ Closed mark [] i := by
  rintro ⟨a, ha, -⟩
  cases ha

theorem opened_append :
    Opened mark (log ++ more) i ↔ Opened mark log i ∨ Opened mark more i := by
  simp only [Opened, List.mem_append, or_and_right, exists_or]

theorem closed_append :
    Closed mark (log ++ more) i ↔ Closed mark log i ∨ Closed mark more i := by
  simp only [Closed, List.mem_append, or_and_right, exists_or]

theorem opened_singleton : Opened mark [a] i ↔ mark a = .opens i := by
  simp only [Opened, List.mem_singleton, exists_eq_left]

theorem closed_singleton : Closed mark [a] i ↔ mark a = .closes i := by
  simp only [Closed, List.mem_singleton, exists_eq_left]

theorem openAt_append_inert (h : ∀ a ∈ more, (mark a).inert) :
    OpenAt mark (log ++ more) i ↔ OpenAt mark log i := by
  have hopened : ¬ Opened mark more i := by
    rintro ⟨a, ha, hmark⟩
    have hinert := h a ha
    rw [hmark] at hinert
    exact hinert
  have hclosed : ¬ Closed mark more i := by
    rintro ⟨a, ha, hmark⟩
    have hinert := h a ha
    rw [hmark] at hinert
    exact hinert
  simp only [OpenAt, opened_append, closed_append, hopened, hclosed, or_false]

theorem openAt_opens (h : mark a = .opens j) :
    OpenAt mark (log ++ [a]) i ↔ (Opened mark log i ∨ j = i) ∧ ¬ Closed mark log i := by
  simp only [OpenAt, opened_append, closed_append, opened_singleton, closed_singleton, h,
    Mark.opens.injEq, reduceCtorEq, or_false]

theorem openAt_closes (h : mark a = .closes j) :
    OpenAt mark (log ++ [a]) i ↔ OpenAt mark log i ∧ j ≠ i := by
  simp only [OpenAt, opened_append, closed_append, opened_singleton, closed_singleton, h,
    Mark.closes.injEq, reduceCtorEq, or_false, not_or, and_assoc, ne_eq]

-- ---------------------------------------------------------------------------
-- Bracketed logs
-- ---------------------------------------------------------------------------

variable [LinearOrder ι]

/-- `a` may be appended to the log. -/
def Admits (mark : α → Mark ι) (log : List α) (a : α) : Prop :=
  match mark a with
  | .opens i => (∀ j, Opened mark log j → j < i) ∧ ∀ j, ¬ OpenAt mark log j
  | .closes i | .within i => OpenAt mark log i
  | .after i => Closed mark log i
  | .free => True

/-- Each message was admissible when it was appended. -/
inductive Bracketed (mark : α → Mark ι) : List α → Prop where
  | nil : Bracketed mark []
  | snoc {log : List α} {a : α} (h : Bracketed mark log) (ha : Admits mark log a) :
      Bracketed mark (log ++ [a])

namespace Bracketed

/-- Messages of one open interval, however many. -/
theorem append_within (h : Bracketed mark log) (hopen : OpenAt mark log i)
    (hmore : ∀ a ∈ more, mark a = .within i) : Bracketed mark (log ++ more) := by
  induction more generalizing log with
  | nil =>
    rw [List.append_nil]
    exact h
  | cons a more ih =>
    have ha : mark a = .within i := hmore a List.mem_cons_self
    have hsnoc : Bracketed mark (log ++ [a]) := by
      refine h.snoc ?_
      rw [Admits, ha]
      exact hopen
    have hopen' : OpenAt mark (log ++ [a]) i := by
      refine (openAt_append_inert ?_).mpr hopen
      intro b hb
      rw [List.mem_singleton.mp hb, ha]
      trivial
    rw [List.append_cons]
    exact ih hsnoc hopen' fun b hb => hmore b (List.mem_cons_of_mem _ hb)

/-- What was admitted at each place of the log. -/
theorem admits {past future : List α} (h : Bracketed mark log) (hlog : log = past ++ a :: future) :
    Admits mark past a := by
  induction h generalizing future with
  | nil => simp at hlog
  | @snoc log b h hb ih =>
    rcases List.eq_nil_or_concat future with rfl | ⟨future, c, rfl⟩
    · obtain ⟨rfl, rfl⟩ : log = past ∧ b = a := by simpa using hlog
      exact hb
    · have hlog' : log ++ [b] = (past ++ a :: future) ++ [c] := by simpa using hlog
      exact ih (List.append_inj_left' hlog' rfl)

/-- The log was bracketed at every moment before. -/
theorem past {past : List α} (h : Bracketed mark log) (hpast : past <+: log) :
    Bracketed mark past := by
  induction h with
  | nil =>
    rw [List.prefix_nil.mp hpast]
    exact .nil
  | snoc h ha ih =>
    rcases List.prefix_concat_iff.mp hpast with rfl | hpast
    · exact h.snoc ha
    · exact ih hpast

/-- Only an open interval closes. -/
theorem opened_of_closed (h : Bracketed mark log) (hi : Closed mark log i) : Opened mark log i := by
  induction h with
  | nil => exact (closed_nil hi).elim
  | @snoc log a h ha ih =>
    rw [closed_append, closed_singleton] at hi
    rcases hi with hi | hi
    · exact opened_append.mpr (.inl (ih hi))
    · rw [Admits, hi] at ha
      exact opened_append.mpr (.inl ha.1)

/-- What comes within an interval comes after it has opened. -/
theorem opened_of_within (h : Bracketed mark log) (ha : a ∈ log) (hmark : mark a = .within i) :
    Opened mark log i := by
  obtain ⟨past, future, rfl⟩ := List.append_of_mem ha
  have hadmits := h.admits rfl
  rw [Admits, hmark] at hadmits
  exact opened_append.mpr (.inl hadmits.1)

/-- At most one interval is open. -/
theorem unique (h : Bracketed mark log) (hi : OpenAt mark log i) (hj : OpenAt mark log j) :
    i = j := by
  induction h with
  | nil => exact (opened_nil hi.1).elim
  | @snoc log a h ha ih =>
    unfold Admits at ha
    cases hmark : mark a with
    | opens k =>
      rw [hmark] at ha
      rw [openAt_opens hmark] at hi hj
      have hnew : ∀ {i}, (Opened mark log i ∨ k = i) ∧ ¬ Closed mark log i → k = i := by
        rintro i ⟨hor, hclosed⟩
        exact hor.resolve_left fun hopened => ha.2 i ⟨hopened, hclosed⟩
      exact (hnew hi).symm.trans (hnew hj)
    | closes k =>
      rw [openAt_closes hmark] at hi hj
      exact ih hi.1 hj.1
    | within _ | after _ | free =>
      have hinert : ∀ b ∈ [a], (mark b).inert := by
        intro b hb
        rw [List.mem_singleton.mp hb, hmark]
        trivial
      rw [openAt_append_inert hinert] at hi hj
      exact ih hi hj

end Bracketed

-- ---------------------------------------------------------------------------
-- A condition on each message and its past
-- ---------------------------------------------------------------------------

/-- Each message of the log came when what was there before it was as `P` requires. -/
def Each (P : List α → α → Prop) (log : List α) : Prop :=
  ∀ past a future, log = past ++ a :: future → P past a

namespace Each

variable {P : List α → α → Prop}

theorem nil : Each P ([] : List α) := by
  intro past a future hlog
  simp at hlog

theorem snoc (h : Each P log) (ha : P log a) : Each P (log ++ [a]) := by
  intro past b future hlog
  rcases List.eq_nil_or_concat future with rfl | ⟨future, c, rfl⟩
  · obtain ⟨rfl, rfl⟩ : log = past ∧ a = b := by simpa using hlog
    exact ha
  · have hlog' : log ++ [a] = (past ++ b :: future) ++ [c] := by simpa using hlog
    exact h past b future (List.append_inj_left' hlog' rfl)

/-- Messages that may come at any time. -/
theorem append (h : Each P log) (hmore : ∀ a ∈ more, ∀ past, P past a) : Each P (log ++ more) := by
  induction more generalizing log with
  | nil =>
    rw [List.append_nil]
    exact h
  | cons a more ih =>
    rw [List.append_cons]
    refine ih (h.snoc (hmore a List.mem_cons_self log)) fun b hb => ?_
    exact hmore b (List.mem_cons_of_mem _ hb)

end Each

end Brackets
