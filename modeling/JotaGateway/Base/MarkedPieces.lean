-- SUMMARY: Taking out the marked pieces of a list, or putting one in their place, with a fine cut and with a coarse one.
import JotaGateway.Base.Cuts
import Mathlib.Algebra.GroupWithZero.Nat
import Mathlib.Data.List.Perm.Basic

/-!
# Marked pieces

A coarse cut has whole lines, a fine one cuts some of them again. To take out
the marked pieces of the fine cut does the same as to take out the marked
lines exactly where the pieces of each line are marked as the line is.
-/

namespace Cuts

-- ---------------------------------------------------------------------------
-- Replacing the marked
-- ---------------------------------------------------------------------------

section Replace

variable {β : Type*} {M : β → Bool} {n p : β} {ps qs : List β}

/-- The first marked element becomes `n`, the other marked ones go. -/
def replaceFirst (M : β → Bool) (n : β) : List β → List β
  | [] => []
  | p :: ps => if M p then n :: ps.filter (!M ·) else p :: replaceFirst M n ps

theorem replaceFirst_append_of_unmarked (h : ∀ p ∈ ps, M p = false) :
    replaceFirst M n (ps ++ qs) = ps ++ replaceFirst M n qs := by
  induction ps with
  | nil => rfl
  | cons p ps ih =>
    rw [List.cons_append, replaceFirst, h p List.mem_cons_self,
      ih fun q hq => h q (List.mem_cons_of_mem _ hq)]
    rfl

theorem filter_unmarked (h : ∀ p ∈ ps, M p = false) : ps.filter (!M ·) = ps := by
  refine List.filter_eq_self.mpr fun p hp => ?_
  rw [h p hp]
  rfl

/-- Up to the order it is `n` and what is not marked. -/
theorem replaceFirst_perm (h : ps.any M = true) :
    (replaceFirst M n ps).Perm (n :: ps.filter (!M ·)) := by
  induction ps with
  | nil => cases h
  | cons p ps ih =>
    cases hp : M p with
    | true => simp only [replaceFirst, hp, if_true, List.filter_cons, Bool.not_true,
        Bool.false_eq_true, if_false, List.Perm.refl]
    | false =>
      have hrest : ps.any M = true := by
        simpa only [List.any_cons, hp, Bool.false_or] using h
      simp only [replaceFirst, hp, Bool.false_eq_true, if_false, List.filter_cons, Bool.not_false,
        if_true]
      exact ((ih hrest).cons p).trans (.swap n p _)

/-- The unmarked keep their order. -/
theorem filter_not_replaceFirst (hn : M n = true) :
    (replaceFirst M n ps).filter (!M ·) = ps.filter (!M ·) := by
  induction ps with
  | nil => rfl
  | cons p ps ih =>
    cases hp : M p with
    | true => simp only [replaceFirst, hp, if_true, List.filter_cons, hn, Bool.not_true,
        Bool.false_eq_true, if_false, List.filter_filter, Bool.and_self]
    | false => simp only [replaceFirst, hp, Bool.false_eq_true, if_false, List.filter_cons,
        Bool.not_false, if_true, ih]

theorem filter_replaceFirst (hn : M n = true) (h : ps.any M = true) :
    (replaceFirst M n ps).filter M = [n] := by
  have hnone : (ps.filter (!M ·)).filter M = [] := by
    refine List.filter_eq_nil_iff.mpr fun p hp => ?_
    rw [Bool.not_eq_true]
    exact Bool.not_eq_true'  (M p) |>.mp (List.mem_filter.mp hp).2
  have hperm := (replaceFirst_perm (n := n) h).filter M
  rw [List.filter_cons_of_pos hn, hnone] at hperm
  exact hperm.eq_singleton

theorem findIdx_replaceFirst (hn : M n = true) :
    (replaceFirst M n ps).findIdx M = ps.findIdx M := by
  induction ps with
  | nil => rfl
  | cons p ps ih =>
    cases hp : M p with
    | true => simp only [replaceFirst, hp, if_true, List.findIdx_cons, hn, cond_true]
    | false => simp only [replaceFirst, hp, Bool.false_eq_true, if_false, List.findIdx_cons,
        cond_false, ih]

theorem mem_replaceFirst (h : p ∈ replaceFirst M n ps) : p = n ∨ p ∈ ps ∧ M p = false := by
  induction ps with
  | nil => cases h
  | cons q ps ih =>
    cases hq : M q with
    | true =>
      simp only [replaceFirst, hq, if_true, List.mem_cons, List.mem_filter, Bool.not_eq_true'] at h
      exact h.imp_right fun hp => ⟨List.mem_cons_of_mem _ hp.1, hp.2⟩
    | false =>
      simp only [replaceFirst, hq, Bool.false_eq_true, if_false, List.mem_cons] at h
      rcases h with rfl | h
      · exact .inr ⟨List.mem_cons_self, hq⟩
      · exact (ih h).imp_right fun hp => ⟨List.mem_cons_of_mem _ hp.1, hp.2⟩

/-- Replaced once, there is nothing left to replace. -/
theorem replaceFirst_replaceFirst (hn : M n = true) :
    replaceFirst M n (replaceFirst M n ps) = replaceFirst M n ps := by
  induction ps with
  | nil => rfl
  | cons p ps ih =>
    cases hp : M p with
    | true => simp only [replaceFirst, hp, hn, if_true, List.filter_filter, Bool.and_self]
    | false => simp only [replaceFirst, hp, Bool.false_eq_true, if_false, ih]

theorem pairwise_replaceFirst {P : β → Prop} (hn : P n) (h : ps.Pairwise fun p _ => P p) :
    (replaceFirst M n ps).Pairwise fun p _ => P p := by
  induction ps with
  | nil => exact .nil
  | cons p ps ih =>
    rw [List.pairwise_cons] at h
    cases hp : M p with
    | true =>
      simp only [replaceFirst, hp, if_true]
      exact (h.2.filter _).cons fun _ _ => hn
    | false =>
      simp only [replaceFirst, hp, Bool.false_eq_true, if_false]
      refine (ih h.2).cons fun q hq => ?_
      cases ps with
      | nil => cases hq
      | cons r _ => exact h.1 r List.mem_cons_self

end Replace

-- ---------------------------------------------------------------------------
-- Lines and their pieces
-- ---------------------------------------------------------------------------

variable {α : Type*} {fine : α → Option α → Bool} {M : List α → Bool} {ls : List (List α)}
  {l n : List α}

/-- The pieces of each line are marked as the line is. -/
def Uniform (fine : α → Option α → Bool) (M : List α → Bool) (ls : List (List α)) : Prop :=
  ∀ l ∈ ls, ∀ q ∈ cut fine l, M q = M l

theorem Uniform.tail (h : Uniform fine M (l :: ls)) : Uniform fine M ls :=
  fun l' hl => h l' (List.mem_cons_of_mem _ hl)

/-- What is left of a line without its marked pieces. -/
def rest (fine : α → Option α → Bool) (M : List α → Bool) (l : List α) : List α :=
  ((cut fine l).filter (!M ·)).flatten

theorem rest_of_unmarked (h : ∀ q ∈ cut fine l, M q = false) : rest fine M l = l := by
  rw [rest, filter_unmarked h, flatten_cut]

theorem rest_eq_nil : rest fine M l = [] ↔ ∀ q ∈ cut fine l, M q = true := by
  rw [rest, List.flatten_eq_nil_iff]
  constructor
  · intro h q hq
    cases hmark : M q with
    | true => rfl
    | false =>
      have hmem : q ∈ (cut fine l).filter (!M ·) := List.mem_filter.mpr ⟨hq, by rw [hmark]; rfl⟩
      exact absurd (h q hmem) (ne_nil_of_mem_cut hq)
  · intro h q hq
    have hmark := (List.mem_filter.mp hq).2
    rw [h q (List.mem_filter.mp hq).1] at hmark
    cases hmark

theorem flatten_filter_cons (l : List α) (ls : List (List α)) :
    (((l :: ls).flatMap (cut fine)).filter (!M ·)).flatten =
      rest fine M l ++ ((ls.flatMap (cut fine)).filter (!M ·)).flatten := by
  rw [List.flatMap_cons, List.filter_append, List.flatten_append]
  rfl

@[simp] theorem flatten_flatMap_cut (ls : List (List α)) :
    (ls.flatMap (cut fine)).flatten = ls.flatten := by
  induction ls with
  | nil => rfl
  | cons l ls ih => rw [List.flatMap_cons, List.flatten_append, flatten_cut, ih, List.flatten_cons]

theorem Uniform.filter (h : Uniform fine M ls) :
    (ls.flatMap (cut fine)).filter (!M ·) = (ls.filter (!M ·)).flatMap (cut fine) := by
  induction ls with
  | nil => rfl
  | cons l ls ih =>
    have hl := h l List.mem_cons_self
    rw [List.flatMap_cons, List.filter_append, ih h.tail, List.filter_cons]
    cases hmark : M l with
    | true =>
      have hgone : (cut fine l).filter (!M ·) = [] := by
        refine List.filter_eq_nil_iff.mpr fun q hq => ?_
        rw [hl q hq, hmark]
        exact Bool.false_ne_true
      rw [hgone]
      rfl
    | false =>
      rw [filter_unmarked fun q hq => (hl q hq).trans hmark]
      rfl

theorem Uniform.replaceFirst (h : Uniform fine M ls) (hne : ∀ l ∈ ls, l ≠ []) :
    (replaceFirst M n (ls.flatMap (cut fine))).flatten = (replaceFirst M n ls).flatten := by
  induction ls with
  | nil => rfl
  | cons l ls ih =>
    have hl := h l List.mem_cons_self
    have htail : ∀ l ∈ ls, l ≠ [] := fun l' hl' => hne l' (List.mem_cons_of_mem _ hl')
    rw [List.flatMap_cons]
    cases hmark : M l with
    | false =>
      rw [replaceFirst_append_of_unmarked fun q hq => (hl q hq).trans hmark, List.flatten_append,
        flatten_cut, ih h.tail htail, Cuts.replaceFirst, hmark]
      rfl
    | true =>
      obtain ⟨p, ps, hcut⟩ : ∃ p ps, cut fine l = p :: ps :=
        List.exists_cons_of_ne_nil (mt cut_eq_nil.mp (hne l List.mem_cons_self))
      have hall : ∀ q ∈ cut fine l, M q = true := fun q hq => (hl q hq).trans hmark
      rw [hcut] at hall ⊢
      have hgone : ps.filter (!M ·) = [] := by
        refine List.filter_eq_nil_iff.mpr fun q hq => ?_
        rw [hall q (List.mem_cons_of_mem _ hq)]
        exact Bool.false_ne_true
      rw [List.cons_append, Cuts.replaceFirst, if_pos (hall p List.mem_cons_self), List.filter_append,
        hgone, List.nil_append, List.flatten_cons, h.tail.filter, flatten_flatMap_cut,
        Cuts.replaceFirst, if_pos hmark, List.flatten_cons]

/-- A piece is marked where a line is. -/
theorem Uniform.any (h : Uniform fine M ls) (hne : ∀ l ∈ ls, l ≠ []) :
    (ls.flatMap (cut fine)).any M = ls.any M := by
  rw [Bool.eq_iff_iff, List.any_eq_true, List.any_eq_true]
  constructor
  · rintro ⟨q, hq, hmark⟩
    obtain ⟨l, hl, hq⟩ := List.mem_flatMap.mp hq
    exact ⟨l, hl, (h l hl q hq).symm.trans hmark⟩
  · rintro ⟨l, hl, hmark⟩
    obtain ⟨q, qs, hcut⟩ := List.exists_cons_of_ne_nil (mt cut_eq_nil.mp (hne l hl))
    have hq : q ∈ cut fine l := hcut ▸ List.mem_cons_self
    exact ⟨q, List.mem_flatMap.mpr ⟨l, hl, hq⟩, (h l hl q hq).trans hmark⟩

/-- No unmarked line has a marked piece. -/
def Clean (fine : α → Option α → Bool) (M : List α → Bool) (ls : List (List α)) : Prop :=
  ∀ l ∈ ls, M l = false → ∀ q ∈ cut fine l, M q = false

theorem Clean.tail (h : Clean fine M (l :: ls)) : Clean fine M ls :=
  fun l' hl => h l' (List.mem_cons_of_mem _ hl)

/-- The lines that are not marked are left as they are, so at least they are left. -/
theorem Clean.le (h : Clean fine M ls) : (ls.filter (!M ·)).flatten.length ≤
    ((ls.flatMap (cut fine)).filter (!M ·)).flatten.length := by
  induction ls with
  | nil => exact Nat.le_refl _
  | cons l ls ih =>
    rw [flatten_filter_cons, List.length_append, List.filter_cons]
    cases hmark : M l with
    | true => exact Nat.le_trans (ih h.tail) (Nat.le_add_left _ _)
    | false =>
      rw [rest_of_unmarked (h l List.mem_cons_self hmark)]
      simpa using ih h.tail

/-- If no more is left than that, the marked lines are gone with all their pieces. -/
theorem Clean.uniform (h : Clean fine M ls)
    (hle : ((ls.flatMap (cut fine)).filter (!M ·)).flatten.length ≤
      (ls.filter (!M ·)).flatten.length) : Uniform fine M ls := by
  induction ls with
  | nil => rintro _ ⟨⟩
  | cons l ls ih =>
    have htail := h.tail.le
    rw [flatten_filter_cons, List.length_append, List.filter_cons] at hle
    intro l' hl'
    cases hmark : M l with
    | true =>
      simp only [hmark, Bool.not_true, Bool.false_eq_true, if_false] at hle
      have hnil : rest fine M l = [] := List.length_eq_zero_iff.mp (by omega)
      rcases List.mem_cons.mp hl' with rfl | hl'
      · rw [hmark]
        exact rest_eq_nil.mp hnil
      · exact ih h.tail (by omega) l' hl'
    | false =>
      have hclean := h l List.mem_cons_self hmark
      simp only [hmark, Bool.not_false, if_true, rest_of_unmarked hclean, List.flatten_cons,
        List.length_append] at hle
      rcases List.mem_cons.mp hl' with rfl | hl'
      · rw [hmark]
        exact hclean
      · exact ih h.tail (by omega) l' hl'

-- ---------------------------------------------------------------------------
-- Counting the marked
-- ---------------------------------------------------------------------------

/-- How many of the pieces are marked. -/
def marks (fine : α → Option α → Bool) (M : List α → Bool) (text : List α) : Nat :=
  (cut fine text).countP M

/-- Soft elements stop unless `e` follows, `e` always stops, and no mark depends on it. -/
structure Ending (fine : α → Option α → Bool) (M : List α → Bool) (soft : α → Prop) (e : α) :
    Prop where
  soft : ∀ c next, soft c → next ≠ some e → fine c next = true
  stops : ∀ next, fine e next = true
  alone : M [e] = false
  snoc : ∀ q, M (q ++ [e]) = M q

theorem marks_eq_zero {text : List α} : marks fine M text = 0 ↔ ∀ q ∈ cut fine text, M q = false := by
  rw [marks, List.countP_eq_zero]
  simp only [Bool.not_eq_true]

namespace Ending

variable {soft : α → Prop} {e c : α} {a b : List α} {ps : List (List α)}

theorem marks_snoc (h : Ending fine M soft e) (a : List α) :
    marks fine M (a ++ [e]) = marks fine M a := by
  unfold marks
  rcases cut_snoc fine a e with heq | ⟨ps, p, hshort, hlong⟩
  · rw [heq, List.countP_append, List.countP_singleton, h.alone]
    rfl
  · rw [hshort, hlong, List.countP_append, List.countP_append, List.countP_singleton,
      List.countP_singleton, h.snoc]

/-- After a soft element the marked pieces add up. -/
theorem marks_append (h : Ending fine M soft e) (hc : soft c) :
    marks fine M (a ++ c :: b) = marks fine M (a ++ [c]) + marks fine M b := by
  have hstop : ∀ {c b}, fine c b.head? = true →
      marks fine M (a ++ c :: b) = marks fine M (a ++ [c]) + marks fine M b := by
    intro c b hstop
    rw [marks, cut_append hstop, List.countP_append]
    rfl
  by_cases hnext : b.head? = some e
  · obtain ⟨b, rfl⟩ : ∃ b', b = e :: b' := by
      cases b with
      | nil => cases hnext
      | cons d b => exact ⟨b, by rw [Option.some.inj hnext]⟩
    have hlong : marks fine M ((a ++ [c]) ++ e :: b) =
        marks fine M ((a ++ [c]) ++ [e]) + marks fine M b := by
      rw [marks, cut_append (h.stops _), List.countP_append]
      rfl
    have hhead : marks fine M (e :: b) = marks fine M b := by
      rw [marks, cut_cons_of_stop (h.stops _), List.countP_cons, h.alone]
      rfl
    rw [h.marks_snoc, List.append_assoc, List.singleton_append] at hlong
    rw [hlong, hhead]
  · exact hstop (h.soft c _ hc hnext)

theorem marks_flatten (h : Ending fine M soft e) (hps : ps.Pairwise fun p _ => Ends soft p) :
    marks fine M ps.flatten = (ps.map (marks fine M)).sum := by
  induction ps with
  | nil => rfl
  | cons p ps ih =>
    rw [List.pairwise_cons] at hps
    rw [List.flatten_cons, List.map_cons, List.sum_cons]
    cases ps with
    | nil =>
      rw [List.flatten_nil, List.append_nil]
      rfl
    | cons q qs =>
      obtain ⟨a, c, rfl, hc⟩ := hps.1 q List.mem_cons_self
      rw [List.append_assoc, List.singleton_append, h.marks_append hc, ih hps.2]

end Ending

/-- A piece is all the pieces it has. -/
theorem marks_of_mem {text p : List α} (hp : p ∈ cut fine text) (hmark : M p = false) :
    marks fine M p = 0 := by
  refine marks_eq_zero.mpr fun q hq => ?_
  rw [cut_of_mem_cut hp] at hq
  rw [List.mem_singleton.mp hq]
  exact hmark

end Cuts
