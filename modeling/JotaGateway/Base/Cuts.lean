-- SUMMARY: Lists cut after some of their elements: the pieces, and the cut of what has been put together.
import Mathlib.Data.List.Basic
import Mathlib.Tactic.Common

/-!
# Cuts

A list is cut after each element where `stop` holds of it and the element that
follows. Whether the last element stops makes no difference.
-/

namespace Cuts

variable {α : Type*} {stop : α → Option α → Bool} {text a b p q : List α} {ps : List (List α)}
  {c d : α}

def cut (stop : α → Option α → Bool) : List α → List (List α)
  | [] => []
  | c :: rest =>
    if stop c rest.head? then [c] :: cut stop rest
    else
      match cut stop rest with
      | [] => [[c]]
      | p :: ps => (c :: p) :: ps

/-- The last element is one of these. -/
def Ends (P : α → Prop) (p : List α) : Prop := ∃ a c, p = a ++ [c] ∧ P c

@[simp] theorem cut_nil : cut stop [] = [] := rfl

@[simp] theorem cut_singleton : cut stop [c] = [[c]] := by
  simp only [cut, ite_self]

theorem cut_cons_of_stop (h : stop c text.head? = true) :
    cut stop (c :: text) = [c] :: cut stop text :=
  if_pos h

theorem cut_cons_of_not_stop (h : stop c text.head? = false) (hcut : cut stop text = p :: ps) :
    cut stop (c :: text) = (c :: p) :: ps := by
  simp only [cut, h, Bool.false_eq_true, if_false, hcut]

@[simp] theorem flatten_cut (stop : α → Option α → Bool) (text : List α) :
    (cut stop text).flatten = text := by
  induction text with
  | nil => rfl
  | cons c rest ih =>
    unfold cut
    split
    · rw [List.flatten_cons, ih, List.singleton_append]
    · split
      · rename_i hnil
        rw [hnil] at ih
        rw [← ih]
        rfl
      · rename_i p ps hcut
        rw [hcut] at ih
        rw [List.flatten_cons, List.cons_append, ← List.flatten_cons, ih]

theorem cut_eq_nil : cut stop text = [] ↔ text = [] := by
  constructor
  · intro h
    rw [← flatten_cut stop text, h]
    rfl
  · rintro rfl
    rfl

theorem cut_cons_exists (stop : α → Option α → Bool) (c : α) (text : List α) :
    ∃ p ps, cut stop (c :: text) = (c :: p) :: ps := by
  unfold cut
  split
  · exact ⟨[], _, rfl⟩
  · split
    · exact ⟨[], [], rfl⟩
    · rename_i p ps _
      exact ⟨p, ps, rfl⟩

theorem ne_nil_of_mem_cut (h : p ∈ cut stop text) : p ≠ [] := by
  induction text generalizing p with
  | nil => cases h
  | cons c rest ih =>
    unfold cut at h
    split at h
    · rcases List.mem_cons.mp h with rfl | h
      · exact List.cons_ne_nil _ _
      · exact ih h
    · split at h
      · rw [List.mem_singleton.mp h]
        exact List.cons_ne_nil _ _
      · rename_i q qs hcut
        rcases List.mem_cons.mp h with rfl | h
        · exact List.cons_ne_nil _ _
        · exact ih (hcut ▸ List.mem_cons_of_mem _ h)

-- ---------------------------------------------------------------------------
-- Cutting what is put together
-- ---------------------------------------------------------------------------

theorem cut_append (h : stop c b.head? = true) :
    cut stop (a ++ c :: b) = cut stop (a ++ [c]) ++ cut stop b := by
  induction a with
  | nil => rw [List.nil_append, List.nil_append, cut_cons_of_stop h, cut_singleton]; rfl
  | cons d a ih =>
    have hhead : (a ++ c :: b).head? = (a ++ [c]).head? := by
      cases a <;> rfl
    rw [List.cons_append, List.cons_append]
    cases hstop : stop d (a ++ c :: b).head? with
    | true => rw [cut_cons_of_stop hstop, cut_cons_of_stop (hhead ▸ hstop), ih, List.cons_append]
    | false =>
      obtain ⟨p, ps, hcut⟩ : ∃ p ps, cut stop (a ++ [c]) = p :: ps := by
        refine List.exists_cons_of_ne_nil fun hnil => ?_
        exact List.append_ne_nil_of_right_ne_nil a (List.cons_ne_nil c []) (cut_eq_nil.mp hnil)
      rw [hcut, List.cons_append] at ih
      rw [cut_cons_of_not_stop hstop ih, cut_cons_of_not_stop (hhead ▸ hstop) hcut, List.cons_append]

/-- One more element goes into a piece of its own or into the last one. -/
theorem cut_snoc (stop : α → Option α → Bool) (a : List α) (d : α) :
    cut stop (a ++ [d]) = cut stop a ++ [[d]] ∨
      ∃ ps p, cut stop a = ps ++ [p] ∧ cut stop (a ++ [d]) = ps ++ [p ++ [d]] := by
  rcases List.eq_nil_or_concat a with rfl | ⟨a, c, rfl⟩
  · exact .inl cut_singleton
  · have happend : a ++ [c] ++ [d] = a ++ c :: [d] := by
      rw [List.append_assoc, List.singleton_append]
    rw [List.concat_eq_append, happend]
    cases hstop : stop c (some d) with
    | true =>
      refine .inl ?_
      rw [cut_append hstop, cut_singleton]
    | false =>
      refine .inr ?_
      clear happend
      induction a with
      | nil =>
        refine ⟨[], [c], cut_singleton, ?_⟩
        exact cut_cons_of_not_stop hstop cut_singleton
      | cons e a ih =>
        obtain ⟨ps, p, hshort, hlong⟩ := ih
        have hhead : (a ++ c :: [d]).head? = (a ++ [c]).head? := by
          cases a <;> rfl
        rw [List.cons_append, List.cons_append]
        cases hstop' : stop e (a ++ c :: [d]).head? with
        | true =>
          refine ⟨[e] :: ps, p, ?_, ?_⟩
          · rw [cut_cons_of_stop (hhead ▸ hstop'), hshort, List.cons_append]
          · rw [cut_cons_of_stop hstop', hlong, List.cons_append]
        | false =>
          cases ps with
          | nil =>
            refine ⟨[], e :: p, ?_, ?_⟩
            · exact cut_cons_of_not_stop (hhead ▸ hstop') hshort
            · exact cut_cons_of_not_stop hstop' hlong
          | cons q qs =>
            refine ⟨(e :: q) :: qs, p, ?_, ?_⟩
            · exact cut_cons_of_not_stop (hhead ▸ hstop') hshort
            · exact cut_cons_of_not_stop hstop' hlong

/-- The first piece begins with what stops nowhere. -/
theorem cut_prefix (h : ∀ c ∈ a, ∀ next, stop c next = false) (hb : b ≠ []) :
    ∃ p ps, cut stop (a ++ b) = (a ++ p) :: ps := by
  induction a with
  | nil =>
    obtain ⟨c, rest, rfl⟩ := List.exists_cons_of_ne_nil hb
    obtain ⟨p, ps, hcut⟩ := cut_cons_exists stop c rest
    exact ⟨c :: p, ps, hcut⟩
  | cons c a ih =>
    obtain ⟨p, ps, hcut⟩ := ih fun d hd => h d (List.mem_cons_of_mem _ hd)
    exact ⟨p, ps, cut_cons_of_not_stop (h c List.mem_cons_self _) hcut⟩

/-- A piece is not cut again. -/
theorem cut_of_mem_cut (h : p ∈ cut stop text) : cut stop p = [p] := by
  induction text generalizing p with
  | nil => cases h
  | cons c rest ih =>
    cases hstop : stop c rest.head? with
    | true =>
      rw [cut_cons_of_stop hstop] at h
      rcases List.mem_cons.mp h with rfl | h
      · exact cut_singleton
      · exact ih h
    | false =>
      cases rest with
      | nil =>
        rw [cut_singleton] at h
        rw [List.mem_singleton.mp h]
        exact cut_singleton
      | cons d rest =>
        obtain ⟨q, qs, hcut⟩ := cut_cons_exists stop d rest
        rw [cut_cons_of_not_stop hstop hcut] at h
        rcases List.mem_cons.mp h with rfl | h
        · exact cut_cons_of_not_stop hstop (ih (hcut ▸ List.mem_cons_self))
        · exact ih (hcut ▸ List.mem_cons_of_mem _ h)

/-- Every piece but the last ends with an element that stops. -/
theorem cut_pairwise (stop : α → Option α → Bool) (text : List α) :
    (cut stop text).Pairwise fun p _ => Ends (fun c => ∃ next, stop c next = true) p := by
  induction text with
  | nil => exact .nil
  | cons c rest ih =>
    cases hstop : stop c rest.head? with
    | true =>
      rw [cut_cons_of_stop hstop]
      exact ih.cons fun _ _ => ⟨[], c, rfl, _, hstop⟩
    | false =>
      cases hcut : cut stop rest with
      | nil =>
        rw [cut_eq_nil.mp hcut, cut_singleton]
        exact List.pairwise_singleton _ _
      | cons p ps =>
        rw [cut_cons_of_not_stop hstop hcut]
        rw [hcut, List.pairwise_cons] at ih
        refine ih.2.cons fun q hq => ?_
        obtain ⟨a, d, rfl, hd⟩ := ih.1 q hq
        exact ⟨c :: a, d, rfl, hd⟩

/-- Where every part but the last ends with an element that always stops, the parts are cut one
by one. -/
theorem cut_flatten (h : ps.Pairwise fun p _ => Ends (fun c => ∀ next, stop c next = true) p) :
    cut stop ps.flatten = ps.flatMap (cut stop) := by
  induction ps with
  | nil => rfl
  | cons p ps ih =>
    rw [List.pairwise_cons] at h
    rw [List.flatten_cons, List.flatMap_cons]
    cases ps with
    | nil =>
      rw [List.flatten_nil, List.append_nil, List.flatMap_nil, List.append_nil]
    | cons q qs =>
      obtain ⟨a, c, rfl, hstop⟩ := h.1 q List.mem_cons_self
      rw [List.append_assoc, List.singleton_append, cut_append (hstop _), ih h.2]

end Cuts
