-- SUMMARY: The lines of `config.env` and the pieces `splitlines` makes of them: marked pieces, the completed last line.
import JotaGateway.Cli.ConfigFile

/-!
# Lines and pieces

An edit is meant for lines and works on the pieces `splitlines` makes of them.
A piece or a line is marked when it is an assignment the edit is after.
-/

namespace ConfigFile

open Cuts

-- ---------------------------------------------------------------------------
-- Lines and pieces
-- ---------------------------------------------------------------------------

/-- The line with its newline. -/
def complete (line : PyStr) : PyStr := if endsNl line then line else line ++ [nl]

/-- The lines that are not marked. -/
def others (M : PyStr → Bool) (text : PyStr) : List PyStr := (lines text).filter (!M ·)

/-- Soft: where `splitlines` cuts. -/
abbrev Soft (c : Nat) : Prop := isBreak c = true

/-- Lines in a row: each but the last ends with its newline. -/
def Rows (ls : List PyStr) : Prop := ls.Pairwise fun l _ => Ends (· = nl) l

variable {M : PyStr → Bool} {text : PyStr} {ls : List PyStr} {l : PyStr}

theorem breaks_nl (next : Option Nat) : breaks nl next = true := rfl

theorem soft_of_breaks {c : Nat} {next : Option Nat} (h : breaks c next = true) : Soft c :=
  (Bool.and_eq_true _ _ ▸ h).1

theorem rows_lines (text : PyStr) : Rows (lines text) := by
  refine (cut_pairwise newlines text).imp ?_
  rintro l _ ⟨a, c, rfl, next, hc⟩
  exact ⟨a, c, rfl, eq_of_beq hc⟩

@[simp] theorem flatten_lines (text : PyStr) : (lines text).flatten = text := flatten_cut _ _

/-- Lines in a row are the lines of their text. -/
theorem lines_flatten (h : Rows ls) (hls : ∀ l ∈ ls, lines l = [l]) : lines ls.flatten = ls := by
  have hstops : ls.Pairwise fun l _ => Ends (fun c => ∀ next, newlines c next = true) l := by
    refine h.imp ?_
    rintro l _ ⟨a, c, rfl, rfl⟩
    exact ⟨a, nl, rfl, fun _ => rfl⟩
  rw [lines, cut_flatten hstops]
  clear h hstops
  induction ls with
  | nil => rfl
  | cons l ls ih =>
    have hl : cut newlines l = [l] := hls l List.mem_cons_self
    rw [List.flatMap_cons, hl, ih fun l' hl' => hls l' (List.mem_cons_of_mem _ hl')]
    rfl

theorem lines_of_mem (h : l ∈ lines text) : lines l = [l] := cut_of_mem_cut h

/-- `splitlines` cuts the lines one by one. -/
theorem splitlines_eq (text : PyStr) : splitlines text = (lines text).flatMap (cut breaks) := by
  have hstops : (lines text).Pairwise fun l _ => Ends (fun c => ∀ next, breaks c next = true) l := by
    refine (rows_lines text).imp ?_
    rintro l _ ⟨a, c, rfl, rfl⟩
    exact ⟨a, nl, rfl, breaks_nl⟩
  rw [← cut_flatten hstops, lines, flatten_cut]
  rfl

theorem ne_nil_of_mem_lines (h : l ∈ lines text) : l ≠ [] := ne_nil_of_mem_cut h

-- ---------------------------------------------------------------------------
-- The last line
-- ---------------------------------------------------------------------------

theorem endsNl_iff : endsNl l = true ↔ Ends (· = nl) l := by
  unfold endsNl
  rw [beq_iff_eq, List.getLast?_eq_some_iff]
  constructor
  · rintro ⟨a, rfl⟩
    exact ⟨a, nl, rfl, rfl⟩
  · rintro ⟨a, _, rfl, rfl⟩
    exact ⟨a, rfl⟩

theorem ends_complete (l : PyStr) : Ends (· = nl) (complete l) := by
  unfold complete
  split
  · exact endsNl_iff.mp ‹_›
  · exact ⟨l, nl, rfl, rfl⟩

/-- Only the last line may lack its newline. -/
theorem map_complete (h : Rows ls) : ls.map complete = completeLast ls := by
  rcases List.eq_nil_or_concat ls with rfl | ⟨init, last, rfl⟩
  · rfl
  · rw [List.concat_eq_append] at h ⊢
    have hinit : init.map complete = init := by
      refine (List.map_congr_left fun l hl => ?_).trans init.map_id
      have hends := (List.pairwise_append.mp h).2.2 l hl last (List.mem_singleton_self last)
      exact if_pos (endsNl_iff.mpr hends)
    unfold completeLast
    rw [List.map_append, hinit, List.getLast?_concat, List.dropLast_concat, List.map_singleton]
    dsimp only
    unfold complete
    split <;> rfl

theorem endsNl_append {a b : PyStr} (hb : b ≠ []) : endsNl (a ++ b) = endsNl b := by
  unfold endsNl
  rw [List.getLast?_append_of_ne_nil _ hb]

theorem flatten_completeLast {ps : List PyStr} (hps : ∀ p ∈ ps, p ≠ []) :
    (completeLast ps).flatten = if ps.flatten = [] then [] else complete ps.flatten := by
  rcases List.eq_nil_or_concat ps with rfl | ⟨init, last, rfl⟩
  · rfl
  · rw [List.concat_eq_append] at hps ⊢
    have hlast : last ≠ [] := hps last (List.mem_append_right _ (List.mem_singleton_self last))
    have hflatten : (init ++ [last]).flatten = init.flatten ++ last := by
      rw [List.flatten_append, List.flatten_singleton]
    have hne : init.flatten ++ last ≠ [] := List.append_ne_nil_of_right_ne_nil _ hlast
    rw [hflatten, if_neg hne]
    unfold completeLast complete
    rw [List.getLast?_concat, endsNl_append hlast, List.dropLast_concat]
    dsimp only
    split
    · exact hflatten
    · rw [List.flatten_append, List.flatten_singleton, List.append_assoc]

/-- Only the text counts, not where it is cut. -/
theorem flatten_completeLast_congr {ps qs : List PyStr} (h : ps.flatten = qs.flatten)
    (hps : ∀ p ∈ ps, p ≠ []) (hqs : ∀ q ∈ qs, q ≠ []) :
    (completeLast ps).flatten = (completeLast qs).flatten := by
  rw [flatten_completeLast hps, flatten_completeLast hqs, h]

-- ---------------------------------------------------------------------------
-- Marked lines and marked pieces
-- ---------------------------------------------------------------------------

/-- The text without its marked pieces. -/
def left (M : PyStr → Bool) (text : PyStr) : PyStr := ((splitlines text).filter (!M ·)).flatten

/-- No newline at the end makes a mark or unmakes one. -/
abbrev Marked (M : PyStr → Bool) : Prop := Ending breaks M Soft nl

theorem marked_of_snoc (hnil : M [] = false) (hsnoc : ∀ l, M (l ++ [nl]) = M l) : Marked M := by
  refine ⟨?_, breaks_nl, (hsnoc []).trans hnil, hsnoc⟩
  intro c next hsoft hnext
  rw [breaks, hsoft, beq_eq_false_iff_ne.mpr hnext]
  simp only [Bool.and_false, Bool.not_false, Bool.and_self]

theorem soft_of_nl {ps : List PyStr} (h : ps.Pairwise fun p _ => Ends (· = nl) p) :
    ps.Pairwise fun p _ => Ends Soft p := by
  refine h.imp ?_
  rintro p _ ⟨a, c, rfl, rfl⟩
  exact ⟨a, nl, rfl, rfl⟩

theorem pairwise_splitlines (text : PyStr) :
    (splitlines text).Pairwise fun p _ => Ends Soft p := by
  refine (cut_pairwise breaks text).imp ?_
  rintro p _ ⟨a, c, rfl, next, hc⟩
  exact ⟨a, c, rfl, soft_of_breaks hc⟩

theorem sum_marks_filter {ps : List PyStr} (h : ∀ p ∈ ps, p ∈ splitlines text) :
    ((ps.filter (!M ·)).map (marks breaks M)).sum = 0 := by
  refine List.sum_eq_zero_iff_forall_eq_nat.mpr fun k hk => ?_
  obtain ⟨p, hp, rfl⟩ := List.mem_map.mp hk
  obtain ⟨hmem, hmark⟩ := List.mem_filter.mp hp
  exact marks_of_mem (h p hmem) ((Bool.not_eq_true' _).mp hmark)

/-- What is left has no marked piece, though pieces may have met. -/
theorem marks_left (h : Marked M) (text : PyStr) : marks breaks M (left M text) = 0 := by
  rw [left, h.marks_flatten ((pairwise_splitlines text).filter _)]
  exact sum_marks_filter fun _ hp => hp

theorem marks_rows (h : Marked M) (hls : Rows ls) :
    marks breaks M ls.flatten = (ls.map (marks breaks M)).sum :=
  h.marks_flatten (soft_of_nl hls)

/-- The marked pieces of a text are those of its lines. -/
theorem marks_lines (h : Marked M) (text : PyStr) :
    marks breaks M text = ((lines text).map (marks breaks M)).sum := by
  rw [← marks_rows h (rows_lines text), flatten_lines]

theorem rows_others (M : PyStr → Bool) (text : PyStr) : Rows (others M text) :=
  (rows_lines text).filter _

theorem lines_others (M : PyStr → Bool) (text : PyStr) :
    lines (others M text).flatten = others M text :=
  lines_flatten (rows_others M text) fun _ hl => lines_of_mem (List.mem_filter.mp hl).1

theorem clean_of_marks (h : ((others M text).map (marks breaks M)).sum = 0) :
    Clean breaks M (lines text) := by
  intro l hl hmark
  rw [List.sum_eq_zero_iff_forall_eq_nat] at h
  have hmem : l ∈ others M text := List.mem_filter.mpr ⟨hl, by rw [hmark]; rfl⟩
  exact marks_eq_zero.mp (h _ (List.mem_map_of_mem hmem))

theorem uniform_of_length (h : Clean breaks M (lines text))
    (hle : (left M text).length ≤ (others M text).flatten.length) :
    Uniform breaks M (lines text) := by
  refine h.uniform ?_
  rw [← splitlines_eq]
  exact hle

theorem left_of_uniform (h : Uniform breaks M (lines text)) :
    left M text = (others M text).flatten := by
  rw [left, splitlines_eq, h.filter, flatten_flatMap_cut]
  rfl

theorem others_marked {out : PyStr} (h : ∀ l ∈ lines out, M l = false) :
    lines out = others M out :=
  (filter_unmarked h).symm

theorem not_of_mem_others (h : l ∈ others M text) : M l = false :=
  (Bool.not_eq_true' _).mp (List.mem_filter.mp h).2

-- ---------------------------------------------------------------------------
-- Completed lines
-- ---------------------------------------------------------------------------

variable {n : PyStr}

theorem mark_complete (h : Marked M) (l : PyStr) : M (complete l) = M l := by
  unfold complete
  split
  · rfl
  · exact h.snoc l

theorem marks_complete (h : Marked M) (l : PyStr) :
    marks breaks M (complete l) = marks breaks M l := by
  unfold complete
  split
  · rfl
  · exact h.marks_snoc l

theorem lines_complete (h : lines l = [l]) : lines (complete l) = [complete l] := by
  unfold complete
  split
  · exact h
  · rename_i hends
    rcases cut_snoc newlines l nl with hcut | ⟨ps, p, hshort, hlong⟩
    · have hpairwise := cut_pairwise newlines (l ++ [nl])
      rw [hcut, show cut newlines l = [l] from h] at hpairwise
      obtain ⟨a, c, rfl, _, hc⟩ :=
        (List.pairwise_append.mp hpairwise).2.2 l (List.mem_singleton_self l) _
          (List.mem_singleton_self _)
      exact absurd (endsNl_iff.mpr ⟨a, c, rfl, eq_of_beq hc⟩) hends
    · rw [show cut newlines l = [l] from h] at hshort
      obtain ⟨rfl, hp⟩ : ps = [] ∧ p = l := by
        cases ps with
        | nil => exact ⟨rfl, (List.singleton_inj.mp hshort).symm⟩
        | cons q qs => simp at hshort
      rw [hp] at hlong
      exact hlong

theorem mem_completeLast (h : Rows ls) (hl : l ∈ completeLast ls) : ∃ l' ∈ ls, l = complete l' := by
  rw [← map_complete h] at hl
  obtain ⟨l', hl', rfl⟩ := List.mem_map.mp hl
  exact ⟨l', hl', rfl⟩

theorem filter_completeLast (h : Marked M) (hls : Rows ls) :
    (completeLast ls).filter (!M ·) = (ls.filter (!M ·)).map complete ∧
      (completeLast ls).filter M = (ls.filter M).map complete := by
  rw [← map_complete hls, List.filter_map, List.filter_map]
  have hmark : M ∘ complete = M := funext fun l => mark_complete h l
  have hnot : (fun l => !M l) ∘ complete = fun l => !M l :=
    funext fun l => congrArg (! ·) (mark_complete h l)
  rw [hmark, hnot]
  exact ⟨rfl, rfl⟩

/-- Completing a line of no mark marks no piece. -/
theorem clean_complete (h : Marked M) (hl : ∀ q ∈ cut breaks l, M q = false) :
    ∀ q ∈ cut breaks (complete l), M q = false := by
  rw [← marks_eq_zero] at hl ⊢
  rw [marks_complete h, hl]

/-- The completed lines with one more. -/
theorem lines_completed (hends : Ends (· = nl) n) (hsingle : lines n = [n]) (text : PyStr) :
    lines (completeLast (lines text) ++ [n]).flatten = completeLast (lines text) ++ [n] := by
  have hcompleted : ∀ l ∈ completeLast (lines text) ++ [n], l = n ∨
      ∃ l' ∈ lines text, l = complete l' := by
    intro l hl
    rcases List.mem_append.mp hl with hl | hl
    · exact .inr (mem_completeLast (rows_lines text) hl)
    · exact .inl (List.mem_singleton.mp hl)
  refine lines_flatten ?_ fun l hl => ?_
  · refine List.pairwise_of_forall_mem_list fun l hl _ _ => ?_
    rcases hcompleted l hl with rfl | ⟨l', -, rfl⟩
    · exact hends
    · exact ends_complete l'
  · rcases hcompleted l hl with rfl | ⟨l', hl', rfl⟩
    · exact hsingle
    · exact lines_complete (lines_of_mem hl')

theorem sum_marks_complete (h : Marked M) (ls : List PyStr) :
    ((ls.map complete).map (marks breaks M)).sum = (ls.map (marks breaks M)).sum := by
  rw [List.map_map]
  exact congrArg (fun f => (ls.map f).sum) (funext fun l => marks_complete h l)

theorem unmarked_of_not_any {ps : List PyStr} (h : ¬ ps.any M = true) : ∀ p ∈ ps, M p = false :=
  fun p hp => Bool.eq_false_iff.mpr fun hmark => h (List.any_eq_true.mpr ⟨p, hp, hmark⟩)

theorem mem_splitlines {q : PyStr} (hl : l ∈ lines text) (hq : q ∈ cut breaks l) :
    q ∈ splitlines text := by
  rw [splitlines_eq]
  exact List.mem_flatMap.mpr ⟨l, hl, hq⟩

/-- An unmarked line at the end is at the end of what is left. -/
theorem endsNl_left (hclean : Clean breaks M (lines text))
    (hne : (others M text).flatten ≠ []) (hends : endsNl (others M text).flatten = false) :
    endsNl (left M text) = false := by
  have hrows := rows_lines text
  have hnonempty : ∀ l ∈ lines text, l ≠ [] := fun _ hl => ne_nil_of_mem_lines hl
  unfold left others at *
  rw [splitlines_eq]
  rcases List.eq_nil_or_concat (lines text) with hnil | ⟨init, last, hlines⟩
  · rw [hnil] at hne
    exact absurd rfl hne
  · rw [List.concat_eq_append] at hlines
    rw [hlines] at hclean hrows hne hends hnonempty ⊢
    have hlast : last ∈ init ++ [last] := List.mem_append_right _ (List.mem_singleton_self last)
    rw [List.filter_append] at hne hends
    rw [List.flatMap_append, List.filter_append, List.flatten_append]
    cases hmark : M last with
    | false =>
      have hpieces : (([last].flatMap (cut breaks)).filter (!M ·)).flatten = last := by
        rw [List.flatMap_cons, List.flatMap_nil, List.append_nil]
        exact rest_of_unmarked (hclean last hlast hmark)
      have hfilter : [last].filter (!M ·) = [last] := by
        rw [List.filter_cons_of_pos (by rw [hmark]; rfl)]
        rfl
      rw [hfilter, List.flatten_append, List.flatten_singleton,
        endsNl_append (hnonempty last hlast)] at hends
      rw [hpieces, endsNl_append (hnonempty last hlast), hends]
    | true =>
      have hfilter : [last].filter (!M ·) = [] := by
        rw [List.filter_cons_of_neg (by rw [hmark]; exact Bool.false_ne_true)]
        rfl
      rw [hfilter, List.append_nil] at hne hends
      rcases List.eq_nil_or_concat (init.filter (!M ·)) with hnil | ⟨before, l, hbefore⟩
      · rw [hnil] at hne
        exact absurd rfl hne
      · rw [List.concat_eq_append] at hbefore
        have hl : l ∈ init := by
          have hmem : l ∈ init.filter (!M ·) := by
            rw [hbefore]
            exact List.mem_append_right _ (List.mem_singleton_self l)
          exact (List.mem_filter.mp hmem).1
        have hended : endsNl l = true := by
          refine endsNl_iff.mpr ?_
          exact (List.pairwise_append.mp hrows).2.2 l hl last (List.mem_singleton_self last)
        rw [hbefore, List.flatten_append, List.flatten_singleton,
          endsNl_append (hnonempty l (List.mem_append_left _ hl)), hended] at hends
        cases hends

/-- Completed to the same, what is left is no longer than the other lines. -/
theorem left_le_of_completed (hclean : Clean breaks M (lines text))
    (h : (completeLast ((splitlines text).filter (!M ·))).flatten =
      (completeLast (others M text)).flatten) :
    (left M text).length ≤ (others M text).flatten.length := by
  have hpieces : ∀ p ∈ (splitlines text).filter (!M ·), p ≠ [] :=
    fun p hp => ne_nil_of_mem_cut (List.mem_filter.mp hp).1
  have hlines : ∀ l ∈ others M text, l ≠ [] :=
    fun l hl => ne_nil_of_mem_lines (List.mem_filter.mp hl).1
  rw [flatten_completeLast hpieces, flatten_completeLast hlines] at h
  change (if left M text = [] then [] else complete (left M text)) = _ at h
  by_cases hnil : left M text = []
  · rw [hnil]
    exact Nat.zero_le _
  · have hcomplete : ∀ l : PyStr, l ≠ [] → complete l ≠ [] := by
      intro l hl
      unfold complete
      split
      · exact hl
      · exact List.append_ne_nil_of_right_ne_nil _ (List.cons_ne_nil _ _)
    rw [if_neg hnil] at h
    by_cases hother : (others M text).flatten = []
    · rw [if_pos hother] at h
      exact absurd h (hcomplete _ hnil)
    · rw [if_neg hother] at h
      cases hends : endsNl (others M text).flatten with
      | true =>
        have hlong : (left M text).length ≤ (complete (left M text)).length := by
          unfold complete
          split
          · exact Nat.le_refl _
          · rw [List.length_append]
            exact Nat.le_add_right _ _
        rw [h, complete, if_pos hends] at hlong
        exact hlong
      | false =>
        have hboth := endsNl_left hclean hother hends
        rw [complete, complete, hboth, hends] at h
        simp only [Bool.false_eq_true, if_false] at h
        exact Nat.le_of_eq (congrArg List.length (List.append_cancel_right h))

end ConfigFile
