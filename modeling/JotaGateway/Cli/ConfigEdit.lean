-- SUMMARY: `config set` and `config unset`: an edit keeps to its lines where the pieces of each line are all assignments or none.
import JotaGateway.Cli.ConfigLines

/-!
# Editing a setting

The contracts of `unset` and `set` are about the lines of the text before and
after, and hold exactly where each line is of one piece with its mark.
-/

namespace ConfigFile

open Cuts

variable {M : PyStr → Bool} {text : PyStr} {ls : List PyStr} {l : PyStr}

-- ---------------------------------------------------------------------------
-- The marks of the two edits
-- ---------------------------------------------------------------------------

theorem Name.nl_not_mem (key : Name) : nl ∉ key.text := fun h => by cases key.chars _ h

theorem marked_assigns (key : Name) : Marked (assigns key) := by
  refine marked_of_snoc ?_ fun l => lineMatch_snoc l key.nonempty key.nl_not_mem
  rw [assigns, lineMatch_nil key.nonempty]
  rfl

-- ---------------------------------------------------------------------------
-- `config unset`
-- ---------------------------------------------------------------------------

variable {key : Name}

theorem foldl_done (key : Name) (value : PyStr) (out ps : List PyStr) :
    ps.foldl (editLine key value) { out := out, done := true } =
      { out := out ++ ps.filter (!assigns key ·), done := true } := by
  induction ps generalizing out with
  | nil => rw [List.foldl_nil, List.filter_nil, List.append_nil]
  | cons p ps ih =>
    rw [List.foldl_cons, editLine, List.filter_cons]
    cases assigns key p with
    | true =>
      simp only [Bool.not_true, Bool.false_eq_true, if_false]
      exact ih out
    | false =>
      simp only [Bool.not_false, if_true]
      rw [ih, List.append_assoc, List.singleton_append]

theorem edit_none (text : PyStr) (key : Name) : edit text key none = left (assigns key) text := by
  unfold edit
  dsimp only [Option.isNone_none]
  rw [foldl_done, List.nil_append]
  rfl

/-- The other lines are the same, and none assigns the name. -/
structure Unset (key : Name) (text : PyStr) : Prop where
  kept : others (assigns key) (edit text key none) = others (assigns key) text
  gone : ∀ l ∈ lines (edit text key none), assigns key l = false
  again : edit (edit text key none) key none = edit text key none

theorem unset_iff (key : Name) (text : PyStr) :
    Unset key text ↔ Uniform breaks (assigns key) (lines text) := by
  have hmarked : Marked (assigns key) := marked_assigns key
  constructor
  · rintro ⟨hkept, hgone, -⟩
    have hout : left (assigns key) text = (others (assigns key) text).flatten := by
      rw [← hkept, ← others_marked hgone, flatten_lines, edit_none]
    have hmarks := marks_left hmarked text
    rw [hout, marks_rows hmarked (rows_others _ _)] at hmarks
    exact uniform_of_length (clean_of_marks hmarks) (Nat.le_of_eq (congrArg List.length hout))
  · intro h
    have hout : edit text key none = (others (assigns key) text).flatten := by
      rw [edit_none, left_of_uniform h]
    have hlines : lines (edit text key none) = others (assigns key) text := by
      rw [hout, lines_others]
    refine ⟨?_, ?_, ?_⟩
    · rw [others, hlines]
      exact filter_unmarked fun l hl => not_of_mem_others hl
    · rw [hlines]
      exact fun l hl => not_of_mem_others hl
    · have hunmarked : others (assigns key) (edit text key none) = lines (edit text key none) := by
        refine filter_unmarked fun l hl => ?_
        rw [hlines] at hl
        exact not_of_mem_others hl
      have huniform : Uniform breaks (assigns key) (lines (edit text key none)) := by
        rw [hlines]
        exact fun l hl => h l (List.mem_filter.mp hl).1
      rw [edit_none _ key, left_of_uniform huniform, hunmarked, flatten_lines]

-- ---------------------------------------------------------------------------
-- The line that is written
-- ---------------------------------------------------------------------------

theorem isSpace_of_nameChar {c : Nat} (h : isNameChar c = true) : isSpace c = false := by
  unfold isNameChar at h
  unfold isSpace
  simp only [Bool.or_eq_true, Bool.and_eq_true, decide_eq_true_eq, beq_iff_eq] at h
  simp only [Bool.or_eq_false_iff, Bool.and_eq_false_iff, decide_eq_false_iff_not,
    beq_eq_false_iff_ne]
  omega

theorem isSpace_of_break {c : Nat} (h : isBreak c = true) : isSpace c = true := by
  unfold isBreak at h
  unfold isSpace
  simp only [Bool.or_eq_true, Bool.and_eq_true, decide_eq_true_eq, beq_iff_eq] at h ⊢
  omega

/-- The name and its `=` assign it, whatever follows. -/
theorem assigns_of_prefix (key : Name) (rest : PyStr) : assigns key (key.text ++ 0x3D :: rest) = true := by
  have hstart : dropSpace (key.text ++ 0x3D :: rest) = key.text ++ 0x3D :: rest := by
    obtain ⟨c, name, hname⟩ := List.exists_cons_of_ne_nil key.nonempty
    have hc : isSpace c = false := isSpace_of_nameChar (key.chars c (hname ▸ List.mem_cons_self))
    rw [hname, List.cons_append, dropSpace, List.dropWhile_cons, hc]
    rfl
  have hname : (nameThen key.text (key.text ++ 0x3D :: rest)).isSome = true := by
    rw [isSome_nameThen, stripWord_append]
    rfl
  rw [assigns, isSome_lineMatch, hstart, hname, Bool.or_true]

theorem nl_not_mem_quote (value : Value) : nl ∉ quote value.text := by
  have hescape : ∀ c, nl ∈ escape c → c = nl := by
    intro c hc
    unfold escape at hc
    split at hc
    · rcases List.mem_cons.mp hc with hbackslash | hc
      · cases hbackslash
      · exact (List.mem_singleton.mp hc).symm
    · exact (List.mem_singleton.mp hc).symm
  unfold quote
  split
  · exact value.noNewline
  · intro h
    rcases List.mem_append.mp h with h | h
    · rcases List.mem_cons.mp h with hquote | h
      · cases hquote
      · obtain ⟨c, hc, hmem⟩ := List.mem_flatMap.mp h
        exact value.noNewline (hescape c hmem ▸ hc)
    · cases List.mem_singleton.mp h

theorem lines_snoc {a : PyStr} (h : nl ∉ a) : lines (a ++ [nl]) = [a ++ [nl]] := by
  induction a with
  | nil => rfl
  | cons c a ih =>
    rw [List.mem_cons, not_or] at h
    exact cut_cons_of_not_stop (beq_eq_false_iff_ne.mpr (Ne.symm h.1)) (ih h.2)

variable {value : Value}

theorem assignment_eq (key : Name) (value : PyStr) :
    assignment key value = (key.text ++ 0x3D :: quote value) ++ [nl] := by
  rw [assignment, List.append_assoc, List.cons_append]

theorem ends_assignment (key : Name) (value : PyStr) : Ends (· = nl) (assignment key value) :=
  ⟨_, nl, assignment_eq key value, rfl⟩

theorem lines_assignment (key : Name) (value : Value) :
    lines (assignment key value.text) = [assignment key value.text] := by
  rw [assignment_eq]
  refine lines_snoc fun h => ?_
  rcases List.mem_append.mp h with h | h
  · exact key.nl_not_mem h
  · rcases List.mem_cons.mp h with hequals | h
    · cases hequals
    · exact nl_not_mem_quote value h

theorem assigns_assignment (key : Name) (value : PyStr) : assigns key (assignment key value) = true :=
  assigns_of_prefix key _

/-- The first piece of the line assigns the name. -/
theorem any_assignment (key : Name) (value : PyStr) :
    (splitlines (assignment key value)).any (assigns key) = true := by
  have hcalm : ∀ c ∈ key.text ++ [0x3D], ∀ next, breaks c next = false := by
    intro c hc next
    have hspace : isSpace c = false := by
      rcases List.mem_append.mp hc with hc | hc
      · exact isSpace_of_nameChar (key.chars c hc)
      · rw [List.mem_singleton.mp hc]
        rfl
    refine Bool.eq_false_iff.mpr fun hbreak => ?_
    rw [isSpace_of_break (soft_of_breaks hbreak)] at hspace
    cases hspace
  have hne : quote value ++ [nl] ≠ [] := List.append_ne_nil_of_right_ne_nil _ (List.cons_ne_nil _ _)
  obtain ⟨p, ps, hcut⟩ := cut_prefix hcalm hne
  rw [List.append_assoc, List.singleton_append] at hcut
  rw [splitlines, assignment, hcut, List.any_cons, List.append_assoc, List.singleton_append,
    assigns_of_prefix, Bool.true_or]

-- ---------------------------------------------------------------------------
-- `config set`
-- ---------------------------------------------------------------------------

theorem foldl_editLine (key : Name) (value : PyStr) (out ps : List PyStr) :
    ps.foldl (editLine key value) { out := out, done := false } =
      if ps.any (assigns key) then
        { out := out ++ replaceFirst (assigns key) (assignment key value) ps, done := true }
      else { out := out ++ ps, done := false } := by
  induction ps generalizing out with
  | nil => rw [List.foldl_nil, List.any_nil, List.append_nil]; rfl
  | cons p ps ih =>
    rw [List.foldl_cons, editLine, List.any_cons, replaceFirst]
    cases assigns key p with
    | true =>
      simp only [Bool.not_true, Bool.false_eq_true, if_false, Bool.not_false, if_true, Bool.true_or]
      rw [foldl_done, List.append_assoc, List.singleton_append]
    | false =>
      simp only [Bool.not_false, if_true, Bool.false_or, Bool.false_eq_true, if_false]
      rw [ih]
      simp only [List.append_assoc, List.singleton_append]

/-- With `n` in the place of the first marked part, or last. -/
def edited (M : PyStr → Bool) (n : PyStr) (ps : List PyStr) : List PyStr :=
  if ps.any M then replaceFirst M n ps else completeLast ps ++ [n]

theorem edit_some (text : PyStr) (key : Name) (value : PyStr) :
    edit text key (some value) =
      (edited (assigns key) (assignment key value) (splitlines text)).flatten := by
  unfold edit edited
  dsimp only [Option.isNone_some, Option.getD_some]
  rw [foldl_editLine, List.nil_append, List.nil_append]
  split <;> rfl

/-- A line that is written for a mark: it has the mark, and so has one of its pieces. -/
structure Written (M : PyStr → Bool) (n : PyStr) : Prop where
  marked : Marked M
  mark : M n = true
  ends : Ends (· = nl) n
  single : lines n = [n]
  piece : (splitlines n).any M = true

theorem written_assignment (key : Name) (value : Value) :
    Written (assigns key) (assignment key value.text) :=
  ⟨marked_assigns key, assigns_assignment key _, ends_assignment key _, lines_assignment key value,
    any_assignment key _⟩

namespace Written

variable {n : PyStr}

theorem lines_edited (w : Written M n) (text : PyStr) :
    lines (edited M n (lines text)).flatten = edited M n (lines text) := by
  unfold edited
  split
  · refine lines_flatten (pairwise_replaceFirst w.ends (rows_lines text)) fun l hl => ?_
    rcases mem_replaceFirst hl with rfl | ⟨hl, -⟩
    · exact w.single
    · exact lines_of_mem hl
  · exact lines_completed w.ends w.single text

theorem filter_edited (w : Written M n) (text : PyStr) :
    (edited M n (lines text)).filter M = [n] ∧
      (edited M n (lines text)).filter (!M ·) =
        if (lines text).any M then others M text else (others M text).map complete := by
  unfold edited
  split
  · rename_i hany
    exact ⟨filter_replaceFirst w.mark hany, filter_not_replaceFirst w.mark⟩
  · rename_i hnone
    have hcompleted := filter_completeLast w.marked (rows_lines text)
    have hmarks : (lines text).filter M = [] := by
      rw [List.filter_eq_nil_iff]
      exact fun l hl hmark => hnone (List.any_eq_true.mpr ⟨l, hl, hmark⟩)
    rw [List.filter_append, List.filter_append, hcompleted.1, hcompleted.2, hmarks,
      List.filter_cons_of_pos w.mark, List.filter_cons_of_neg (by simp [w.mark])]
    exact ⟨rfl, List.append_nil _⟩

theorem findIdx_edited (w : Written M n) (text : PyStr) :
    (edited M n (lines text)).findIdx M = (lines text).findIdx M := by
  unfold edited
  split
  · exact findIdx_replaceFirst w.mark
  · rename_i hnone
    have hunmarked : ∀ l ∈ lines text, M l = false := by
      intro l hl
      refine Bool.eq_false_iff.mpr fun hmark => hnone (List.any_eq_true.mpr ⟨l, hl, hmark⟩)
    rw [← map_complete (rows_lines text), List.findIdx_append, List.findIdx_map]
    have hmark : M ∘ complete = M := funext fun l => mark_complete w.marked l
    rw [hmark, List.findIdx_eq_length_of_false hunmarked, List.length_map, if_neg (Nat.lt_irrefl _),
      List.findIdx_singleton, w.mark, if_pos rfl, Nat.zero_add]

theorem edited_edited (w : Written M n) (ps : List PyStr) (hps : Rows ps) :
    edited M n (edited M n ps) = edited M n ps := by
  have hany : (edited M n ps).any M = true := by
    refine List.any_eq_true.mpr ⟨n, ?_, w.mark⟩
    unfold edited
    split
    · rename_i hany
      exact (replaceFirst_perm hany).mem_iff.mpr List.mem_cons_self
    · exact List.mem_append_right _ (List.mem_singleton_self n)
  have hreplace : replaceFirst M n (edited M n ps) = edited M n ps := by
    unfold edited
    split
    · exact replaceFirst_replaceFirst w.mark
    · rename_i hnone
      refine (replaceFirst_append_of_unmarked fun l hl => ?_).trans ?_
      · obtain ⟨l', hl', rfl⟩ := mem_completeLast hps hl
        rw [mark_complete w.marked]
        exact Bool.eq_false_iff.mpr fun hmark => hnone (List.any_eq_true.mpr ⟨l', hl', hmark⟩)
      · rw [replaceFirst, if_pos w.mark]
        rfl
  rw [edited, if_pos hany, hreplace]

/-- Line by line or piece by piece. -/
theorem flatten_edited (h : Uniform breaks M (lines text)) :
    (edited M n (splitlines text)).flatten = (edited M n (lines text)).flatten := by
  have hne : ∀ l ∈ lines text, l ≠ [] := fun _ hl => ne_nil_of_mem_lines hl
  unfold edited
  rw [splitlines_eq, h.any hne]
  split
  · exact h.replaceFirst hne
  · rw [List.flatten_append, List.flatten_append,
      flatten_completeLast_congr (flatten_flatMap_cut (lines text)) ?_ hne]
    intro p hp
    obtain ⟨l, -, hp⟩ := List.mem_flatMap.mp hp
    exact ne_nil_of_mem_cut hp

theorem uniform_edited (w : Written M n) (h : Uniform breaks M (lines text))
    (hn : ∀ q ∈ splitlines n, M q = true) : Uniform breaks M (edited M n (lines text)) := by
  intro l hl
  have hwritten : l = n → ∀ q ∈ cut breaks l, M q = M l := by
    rintro rfl q hq
    rw [w.mark]
    exact hn q hq
  unfold edited at hl
  split at hl
  · rcases mem_replaceFirst hl with heq | ⟨hl, -⟩
    · exact hwritten heq
    · exact h l hl
  · rename_i hnone
    rcases List.mem_append.mp hl with hl | hl
    · obtain ⟨l', hl', rfl⟩ := mem_completeLast (rows_lines text) hl
      have hunmarked : M l' = false :=
        Bool.eq_false_iff.mpr fun hmark => hnone (List.any_eq_true.mpr ⟨l', hl', hmark⟩)
      intro q hq
      rw [mark_complete w.marked, hunmarked]
      exact clean_complete w.marked (fun q hq => (h l' hl' q hq).trans hunmarked) q hq
    · exact hwritten (List.mem_singleton.mp hl)

/-- The pieces of the written line count, and no others. -/
theorem marks_replaceFirst (w : Written M n) (hany : (splitlines text).any M = true) :
    marks breaks M (replaceFirst M n (splitlines text)).flatten = marks breaks M n := by
  have hsoft : Ends Soft n := by
    obtain ⟨a, c, rfl, rfl⟩ := w.ends
    exact ⟨a, nl, rfl, rfl⟩
  have hperm := (replaceFirst_perm (n := n) hany).map (marks breaks M)
  rw [w.marked.marks_flatten (pairwise_replaceFirst hsoft (pairwise_splitlines text)),
    hperm.sum_nat, List.map_cons, List.sum_cons, sum_marks_filter fun _ hp => hp, Nat.add_zero]

end Written

/-- Exactly one line assigns the name, the one written, where the first assignment was or last,
and the other lines are the same. -/
structure IsSet (key : Name) (value : Value) (text : PyStr) : Prop where
  kept : others (assigns key) (edit text key (some value.text)) =
    if (lines text).any (assigns key) then others (assigns key) text
    else (others (assigns key) text).map complete
  once : (lines (edit text key (some value.text))).filter (assigns key) =
    [assignment key value.text]
  place : (lines (edit text key (some value.text))).findIdx (assigns key) =
    (lines text).findIdx (assigns key)
  again : edit (edit text key (some value.text)) key (some value.text) =
    edit text key (some value.text)

theorem isSet_of_uniform (h : Uniform breaks (assigns key) (lines text))
    (hn : ∀ q ∈ splitlines (assignment key value.text), assigns key q = true) :
    IsSet key value text := by
  have w : Written (assigns key) (assignment key value.text) := written_assignment key value
  have hout : edit text key (some value.text) =
      (edited (assigns key) (assignment key value.text) (lines text)).flatten := by
    rw [edit_some, Written.flatten_edited h]
  have hlines : lines (edit text key (some value.text)) =
      edited (assigns key) (assignment key value.text) (lines text) := by
    rw [hout, w.lines_edited]
  have huniform : Uniform breaks (assigns key) (lines (edit text key (some value.text))) := by
    rw [hlines]
    exact w.uniform_edited h hn
  refine ⟨?_, ?_, ?_, ?_⟩
  · rw [others, hlines, (w.filter_edited text).2]
  · rw [hlines, (w.filter_edited text).1]
  · rw [hlines, w.findIdx_edited]
  · rw [edit_some _ key, Written.flatten_edited huniform, hlines,
      w.edited_edited _ (rows_lines text), ← hout]

theorem length_replaceFirst {n : PyStr} {ps : List PyStr} (hany : ps.any M = true) :
    (replaceFirst M n ps).flatten.length = n.length + (ps.filter (!M ·)).flatten.length := by
  rw [(replaceFirst_perm hany).flatten.length_eq, List.flatten_cons, List.length_append]

/-- The lines of a text are the written one and the others. -/
theorem perm_lines {n : PyStr} {out : PyStr} (h : (lines out).filter M = [n]) :
    (lines out).Perm (n :: others M out) := by
  have hperm := (List.filter_append_perm M (lines out)).symm
  rw [h] at hperm
  exact hperm

theorem IsSet.uniform (h : IsSet key value text) : Uniform breaks (assigns key) (lines text) := by
  obtain ⟨hkept, honce, -, -⟩ := h
  have w : Written (assigns key) (assignment key value.text) := written_assignment key value
  rw [edit_some, edited] at hkept honce
  split at hkept
  · rename_i hany
    rw [if_pos hany] at honce
    have hperm := perm_lines honce
    have hmarks := w.marks_replaceFirst hany
    rw [marks_lines w.marked, (hperm.map _).sum_nat, List.map_cons, List.sum_cons] at hmarks
    have hzero : ((others (assigns key) text).map (marks breaks (assigns key))).sum = 0 := by
      rw [hkept] at hmarks
      split at hmarks
      · omega
      · rw [sum_marks_complete w.marked] at hmarks
        omega
    have hclean := clean_of_marks hzero
    split at hkept
    · refine uniform_of_length hclean ?_
      have hlength := hperm.flatten.length_eq
      rw [flatten_lines, length_replaceFirst hany, hkept, List.flatten_cons, List.length_append]
        at hlength
      exact Nat.le_of_eq (Nat.add_left_cancel hlength)
    · rename_i hnone
      intro l hl q hq
      rw [unmarked_of_not_any hnone l hl]
      exact hclean l hl (unmarked_of_not_any hnone l hl) q hq
  · rename_i hnone
    rw [if_neg hnone] at honce
    have hne : ∀ l ∈ lines text, l ≠ [] := fun _ hl => ne_nil_of_mem_lines hl
    have hpieces : (completeLast (splitlines text)).flatten = (completeLast (lines text)).flatten := by
      refine flatten_completeLast_congr ?_ (fun p hp => ne_nil_of_mem_cut hp) hne
      rw [splitlines, flatten_cut, flatten_lines]
    have hout : (completeLast (splitlines text) ++ [assignment key value.text]).flatten =
        (completeLast (lines text) ++ [assignment key value.text]).flatten := by
      rw [List.flatten_append, hpieces, List.flatten_append]
    rw [hout, lines_completed w.ends w.single, List.filter_append,
      (filter_completeLast w.marked (rows_lines text)).2, List.filter_cons_of_pos w.mark] at honce
    have hgone : (lines text).filter (assigns key) = [] := by
      simpa using honce
    have hunmarked : ∀ l ∈ lines text, assigns key l = false := fun l hl =>
      Bool.eq_false_iff.mpr fun hmark => List.filter_eq_nil_iff.mp hgone l hl hmark
    intro l hl q hq
    rw [hunmarked l hl]
    exact unmarked_of_not_any hnone q (mem_splitlines hl hq)

/-- Set once more, the written line is taken for its pieces. -/
theorem IsSet.pieces (h : IsSet key value text) :
    ∀ q ∈ splitlines (assignment key value.text), assigns key q = true := by
  have w : Written (assigns key) (assignment key value.text) := written_assignment key value
  have hperm := perm_lines h.once
  have hmem : assignment key value.text ∈ lines (edit text key (some value.text)) :=
    hperm.mem_iff.mpr List.mem_cons_self
  have hclean : Clean breaks (assigns key) (lines (edit text key (some value.text))) := by
    intro l hl hmark
    have hother : l ∈ others (assigns key) (edit text key (some value.text)) :=
      List.mem_filter.mpr ⟨hl, by rw [hmark]; rfl⟩
    rw [h.kept] at hother
    have hold : ∀ l ∈ others (assigns key) text, ∀ q ∈ cut breaks l, assigns key q = false := by
      intro l hl q hq
      rw [h.uniform l (List.mem_filter.mp hl).1 q hq]
      exact not_of_mem_others hl
    split at hother
    · exact hold l hother
    · obtain ⟨l', hl', rfl⟩ := List.mem_map.mp hother
      exact clean_complete w.marked (hold l' hl')
  have huniform : Uniform breaks (assigns key) (lines (edit text key (some value.text))) := by
    refine uniform_of_length hclean ?_
    have hany : (splitlines (edit text key (some value.text))).any (assigns key) = true := by
      obtain ⟨q, hq, hmark⟩ := List.any_eq_true.mp w.piece
      exact List.any_eq_true.mpr ⟨q, mem_splitlines hmem hq, hmark⟩
    have hagain := congrArg List.length h.again
    rw [edit_some _ key, edited, if_pos hany, length_replaceFirst hany] at hagain
    have hlength := hperm.flatten.length_eq
    rw [flatten_lines, List.flatten_cons, List.length_append] at hlength
    exact Nat.le_of_eq (Nat.add_left_cancel (hagain.trans hlength))
  intro q hq
  rw [huniform _ hmem q hq]
  exact w.mark

end ConfigFile
