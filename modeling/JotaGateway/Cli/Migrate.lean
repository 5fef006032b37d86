-- SUMMARY: `_convert_env` of the Docker migration, and when the three edits of `config.env` keep to their lines.
import JotaGateway.Cli.ConfigEdit

/-!
# Migrating from Docker

The migration drops the settings only compose uses, and adds the log format
the image had set.
-/

namespace ConfigFile

open Cuts

variable {text : PyStr}

theorem marked_dropped : Marked dropped := by
  refine marked_of_snoc rfl fun l => ?_
  have hname : ∀ name ∈ drop, (lineMatch name (l ++ [nl])).isSome = (lineMatch name l).isSome := by
    intro name hname
    have hok : ∀ name ∈ drop, name ≠ [] ∧ nl ∉ name := by decide
    exact lineMatch_snoc l (hok name hname).1 (hok name hname).2
  unfold dropped dropMatch
  rw [List.isSome_findSome?, List.isSome_findSome?, Bool.eq_iff_iff, List.any_eq_true,
    List.any_eq_true]
  exact exists_congr fun name => and_congr_right fun hmem => by rw [hname name hmem]

-- ---------------------------------------------------------------------------
-- The Docker migration
-- ---------------------------------------------------------------------------

def addedLine : PyStr := added ++ [nl]

/-- The pieces the migration keeps. -/
def keptPieces (text : PyStr) : List PyStr := (splitlines text).filter (!dropped ·)

theorem convertEnv_eq (text : PyStr) : convertEnv text =
    if (keptPieces text).any assignsAdded then
      { text := left dropped text, dropped := (splitlines text).filterMap dropMatch, added := [] }
    else
      { text := (completeLast (keptPieces text) ++ [addedLine]).flatten
        dropped := (splitlines text).filterMap dropMatch
        added := [added] } := by
  have hkept : (splitlines text).filter (fun line => (dropMatch line).isNone) = keptPieces text :=
    List.filter_congr fun line _ => by rw [dropped, Option.not_isSome]
  unfold convertEnv
  dsimp only
  rw [hkept]
  rfl

theorem dropped_addedLine : dropped addedLine = false := by decide

theorem splitlines_addedLine : splitlines addedLine = [addedLine] := by decide

theorem lines_addedLine : lines addedLine = [addedLine] := by decide

theorem assignsAdded_addedLine : assignsAdded addedLine = true := by decide

theorem ends_addedLine : Ends (· = nl) addedLine := ⟨added, nl, rfl, rfl⟩

/-- The other lines are the same, with `LOG_FORMAT` last where it is reported as added, and
none assigns a dropped name. -/
structure Migrated (text : PyStr) : Prop where
  kept : others dropped (convertEnv text).text =
    (if (convertEnv text).added = [] then others dropped text
      else (others dropped text).map complete) ++ (convertEnv text).added.map (· ++ [nl])
  gone : ∀ l ∈ lines (convertEnv text).text, dropped l = false
  again : (convertEnv (convertEnv text).text).text = (convertEnv text).text

theorem marks_addedLine : marks breaks dropped addedLine = 0 := by decide

/-- What is added has no dropped piece. -/
theorem marks_added (text : PyStr) :
    marks breaks dropped (completeLast (keptPieces text) ++ [addedLine]).flatten = 0 := by
  have hpieces : ∀ p ∈ keptPieces text, p ≠ [] :=
    fun p hp => ne_nil_of_mem_cut (List.mem_filter.mp hp).1
  rw [List.flatten_append, List.flatten_singleton, flatten_completeLast hpieces]
  split
  · exact marks_addedLine
  · obtain ⟨a, c, heq, rfl⟩ := ends_complete (keptPieces text).flatten
    have hleft : marks breaks dropped (a ++ [nl]) = 0 := by
      rw [← heq, marks_complete marked_dropped]
      exact marks_left marked_dropped text
    rw [heq, List.append_assoc, List.singleton_append, marked_dropped.marks_append rfl, hleft,
      marks_addedLine]

theorem Migrated.uniform (h : Migrated text) : Uniform breaks dropped (lines text) := by
  obtain ⟨hkept, hgone, -⟩ := h
  have hout := others_marked hgone
  rw [hkept, convertEnv_eq] at hout
  split at hout
  · rw [if_pos rfl, List.map_nil, List.append_nil] at hout
    have hleft : left dropped text = (others dropped text).flatten := by
      rw [← hout, flatten_lines]
    have hmarks := marks_left marked_dropped text
    rw [hleft, marks_rows marked_dropped (rows_others _ _)] at hmarks
    exact uniform_of_length (clean_of_marks hmarks) (Nat.le_of_eq (congrArg List.length hleft))
  · rw [if_neg (List.cons_ne_nil _ _)] at hout
    have hlines : lines (completeLast (keptPieces text) ++ [addedLine]).flatten =
        (others dropped text).map complete ++ [addedLine] := hout
    have hmarks := marks_added text
    rw [marks_lines marked_dropped, hlines, List.map_append, List.sum_append_nat,
      sum_marks_complete marked_dropped] at hmarks
    have hflatten := congrArg List.flatten hlines
    rw [flatten_lines, List.flatten_append, List.flatten_append,
      map_complete (rows_others _ _)] at hflatten
    have hclean : Clean breaks dropped (lines text) := clean_of_marks (by omega)
    exact uniform_of_length hclean
      (left_le_of_completed hclean (List.append_cancel_right hflatten))

/-- Migrated once, the text has nothing to drop, and `LOG_FORMAT` is there. -/
theorem convertEnv_again (hlines : ∀ l ∈ lines text, ∀ q ∈ cut breaks l, dropped q = false)
    (hadded : (splitlines text).any assignsAdded = true) : (convertEnv text).text = text := by
  have hpieces : ∀ q ∈ splitlines text, dropped q = false := by
    intro q hq
    rw [splitlines_eq] at hq
    obtain ⟨l, hl, hq⟩ := List.mem_flatMap.mp hq
    exact hlines l hl q hq
  have hkept : keptPieces text = splitlines text := filter_unmarked hpieces
  rw [convertEnv_eq, hkept, if_pos hadded]
  dsimp only
  rw [left, filter_unmarked hpieces]
  exact flatten_cut _ _

theorem migrated_of_uniform (h : Uniform breaks dropped (lines text)) : Migrated text := by
  have hclean : ∀ l ∈ others dropped text, ∀ q ∈ cut breaks l, dropped q = false := by
    intro l hl q hq
    rw [h l (List.mem_filter.mp hl).1 q hq]
    exact not_of_mem_others hl
  have hkept : keptPieces text = (others dropped text).flatMap (cut breaks) := by
    rw [keptPieces, splitlines_eq, h.filter]
    rfl
  by_cases hany : (keptPieces text).any assignsAdded = true
  · have hout : convertEnv text =
        { text := left dropped text, dropped := (splitlines text).filterMap dropMatch, added := [] } := by
      rw [convertEnv_eq, if_pos hany]
    have hlines : lines (left dropped text) = others dropped text := by
      rw [left_of_uniform h, lines_others]
    rw [hkept] at hany
    refine ⟨?_, ?_, ?_⟩
    · rw [hout]
      simp only [if_true, List.map_nil, List.append_nil]
      rw [others, hlines]
      exact filter_unmarked fun l hl => not_of_mem_others hl
    · rw [hout]
      dsimp only
      rw [hlines]
      exact fun l hl => not_of_mem_others hl
    · rw [hout]
      dsimp only
      refine convertEnv_again ?_ ?_
      · rw [hlines]
        exact hclean
      · rw [splitlines_eq, hlines]
        exact hany
  · have hout : convertEnv text =
        { text := (completeLast (keptPieces text) ++ [addedLine]).flatten
          dropped := (splitlines text).filterMap dropMatch
          added := [added] } := by
      rw [convertEnv_eq, if_neg hany]
    have hflatten : (completeLast (keptPieces text)).flatten =
        (completeLast (others dropped text)).flatten := by
      refine flatten_completeLast_congr ?_ ?_ ?_
      · rw [hkept, flatten_flatMap_cut]
      · exact fun p hp => ne_nil_of_mem_cut (List.mem_filter.mp hp).1
      · exact fun l hl => ne_nil_of_mem_lines (List.mem_filter.mp hl).1
    have hlines : lines (completeLast (keptPieces text) ++ [addedLine]).flatten =
        (others dropped text).map complete ++ [addedLine] := by
      have hcompleted := lines_completed ends_addedLine lines_addedLine
        (others dropped text).flatten
      rw [lines_others, List.flatten_append, ← hflatten, ← List.flatten_append,
        ← map_complete (rows_others _ _)] at hcompleted
      exact hcompleted
    have hunmarked : ∀ l ∈ (others dropped text).map complete ++ [addedLine],
        ∀ q ∈ cut breaks l, dropped q = false := by
      intro l hl
      rcases List.mem_append.mp hl with hl | hl
      · obtain ⟨l', hl', rfl⟩ := List.mem_map.mp hl
        exact clean_complete marked_dropped (hclean l' hl')
      · rw [List.mem_singleton.mp hl]
        exact marks_eq_zero.mp marks_addedLine
    have hgone : ∀ l ∈ (others dropped text).map complete ++ [addedLine], dropped l = false := by
      intro l hl
      rcases List.mem_append.mp hl with hl | hl
      · obtain ⟨l', hl', rfl⟩ := List.mem_map.mp hl
        rw [mark_complete marked_dropped]
        exact not_of_mem_others hl'
      · rw [List.mem_singleton.mp hl]
        exact dropped_addedLine
    refine ⟨?_, ?_, ?_⟩
    · rw [hout]
      dsimp only
      rw [if_neg (List.cons_ne_nil _ _), others, hlines, filter_unmarked hgone]
      rfl
    · rw [hout]
      dsimp only
      rw [hlines]
      exact hgone
    · rw [hout]
      dsimp only
      refine convertEnv_again ?_ ?_
      · rw [hlines]
        exact hunmarked
      · have hmem : addedLine ∈ lines (completeLast (keptPieces text) ++ [addedLine]).flatten := by
          rw [hlines]
          exact List.mem_append_right _ (List.mem_singleton_self _)
        refine List.any_eq_true.mpr ⟨addedLine, mem_splitlines hmem ?_, assignsAdded_addedLine⟩
        rw [show cut breaks addedLine = [addedLine] from splitlines_addedLine]
        exact List.mem_singleton_self _

-- ---------------------------------------------------------------------------
-- The three edits
-- ---------------------------------------------------------------------------

/-- An edit keeps to its lines exactly where the pieces that `splitlines` makes of each line are
all assignments or none of them, as the line is, and so are those of the line that is written. -/
theorem edits_iff (key : Name) (value : Value) (text : PyStr) :
    (Unset key text ↔ Uniform breaks (assigns key) (lines text)) ∧
    (IsSet key value text ↔ Uniform breaks (assigns key) (lines text) ∧
      ∀ q ∈ splitlines (assignment key value.text), assigns key q = true) ∧
    (Migrated text ↔ Uniform breaks dropped (lines text)) := by
  refine ⟨unset_iff key text, ⟨fun h => ?_, fun h => ?_⟩, ⟨fun h => ?_, fun h => ?_⟩⟩
  · exact ⟨h.uniform, h.pieces⟩
  · exact isSet_of_uniform h.1 h.2
  · exact h.uniform
  · exact migrated_of_uniform h

def logFormat : Name := ⟨py "LOG_FORMAT", by decide, by decide⟩

def ttsWsUrl : Name := ⟨py "TTS_WS_URL", by decide, by decide⟩

/-- A value with a line separator of its own. -/
def separated : Value := ⟨[0x61, 0x2028, 0x62], by decide⟩

/-- `NOTE='a LOG_FORMAT=b'`, with a line separator for the blank. -/
def noteLine : PyStr := py "NOTE='a" ++ 0x2028 :: (py "LOG_FORMAT=b'" ++ [nl])

/-- A line of another setting that holds the name after a separator is lost, and a value with a
separator is in part written once more when it is set again. -/
theorem line_cut :
    lines noteLine = [noteLine] ∧ endsNl noteLine = true ∧ assigns logFormat noteLine = false ∧
      noteLine ∉ lines (edit noteLine logFormat none) ∧
      edit (edit [] ttsWsUrl (some separated.text)) ttsWsUrl (some separated.text) ≠
        edit [] ttsWsUrl (some separated.text) := by
  decide +kernel

end ConfigFile
