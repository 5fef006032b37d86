-- SUMMARY: `EnergyGate`: the frames it forwards, as segments with their preroll and hangover.
import JotaGateway.Base.TailWindow
import Mathlib.Algebra.Order.Field.Rat
import Mathlib.Data.List.DropRight
import Mathlib.Tactic.Linarith
import Mathlib.Tactic.NormNum

/-!
# The energy gate

The input of a gate is cut into segments. Each has the quiet frames since the
segment before it, of which it forwards the last as preroll, and goes on from
its first loud frame until the hangover is over. `feed` sees one frame at a
time and keeps two sums.
-/

namespace EnergyGate

open TailWindow

abbrev Bytes := List UInt8

/-- How a gate is constructed. The level of a frame is a float, so it is a verdict here. -/
structure Settings where
  /-- `_rms_dbfs(frame) >= self._threshold` -/
  loud : Bytes → Bool
  prerollS : ℚ
  hangoverS : ℚ
  rate : ℕ
  rate_pos : 0 < rate

namespace Settings

/-- How long a frame lasts: four bytes a sample. -/
def dur (c : Settings) (frame : Bytes) : ℚ := (frame.length / 4 : ℕ) / c.rate

theorem dur_nonneg (c : Settings) (frame : Bytes) : 0 ≤ c.dur frame :=
  div_nonneg (Nat.cast_nonneg _) (Nat.cast_nonneg _)

def quiet (c : Settings) (frame : Bytes) : Bool := !c.loud frame

end Settings

/-- `EnergyGate` after `reset` -/
structure Gate where
  ring : List (Bytes × ℚ) := []
  ringS : ℚ := 0
  inSegment : Bool := false
  quietS : ℚ := 0

/-- One call of `feed` and what it returned. -/
structure Fed where
  frame : Bytes
  out : List Bytes
  ended : Bool
  deriving DecidableEq

/-- Not one sample: not audio. -/
def short (frame : Bytes) : Bool := frame.length < 4

/-- `feed` -/
def feed (c : Settings) (g : Gate) (frame : Bytes) : Gate × Fed :=
  if short frame then (g, ⟨frame, [], false⟩)
  else if !g.inSegment then
    if c.quiet frame then
      let (ring, ringS) := trim Prod.snd (c.prerollS - 1e-9) (g.ring ++ [(frame, c.dur frame)])
        (g.ringS + c.dur frame)
      ({ g with ring, ringS }, ⟨frame, [], false⟩)
    else
      ({ ring := [], ringS := 0, inSegment := true, quietS := 0 },
        ⟨frame, g.ring.map Prod.fst ++ [frame], false⟩)
  else if c.loud frame then ({ g with quietS := 0 }, ⟨frame, [frame], false⟩)
  else if c.hangoverS - 1e-9 ≤ g.quietS + c.dur frame then
    ({ g with inSegment := false, quietS := 0 }, ⟨frame, [frame], true⟩)
  else ({ g with quietS := g.quietS + c.dur frame }, ⟨frame, [frame], false⟩)

/-- Feeds `frames` in order. -/
def run (c : Settings) : Gate → List Bytes → List Fed
  | _, [] => []
  | g, frame :: rest => (feed c g frame).2 :: run c (feed c g frame).1 rest

variable {c : Settings} {preroll hangover : ℚ} {g : Gate} {frame : Bytes} {body : List Bytes}

@[simp] theorem feed_frame (c : Settings) (g : Gate) (frame : Bytes) :
    (feed c g frame).2.frame = frame := by
  unfold feed
  split_ifs <;> rfl

/-- What is fed is what was given, in order. -/
theorem run_frames (c : Settings) (g : Gate) (frames : List Bytes) :
    (run c g frames).map Fed.frame = frames := by
  induction frames generalizing g with
  | nil => rfl
  | cons frame rest ih => rw [run, List.map_cons, feed_frame, ih]

-- ---------------------------------------------------------------------------
-- Segments
-- ---------------------------------------------------------------------------

/-- The quiet frames since the last loud one. -/
def sinceLoud (c : Settings) (body : List Bytes) : List Bytes := body.rtakeWhile c.quiet

/-- The last frame is quiet, and the hangover is over with it. -/
def Over (c : Settings) (hangover : ℚ) (body : List Bytes) : Prop :=
  sinceLoud c body ≠ [] ∧ hangover ≤ total c.dur (sinceLoud c body)

/-- A stretch of audio with an open segment at its end. -/
structure Segment (c : Settings) (preroll hangover : ℚ) where
  /-- the frames since the previous segment -/
  before : List Bytes
  lead : List Bytes
  first : Bytes
  /-- the frames after the first one -/
  body : List Bytes
  before_quiet : ∀ f ∈ before, c.loud f = false
  lead_shortest : Shortest c.dur preroll before lead
  first_loud : c.loud first = true
  goes_on : ∀ part, part <+: body → ¬ Over c hangover part

/-- One that ended with the frame `last`. -/
structure Closed (c : Settings) (preroll hangover : ℚ) extends Segment c preroll hangover where
  last : Bytes
  isOver : Over c hangover (body ++ [last])

/-- A frame that is held back. -/
def held (f : Bytes) : Fed := ⟨f, [], false⟩

/-- A frame that is forwarded. -/
def passed (f : Bytes) : Fed := ⟨f, [f], false⟩

/-- The calls of `feed` on a segment: the first loud frame takes the preroll with it. -/
def Segment.log (seg : Segment c preroll hangover) : List Fed :=
  seg.before.map held ++ ⟨seg.first, seg.lead ++ [seg.first], false⟩ :: seg.body.map passed

def Closed.log (seg : Closed c preroll hangover) : List Fed :=
  seg.toSegment.log ++ [⟨seg.last, [seg.last], true⟩]

/-- What comes after the segments that ended: quiet frames, or a segment. -/
inductive Rest (c : Settings) (preroll hangover : ℚ) where
  | quiet (frames : List Bytes) (h : ∀ f ∈ frames, c.loud f = false)
  | segment (seg : Segment c preroll hangover)

def Rest.log : Rest c preroll hangover → List Fed
  | .quiet frames _ => frames.map held
  | .segment seg => seg.log

/-- The calls of a gate on audio are those of some segments. -/
def Segmented (c : Settings) (preroll hangover : ℚ) (log : List Fed) : Prop :=
  ∃ (done : List (Closed c preroll hangover)) (rest : Rest c preroll hangover),
    log = done.flatMap Closed.log ++ rest.log

theorem sinceLoud_concat_loud (body : List Bytes) (h : c.loud frame = true) :
    sinceLoud c (body ++ [frame]) = [] :=
  List.rtakeWhile_concat_neg _ _ _ (by rw [Settings.quiet, h]; exact Bool.false_ne_true)

theorem sinceLoud_concat_quiet (body : List Bytes) (h : c.loud frame = false) :
    sinceLoud c (body ++ [frame]) = sinceLoud c body ++ [frame] :=
  List.rtakeWhile_concat_pos _ _ _ (by rw [Settings.quiet, h]; rfl)

theorem not_over_nil : ¬ Over c hangover [] := fun h => h.1 rfl

/-- After a loud frame it is not over, and after a quiet one if that one completes it. -/
theorem not_over_loud (hangover : ℚ) (body : List Bytes) (h : c.loud frame = true) :
    ¬ Over c hangover (body ++ [frame]) := fun hover => hover.1 (sinceLoud_concat_loud body h)

theorem over_quiet_iff (hangover : ℚ) (body : List Bytes) (h : c.loud frame = false) :
    Over c hangover (body ++ [frame]) ↔
      hangover ≤ total c.dur (sinceLoud c body) + c.dur frame := by
  rw [Over, sinceLoud_concat_quiet body h, total_append, total_cons, total_nil, add_zero]
  exact and_iff_right (List.append_ne_nil_of_right_ne_nil _ (List.cons_ne_nil _ _))

/-- An open segment goes on with a frame that does not end it. -/
def Segment.push (seg : Segment c preroll hangover) (frame : Bytes)
    (h : ¬ Over c hangover (seg.body ++ [frame])) : Segment c preroll hangover where
  before := seg.before
  lead := seg.lead
  first := seg.first
  body := seg.body ++ [frame]
  before_quiet := seg.before_quiet
  lead_shortest := seg.lead_shortest
  first_loud := seg.first_loud
  goes_on := by
    intro part hpart
    rcases List.prefix_concat_iff.mp hpart with rfl | hpart
    · exact h
    · exact seg.goes_on part hpart

theorem Segment.push_log (seg : Segment c preroll hangover)
    (h : ¬ Over c hangover (seg.body ++ [frame])) :
    (seg.push frame h).log = seg.log ++ [passed frame] := by
  simp only [Segment.log, Segment.push, List.map_append, List.map_cons, List.map_nil,
    List.append_assoc, List.cons_append]

-- ---------------------------------------------------------------------------
-- What the gate keeps
-- ---------------------------------------------------------------------------

/-- The gate after the calls of `log`. -/
inductive Kept (c : Settings) : Gate → List Fed → Prop where
  /-- between segments the ring holds the end of the quiet frames -/
  | outside {done : List (Closed c (c.prerollS - 1e-9) (c.hangoverS - 1e-9))}
      {before lead : List Bytes} (hbefore : ∀ f ∈ before, c.loud f = false)
      (hlead : Shortest c.dur (c.prerollS - 1e-9) before lead) :
      Kept c ⟨lead.map fun f => (f, c.dur f), total c.dur lead, false, 0⟩
        (done.flatMap Closed.log ++ before.map held)
  /-- in one `quietS` is the time since the last loud frame -/
  | inside {done : List (Closed c (c.prerollS - 1e-9) (c.hangoverS - 1e-9))}
      (seg : Segment c (c.prerollS - 1e-9) (c.hangoverS - 1e-9)) :
      Kept c ⟨[], 0, true, total c.dur (sinceLoud c seg.body)⟩
        (done.flatMap Closed.log ++ seg.log)

variable {log : List Fed}

namespace Kept

theorem start (c : Settings) : Kept c {} [] := @outside c [] [] [] nofun .nil

/-- A quiet frame between segments goes into the ring. -/
theorem feed_held {done : List (Closed c (c.prerollS - 1e-9) (c.hangoverS - 1e-9))}
    {before lead : List Bytes} (hbefore : ∀ f ∈ before, c.loud f = false)
    (hlead : Shortest c.dur (c.prerollS - 1e-9) before lead) (haudio : short frame = false)
    (hloud : c.loud frame = false)
    (hg : g = ⟨lead.map fun f => (f, c.dur f), total c.dur lead, false, 0⟩) :
    Kept c (feed c g frame).1
      (done.flatMap Closed.log ++ before.map held ++ [(feed c g frame).2]) := by
  have hquiet : ∀ f ∈ before ++ [frame], c.loud f = false := by
    intro f hf
    rcases List.mem_append.mp hf with hf | hf
    · exact hbefore f hf
    · rwa [List.mem_singleton.mp hf]
  have hkept := @outside c done _ _ hquiet (hlead.concat c.dur_nonneg frame)
  have hring : g.ring ++ [(frame, c.dur frame)] = (lead ++ [frame]).map fun f => (f, c.dur f) := by
    rw [hg, List.map_append, List.map_singleton]
  have hsum : g.ringS + c.dur frame = total c.dur (lead ++ [frame]) := by
    rw [hg, total_append, total_cons, total_nil, add_zero]
  simp only [feed, haudio, hring, hsum, trim_map, trim_total]
  simp only [hg, Settings.quiet, hloud]
  rw [List.map_append] at hkept
  rw [List.append_assoc]
  exact hkept

/-- The first loud frame takes the ring with it. -/
theorem feed_first {done : List (Closed c (c.prerollS - 1e-9) (c.hangoverS - 1e-9))}
    {before lead : List Bytes} (hbefore : ∀ f ∈ before, c.loud f = false)
    (hlead : Shortest c.dur (c.prerollS - 1e-9) before lead) (haudio : short frame = false)
    (hloud : c.loud frame = true)
    (hg : g = ⟨lead.map fun f => (f, c.dur f), total c.dur lead, false, 0⟩) :
    Kept c (feed c g frame).1
      (done.flatMap Closed.log ++ before.map held ++ [(feed c g frame).2]) := by
  have hkept := @inside c done
    { before, lead, first := frame, body := []
      before_quiet := hbefore
      lead_shortest := hlead
      first_loud := hloud
      goes_on := by
        intro part hpart
        rw [List.prefix_nil.mp hpart]
        exact not_over_nil }
  have hring : g.ring.map Prod.fst = lead := by
    rw [hg, List.map_map]
    exact List.map_id lead
  simp only [feed, haudio, hring, Settings.quiet, hloud]
  simp only [hg]
  rw [List.append_assoc]
  exact hkept

theorem feed (h : Kept c g log) (haudio : short frame = false) :
    Kept c (feed c g frame).1 (log ++ [(EnergyGate.feed c g frame).2]) := by
  cases h with
  | outside hbefore hlead =>
    cases hloud : c.loud frame with
    | false => exact feed_held hbefore hlead haudio hloud rfl
    | true => exact feed_first hbefore hlead haudio hloud rfl
  | @inside done seg =>
    cases hloud : c.loud frame with
    | true =>
      have hpush := not_over_loud (c.hangoverS - 1e-9) seg.body hloud
      have hkept := @inside c done (seg.push frame hpush)
      rw [seg.push_log hpush, Segment.push, sinceLoud_concat_loud _ hloud, total_nil] at hkept
      simp only [EnergyGate.feed, haudio, hloud]
      rw [List.append_assoc]
      exact hkept
    | false =>
      have hover := over_quiet_iff (c.hangoverS - 1e-9) seg.body hloud
      simp only [EnergyGate.feed, haudio, hloud]
      by_cases hends : c.hangoverS - 1e-9 ≤ total c.dur (sinceLoud c seg.body) + c.dur frame
      · have hkept := @outside c (done ++ [{ seg with last := frame, isOver := hover.mpr hends }])
          [] [] nofun .nil
        simp only [hends, if_true]
        simp only [List.flatMap_append, List.flatMap_singleton, List.map_nil, List.append_nil,
          Closed.log, total_nil] at hkept
        rw [List.append_assoc]
        exact hkept
      · have hpush := hover.not.mpr hends
        have hkept := @inside c done (seg.push frame hpush)
        rw [seg.push_log hpush, Segment.push, sinceLoud_concat_quiet _ hloud, total_append,
          total_cons, total_nil, add_zero] at hkept
        simp only [hends, if_false]
        rw [List.append_assoc]
        exact hkept

theorem segmented (h : Kept c g log) :
    Segmented c (c.prerollS - 1e-9) (c.hangoverS - 1e-9) log := by
  cases h with
  | @outside done before lead hbefore _ => exact ⟨done, .quiet before hbefore, rfl⟩
  | @inside done seg => exact ⟨done, .segment seg, rfl⟩

end Kept

/-- The calls with audio. -/
def audio (log : List Fed) : List Fed := log.filter fun f => !short f.frame

theorem feed_short (c : Settings) (g : Gate) (h : short frame = true) :
    feed c g frame = (g, held frame) := if_pos h

theorem kept_of_run (h : Kept c g log) (frames : List Bytes) :
    ∃ g', Kept c g' (log ++ audio (run c g frames)) := by
  induction frames generalizing g log with
  | nil => exact ⟨g, by rwa [run, audio, List.filter_nil, List.append_nil]⟩
  | cons frame rest ih =>
    cases hshort : short frame with
    | true =>
      obtain ⟨g', hg'⟩ := ih h
      refine ⟨g', ?_⟩
      rw [run, audio, List.filter_cons_of_neg (by rw [feed_frame, hshort]; decide),
        feed_short c g hshort]
      exact hg'
    | false =>
      obtain ⟨g', hg'⟩ := ih (h.feed hshort)
      refine ⟨g', ?_⟩
      rw [run, audio, List.filter_cons_of_pos (by rw [feed_frame, hshort]; decide)]
      rwa [List.append_assoc] at hg'

theorem run_short (c : Settings) (g : Gate) (frames : List Bytes) :
    ∀ f ∈ run c g frames, short f.frame = true → f = held f.frame := by
  induction frames generalizing g with
  | nil => exact nofun
  | cons frame rest ih =>
    intro f hf hshort
    rcases List.mem_cons.mp hf with rfl | hf
    · rw [feed_frame] at hshort
      rw [feed_short c g hshort]
      rfl
    · exact ih _ f hf hshort

-- ---------------------------------------------------------------------------
-- What is forwarded
-- ---------------------------------------------------------------------------

/-- All that the calls returned. -/
def forwarded (log : List Fed) : List Bytes := log.flatMap Fed.out

@[simp] theorem forwarded_cons (f : Fed) (log : List Fed) :
    forwarded (f :: log) = f.out ++ forwarded log := by
  rw [forwarded, List.flatMap_cons, forwarded]

@[simp] theorem forwarded_append (log log' : List Fed) :
    forwarded (log ++ log') = forwarded log ++ forwarded log' := by
  rw [forwarded, List.flatMap_append, forwarded, forwarded]

theorem forwarded_held (frames : List Bytes) (log : List Fed) :
    forwarded (frames.map held ++ log) = forwarded log := by
  induction frames with
  | nil => rfl
  | cons f frames ih =>
    rw [List.map_cons, List.cons_append, forwarded_cons, ih]
    rfl

/-- Forwarded in order and once each, the loud ones all. -/
structure Faithful (c : Settings) (log : List Fed) : Prop where
  sublist : (forwarded log).Sublist (log.map Fed.frame)
  loud : (forwarded log).filter c.loud = (log.map Fed.frame).filter c.loud

theorem quiet_filter {frames : List Bytes} (h : ∀ f ∈ frames, c.loud f = false) :
    frames.filter c.loud = [] := by
  refine List.filter_eq_nil_iff.mpr ?_
  intro f hf
  rw [h f hf]
  exact Bool.false_ne_true

namespace Faithful

theorem append {log' : List Fed} (h : Faithful c log) (h' : Faithful c log') :
    Faithful c (log ++ log') := by
  refine ⟨?_, ?_⟩
  · rw [forwarded_append, List.map_append]
    exact h.sublist.append h'.sublist
  · rw [forwarded_append, List.map_append, List.filter_append, List.filter_append]
    exact congrArg₂ (· ++ ·) h.loud h'.loud

theorem flatMap {α : Type*} {f : α → List Fed} (h : ∀ x, Faithful c (f x)) (l : List α) :
    Faithful c (l.flatMap f) := by
  induction l with
  | nil => exact ⟨.slnil, rfl⟩
  | cons x l ih =>
    rw [List.flatMap_cons]
    exact (h x).append ih

theorem passed (frames : List Bytes) : Faithful c (frames.map EnergyGate.passed) := by
  have hall : forwarded (frames.map EnergyGate.passed) = frames := by
    rw [forwarded, List.flatMap_map]
    exact List.flatMap_singleton' frames
  have hframes : (frames.map EnergyGate.passed).map Fed.frame = frames := by
    rw [List.map_map]
    exact List.map_id frames
  refine ⟨?_, ?_⟩ <;> rw [hall, hframes]

theorem frames_held (frames : List Bytes) : (frames.map EnergyGate.held).map Fed.frame = frames := by
  rw [List.map_map]
  exact List.map_id frames

theorem held {frames : List Bytes} (h : ∀ f ∈ frames, c.loud f = false) :
    Faithful c (frames.map EnergyGate.held) := by
  have hnone : forwarded (frames.map EnergyGate.held) = [] := by
    rw [← List.append_nil (frames.map EnergyGate.held), forwarded_held]
    rfl
  refine ⟨?_, ?_⟩
  · rw [hnone]
    exact List.nil_sublist _
  · rw [hnone, frames_held, quiet_filter h, List.filter_nil]

/-- The preroll was held back right before the frame that takes it along. -/
theorem first (seg : Segment c preroll hangover) :
    Faithful c (seg.before.map EnergyGate.held ++ [⟨seg.first, seg.lead ++ [seg.first], false⟩]) := by
  have hforwarded : forwarded (seg.before.map EnergyGate.held ++
      [⟨seg.first, seg.lead ++ [seg.first], false⟩]) = seg.lead ++ [seg.first] := by
    rw [forwarded_held, forwarded_cons]
    exact List.append_nil _
  have hsub := seg.lead_shortest.suffix.sublist
  have hlead : ∀ f ∈ seg.lead, c.loud f = false :=
    fun f hf => seg.before_quiet f (hsub.subset hf)
  refine ⟨?_, ?_⟩
  · rw [hforwarded, List.map_append, frames_held]
    exact hsub.append (List.Sublist.refl _)
  · rw [hforwarded, List.map_append, frames_held, List.filter_append, List.filter_append,
      quiet_filter hlead, quiet_filter seg.before_quiet]
    rfl

theorem segment (seg : Segment c preroll hangover) : Faithful c seg.log := by
  rw [Segment.log, List.append_cons]
  exact (first seg).append (passed seg.body)

theorem closed (seg : Closed c preroll hangover) : Faithful c seg.log :=
  (segment seg.toSegment).append ⟨List.Sublist.refl _, rfl⟩

theorem of_segmented (h : Segmented c preroll hangover log) : Faithful c log := by
  obtain ⟨done, rest, rfl⟩ := h
  refine (flatMap closed done).append ?_
  cases rest with
  | quiet frames h => exact held h
  | segment seg => exact segment seg

end Faithful

theorem forwarded_audio (h : ∀ f ∈ log, short f.frame = true → f = held f.frame) :
    forwarded (audio log) = forwarded log := by
  induction log with
  | nil => rfl
  | cons f log ih =>
    have hrest := ih fun f hf => h f (List.mem_cons_of_mem _ hf)
    rw [forwarded_cons, ← hrest, audio]
    cases hshort : short f.frame with
    | true =>
      rw [List.filter_cons_of_neg (by rw [hshort]; decide), h f List.mem_cons_self hshort]
      rfl
    | false =>
      rw [List.filter_cons_of_pos (by rw [hshort]; decide)]
      rfl

/-- What a gate is fed: segments of audio, and between their calls frames that are not audio.
It keeps the order, passes nothing on twice, and no loud frame is lost. The preroll and the
hangover may be short by a nanosecond, which is the tolerance of their sums. -/
theorem run_segmented (c : Settings) (frames : List Bytes) :
    Segmented c (c.prerollS - 1e-9) (c.hangoverS - 1e-9) (audio (run c {} frames)) ∧
      (∀ f ∈ run c {} frames, short f.frame = true → f = held f.frame) ∧
      (run c {} frames).map Fed.frame = frames ∧
      (forwarded (run c {} frames)).Sublist frames ∧
      (forwarded (run c {} frames)).filter c.loud =
        frames.filter fun f => !short f && c.loud f := by
  obtain ⟨g, hkept⟩ := kept_of_run (.start c) frames
  have hsegmented := hkept.segmented
  rw [List.nil_append] at hsegmented
  have hshort := run_short c {} frames
  have hframes := run_frames c {} frames
  have haudio : (audio (run c {} frames)).map Fed.frame = frames.filter fun f => !short f := by
    rw [← hframes, List.filter_map, hframes]
    rfl
  obtain ⟨hsublist, hloud⟩ := Faithful.of_segmented hsegmented
  rw [forwarded_audio hshort, haudio] at hsublist hloud
  refine ⟨hsegmented, hshort, hframes, hsublist.trans List.filter_sublist, ?_⟩
  rw [hloud, List.filter_filter]
  exact List.filter_congr fun f _ => Bool.and_comm _ _

/-- A gate that would take any quiet frame as preroll, and of two frames the second is loud. -/
def tiny : Settings where
  loud frame := frame.getLast? == some 1
  prerollS := 5e-10
  hangoverS := 1
  rate := 16000
  rate_pos := by decide

/-- The quiet frame lasts longer than the preroll, and is dropped. -/
theorem preroll_short :
    ¬ ∀ c frames, Segmented c c.prerollS c.hangoverS (audio (run c {} frames)) := by
  intro hclaim
  obtain ⟨done, rest, hlog⟩ := hclaim tiny [[0, 0, 0, 0], [0, 0, 0, 1]]
  have hrun : audio (run tiny {} [[0, 0, 0, 0], [0, 0, 0, 1]]) =
      [held [0, 0, 0, 0], passed [0, 0, 0, 1]] := by
    decide +kernel
  rw [hrun] at hlog
  cases done with
  | cons seg done =>
    -- no segment ended
    have hended : (⟨seg.last, [seg.last], true⟩ : Fed) ∈
        (seg :: done).flatMap Closed.log ++ rest.log := by
      rw [List.flatMap_cons, Closed.log]
      simp only [List.mem_append, List.mem_singleton, true_or, or_true]
    rw [← hlog] at hended
    simp [held, passed] at hended
  | nil =>
    cases rest with
    | quiet frames h =>
      have hpassed : passed [0, 0, 0, 1] ∈ frames.map held :=
        (show _ = frames.map held from hlog) ▸ List.mem_cons_of_mem _ List.mem_cons_self
      obtain ⟨f, -, hf⟩ := List.mem_map.mp hpassed
      cases hf
    | segment seg =>
      have hlead := seg.lead_shortest
      change _ = seg.before.map held ++ ⟨seg.first, seg.lead ++ [seg.first], false⟩ ::
        seg.body.map passed at hlog
      generalize seg.before = before at hlog hlead
      rcases before with _ | ⟨x, _ | ⟨y, before⟩⟩
      · have hfirst := congrArg Fed.out (List.cons.inj hlog).1
        exact absurd hfirst.symm (List.append_ne_nil_of_right_ne_nil _ (List.cons_ne_nil _ _))
      · have hfirst := congrArg Fed.out (List.cons.inj (List.cons.inj hlog).2).1
        have hnil : [] = seg.lead := List.append_inj_left' hfirst rfl
        rw [← hnil] at hlead
        rcases hlead.enough with henough | hdropped
        · norm_num [tiny] at henough
        · cases hdropped
      · cases congrArg Fed.out (List.cons.inj (List.cons.inj hlog).2).1

end EnergyGate
