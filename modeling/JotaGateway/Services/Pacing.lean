-- SUMMARY: `AudioPacer`: the frames it yields, and how far they are ahead of a client that plays them.
import JotaGateway.Base.Transition
import Mathlib.Algebra.Order.Field.Rat
import Mathlib.Tactic.Linarith
import Mathlib.Tactic.NormNum

/-!
# Pacing

The pacer keeps the time at which the audio it has yielded ends, if each frame
starts when it was asked for. The client starts a frame when it arrives, which
is later where the pacer has slept.
-/

namespace Pacing

open Transition

abbrev Bytes := List UInt8

/-- PCM16 LE, 24 kHz, mono -/
def BYTES_PER_S : ℕ := 48000

/-- 200 ms -/
def FRAME_BYTES : ℕ := 9600

/-- How long `frame` plays. -/
def duration (frame : Bytes) : ℚ := frame.length / BYTES_PER_S

/-- How an `AudioPacer` is constructed. -/
structure Settings where
  leadS : ℚ
  enabled : Bool
  lead_nonneg : 0 ≤ leadS

/-- A frame, when it was asked for and when it was yielded. -/
structure Yield where
  frame : Bytes
  asked : ℚ
  time : ℚ
  deriving DecidableEq

structure State where
  playEnd : ℚ := 0
  /-- the frames left of the chunk -/
  rest : List Bytes := []
  now : ℚ := 0
  /-- the chunks passed so far -/
  chunks : List Bytes := []
  /-- the frames yielded so far, the newest first -/
  log : List Yield := []

/-- `chunk[i : i + FRAME_BYTES] for i in range(0, len(chunk), FRAME_BYTES)` -/
def slices (chunk : Bytes) : List Bytes :=
  (List.range ((chunk.length + (FRAME_BYTES - 1)) / FRAME_BYTES)).map fun i =>
    (chunk.drop (i * FRAME_BYTES)).take FRAME_BYTES

inductive Action where
  /-- `frames(chunk)` is called. -/
  | frames (chunk : Bytes)
  /-- The next frame is asked for at `now`; a sleep returns `late` after it is due. -/
  | next (now late : ℚ)

/-- One turn of the loop of `frames`. -/
def next (c : Settings) (s : State) (frame : Bytes) (rest : List Bytes) (now late : ℚ) : State :=
  if c.enabled then
    let start := max s.playEnd now
    let time := if c.leadS < start - now then now + (start - now - c.leadS) + late else now
    { s with
      playEnd := start + duration frame
      rest
      now := time
      log := ⟨frame, now, time⟩ :: s.log }
  else { s with rest, now, log := ⟨frame, now, now⟩ :: s.log }

def step (c : Settings) (s : State) : Action → Option State
  | .frames chunk =>
    if s.rest = [] then
      some { s with
        rest := if c.enabled then slices chunk else [chunk]
        chunks := s.chunks ++ [chunk] }
    else none
  | .next now late =>
    match s.rest with
    | [] => none
    | frame :: rest => if now < s.now ∨ late < 0 then none else some (next c s frame rest now late)

/-- The sleep of a step, if there is one, returns before all the audio sent is played out. -/
def OnTime (c : Settings) (s : State) : Action → Prop
  | .frames _ => True
  | .next now late => c.leadS < s.playEnd - now → late ≤ c.leadS

instance (c : Settings) (s : State) (a : Action) : Decidable (OnTime c s a) :=
  match a with
  | .frames _ => isTrue trivial
  | .next now late => inferInstanceAs (Decidable (c.leadS < s.playEnd - now → late ≤ c.leadS))

-- ---------------------------------------------------------------------------
-- The client
-- ---------------------------------------------------------------------------

/-- When a client has played all: it starts each frame at the later of its arrival and the end
of the one before. -/
def clientEnd : List Yield → ℚ
  | [] => 0
  | y :: older => max (clientEnd older) y.time + duration y.frame

/-- The audio yielded before is at most `lead` when a frame is yielded. -/
def Bounded (lead : ℚ) (log : List Yield) : Prop :=
  ∀ newer y older, log = newer ++ y :: older → clientEnd older - y.time ≤ lead

/-- A frame is not delayed while there is at most `lead` left to play. -/
def Prompt (lead : ℚ) (log : List Yield) : Prop :=
  ∀ newer y older, log = newer ++ y :: older → clientEnd older - y.asked ≤ lead → y.time = y.asked

variable {c : Settings} {s s' : State} {frame : Bytes} {rest : List Bytes} {log : List Yield}
  {now late lead : ℚ} {y : Yield}

theorem duration_nonneg (frame : Bytes) : 0 ≤ duration frame :=
  div_nonneg (Nat.cast_nonneg _) (Nat.cast_nonneg _)

theorem Bounded.nil : Bounded lead [] := by
  intro newer y older h
  cases List.append_eq_nil_iff.mp h.symm |>.2

theorem Prompt.nil : Prompt lead [] := by
  intro newer y older h
  cases List.append_eq_nil_iff.mp h.symm |>.2

theorem Bounded.cons (h : Bounded lead log) (hy : clientEnd log - y.time ≤ lead) :
    Bounded lead (y :: log) := by
  intro newer y' older heq
  cases newer with
  | nil =>
    obtain ⟨rfl, rfl⟩ := List.cons.inj heq
    exact hy
  | cons e newer => exact h newer y' older (List.cons.inj heq).2

theorem Prompt.cons (h : Prompt lead log) (hy : clientEnd log - y.asked ≤ lead → y.time = y.asked) :
    Prompt lead (y :: log) := by
  intro newer y' older heq
  cases newer with
  | nil =>
    obtain ⟨rfl, rfl⟩ := List.cons.inj heq
    exact hy
  | cons e newer => exact h newer y' older (List.cons.inj heq).2

-- ---------------------------------------------------------------------------
-- The frames
-- ---------------------------------------------------------------------------

theorem slices_flatten (chunk : Bytes) : (slices chunk).flatten = chunk := by
  have hinit : ∀ n, ((List.range n).map fun i =>
      (chunk.drop (i * FRAME_BYTES)).take FRAME_BYTES).flatten = chunk.take (n * FRAME_BYTES) := by
    intro n
    induction n with
    | zero => rw [Nat.zero_mul, List.take_zero]; rfl
    | succ n ih =>
      rw [List.range_succ, List.map_append, List.flatten_append, ih, Nat.succ_mul, List.take_add]
      simp
  rw [slices, hinit]
  refine List.take_of_length_le ?_
  simp only [FRAME_BYTES]
  omega

theorem length_of_mem_slices {chunk : Bytes} (h : frame ∈ slices chunk) :
    frame.length ≤ FRAME_BYTES := by
  obtain ⟨i, -, rfl⟩ := List.mem_map.mp h
  exact List.length_take_le _ _

/-- The frames are the chunks, cut. -/
structure Cut (s : State) : Prop where
  flatten : ((s.log.map Yield.frame).reverse ++ s.rest).flatten = s.chunks.flatten
  yielded : ∀ y ∈ s.log, y.frame.length ≤ FRAME_BYTES
  rest : ∀ f ∈ s.rest, f.length ≤ FRAME_BYTES

theorem next_log (c : Settings) (s : State) (frame : Bytes) (rest : List Bytes) (now late : ℚ) :
    ∃ time, (next c s frame rest now late).log = ⟨frame, now, time⟩ :: s.log ∧
      (next c s frame rest now late).rest = rest ∧
      (next c s frame rest now late).chunks = s.chunks := by
  unfold next
  split
  · exact ⟨_, rfl, rfl, rfl⟩
  · exact ⟨_, rfl, rfl, rfl⟩

theorem Cut.step {a : Action} (h : Cut s) (henabled : c.enabled = true)
    (hstep : step c s a = some s') : Cut s' := by
  cases a with
  | frames chunk =>
    simp only [Pacing.step] at hstep
    split at hstep
    · rename_i hrest
      cases hstep
      have hflatten := h.flatten
      rw [hrest, List.append_nil] at hflatten
      refine ⟨?_, h.yielded, ?_⟩
      · simp only [List.flatten_append, hflatten, slices_flatten, List.flatten_singleton]
      · exact fun f hf => length_of_mem_slices hf
    · cases hstep
  | next now late =>
    simp only [Pacing.step] at hstep
    split at hstep
    · cases hstep
    · rename_i frame rest hrest
      split at hstep
      · cases hstep
      · cases hstep
        obtain ⟨time, hlog, hrest', hchunks⟩ := next_log c s frame rest now late
        have hframe := h.rest
        rw [hrest] at hframe
        refine ⟨?_, ?_, ?_⟩
        · rw [hlog, hrest', hchunks, ← h.flatten, hrest, List.map_cons, List.reverse_cons,
            List.append_assoc]
          rfl
        · rw [hlog]
          intro y hy
          rcases List.mem_cons.mp hy with rfl | hy
          · exact hframe _ List.mem_cons_self
          · exact h.yielded y hy
        · rw [hrest']
          exact fun f hf => hframe f (List.mem_cons_of_mem _ hf)

-- ---------------------------------------------------------------------------
-- The times
-- ---------------------------------------------------------------------------

theorem duration_le (h : frame.length ≤ FRAME_BYTES) : duration frame ≤ 1 / 5 := by
  have hlength : (frame.length : ℚ) ≤ 9600 := by exact_mod_cast h
  rw [duration, BYTES_PER_S]
  norm_num
  linarith

/-- One turn of the loop: a sleep ends when at most the lead is left, or later. -/
theorem next_cases (henabled : c.enabled = true) (hlate : 0 ≤ late) (s : State) (frame : Bytes)
    (rest : List Bytes) (now : ℚ) :
    ∃ time, next c s frame rest now late =
        { s with
          playEnd := max s.playEnd now + duration frame
          rest
          now := time
          log := ⟨frame, now, time⟩ :: s.log } ∧
      now ≤ time ∧ max s.playEnd now - c.leadS ≤ time ∧
      (c.leadS < s.playEnd - now → time = s.playEnd - c.leadS + late) ∧
      (s.playEnd - now ≤ c.leadS → time = now) := by
  have hlead := c.lead_nonneg
  have hstart : c.leadS < max s.playEnd now - now ↔ c.leadS < s.playEnd - now := by
    rw [lt_sub_iff_add_lt, lt_max_iff, lt_sub_iff_add_lt]
    exact or_iff_left (by linarith)
  refine ⟨_, if_pos henabled, ?_⟩
  by_cases hsleeps : c.leadS < s.playEnd - now
  · have hmax : max s.playEnd now = s.playEnd := max_eq_left (by linarith)
    have htime : now + (s.playEnd - now - c.leadS) + late = s.playEnd - c.leadS + late := by
      linarith
    rw [if_pos (hstart.mpr hsleeps), hmax, htime]
    refine ⟨by linarith, by linarith, fun _ => rfl, ?_⟩
    intro hle
    exact absurd hsleeps (not_lt.mpr hle)
  · have hawake := hstart.not.mpr hsleeps
    rw [if_neg hawake]
    exact ⟨le_rfl, by linarith, fun h => absurd h hsleeps, fun _ => rfl⟩

/-- What the pacer has yielded does not end before it thinks, and not later than a frame after
that or now. -/
structure Timed (c : Settings) (s : State) : Prop extends Cut s where
  ahead : s.playEnd ≤ clientEnd s.log
  behind : clientEnd s.log ≤ max s.playEnd s.now + 1 / 5
  prompt : Prompt c.leadS s.log
  bounded : Bounded (c.leadS + 1 / 5) s.log

/-- It ends when the pacer thinks. -/
structure Exact (c : Settings) (s : State) : Prop where
  playEnd : s.playEnd = clientEnd s.log
  bounded : Bounded c.leadS s.log

theorem Timed.step {a : Action} (h : Timed c s) (henabled : c.enabled = true)
    (hstep : step c s a = some s') : Timed c s' := by
  have hcut := h.toCut.step henabled hstep
  cases a with
  | frames chunk =>
    simp only [Pacing.step] at hstep
    split at hstep <;> cases hstep
    exact ⟨hcut, h.ahead, h.behind, h.prompt, h.bounded⟩
  | next now late =>
    simp only [Pacing.step] at hstep
    split at hstep
    · cases hstep
    · rename_i frame rest hrest
      split at hstep
      · cases hstep
      · rename_i hclock
        rw [not_or, not_lt, not_lt] at hclock
        obtain ⟨hnow, hlate⟩ := hclock
        cases hstep
        obtain ⟨time, hnext, hasked, hlead, -, hawake⟩ :=
          next_cases henabled hlate s frame rest now
        have hframe : duration frame ≤ 1 / 5 := by
          refine duration_le (h.rest frame ?_)
          rw [hrest]
          exact List.mem_cons_self
        have hpos := duration_nonneg frame
        have hend : clientEnd s.log ≤ max s.playEnd now + 1 / 5 :=
          h.behind.trans (by gcongr)
        rw [hnext] at hcut ⊢
        refine ⟨hcut, ?_, ?_, h.prompt.cons ?_, h.bounded.cons ?_⟩
        · exact add_le_add_left (max_le_max h.ahead hasked) _
        · rw [clientEnd]
          rcases le_total (clientEnd s.log) time with hle | hle
          · rw [max_eq_right hle]
            exact add_le_add (le_max_right _ _) hframe
          · rw [max_eq_left hle]
            refine le_trans ?_ (add_le_add_left (le_max_left _ _) _)
            linarith
        · intro hleft
          exact hawake (by linarith [h.ahead])
        · linarith

/-- It still does after a step that is on time, and only after one. -/
theorem playEnd_eq_iff {a : Action} (h : s.playEnd = clientEnd s.log) (henabled : c.enabled = true)
    (hstep : step c s a = some s') : s'.playEnd = clientEnd s'.log ↔ OnTime c s a := by
  cases a with
  | frames chunk =>
    simp only [Pacing.step] at hstep
    split at hstep <;> cases hstep
    exact iff_of_true h trivial
  | next now late =>
    simp only [Pacing.step] at hstep
    split at hstep
    · cases hstep
    · rename_i frame rest hrest
      split at hstep
      · cases hstep
      · rename_i hclock
        rw [not_or, not_lt, not_lt] at hclock
        cases hstep
        obtain ⟨time, hnext, hasked, hlead, hsleeps, hawake⟩ :=
          next_cases henabled hclock.2 s frame rest now
        have hpos := c.lead_nonneg
        rw [hnext, clientEnd, ← h, add_left_inj]
        by_cases hsleep : c.leadS < s.playEnd - now
        · have htime := hsleeps hsleep
          rw [max_eq_left (by linarith : now ≤ s.playEnd), eq_comm, max_eq_left_iff, htime]
          constructor
          · intro hle _
            linarith
          · intro hon
            -- it arrives while the client still plays
            linarith [hon hsleep]
        · rw [hawake (not_lt.mp hsleep)]
          exact iff_of_true rfl fun h => absurd h hsleep

theorem Exact.step {a : Action} (h : Exact c s) (henabled : c.enabled = true)
    (hok : OnTime c s a) (hstep : step c s a = some s') : Exact c s' := by
  refine ⟨(playEnd_eq_iff h.playEnd henabled hstep).mpr hok, ?_⟩
  cases a with
  | frames chunk =>
    simp only [Pacing.step] at hstep
    split at hstep <;> cases hstep
    exact h.bounded
  | next now late =>
    simp only [Pacing.step] at hstep
    split at hstep
    · cases hstep
    · rename_i frame rest hrest
      split at hstep
      · cases hstep
      · rename_i hclock
        rw [not_or, not_lt, not_lt] at hclock
        cases hstep
        obtain ⟨time, hnext, -, hlead, -⟩ := next_cases henabled hclock.2 s frame rest now
        rw [hnext]
        refine h.bounded.cons ?_
        rw [← h.playEnd]
        linarith [le_max_left s.playEnd now]

theorem timed_of_reachable (henabled : c.enabled = true) (h : Reachable (step c) {} s) :
    Timed c s := by
  refine h.invariant ⟨⟨rfl, nofun, nofun⟩, le_rfl, ?_, .nil, .nil⟩ ?_
  · norm_num [clientEnd]
  · intro s a s' hs _ hstep
    exact hs.step henabled hstep

theorem exact_of_onTime (henabled : c.enabled = true) (h : ReachableBy (step c) (OnTime c) {} s) :
    Exact c s :=
  h.invariant ⟨rfl, .nil⟩ fun _ _ _ hs hok hstep => hs.step henabled hok hstep

/-- In every run the frames are the chunks, cut, none is delayed without need, and a client has
a frame more than the lead at most. It has the lead at most in the runs in which each sleep
ends before all is played: then, and only then, the pacer keeps the client's time. -/
theorem paced (c : Settings) (s : State) (henabled : c.enabled = true) :
    (Reachable (step c) {} s →
      ((s.log.map Yield.frame).reverse ++ s.rest).flatten = s.chunks.flatten ∧
        (∀ y ∈ s.log, y.frame.length ≤ FRAME_BYTES) ∧ Prompt c.leadS s.log ∧
          Bounded (c.leadS + 1 / 5) s.log) ∧
    (ReachableBy (step c) (OnTime c) {} s →
      Bounded c.leadS s.log ∧ s.playEnd = clientEnd s.log ∧
        ∀ a s', step c s a = some s' → (s'.playEnd = clientEnd s'.log ↔ OnTime c s a)) := by
  refine ⟨?_, ?_⟩
  · intro h
    have htimed := timed_of_reachable henabled h
    exact ⟨htimed.flatten, htimed.yielded, htimed.prompt, htimed.bounded⟩
  · intro h
    have hexact := exact_of_onTime henabled h
    exact ⟨hexact.bounded, hexact.playEnd, fun a s' => playEnd_eq_iff hexact.playEnd henabled⟩

/-- A millisecond of audio. -/
def millisecond : Bytes := List.replicate 48 0

/-- A pacer with a lead of a millisecond. -/
def brief : Settings := ⟨1 / 1000, true, by norm_num⟩

/-- The third frame sleeps, and `late` longer than it should. -/
def sleepy (late : ℚ) : List Action :=
  [.frames millisecond, .next 0 0, .frames millisecond, .next 0 0, .frames millisecond,
    .next 0 late, .frames millisecond, .next (1 / 1000 + late) 0, .frames millisecond,
    .next (1 / 1000 + late) 0]

/-- A sleep that ends as all is played. -/
theorem paced_sleepy :
    ∃ s, run (guarded (step brief) fun s a => OnTime brief s a) {} (sleepy (1 / 1000)) = some s ∧
      Bounded (1 / 1000) s.log := by
  obtain ⟨s, hs⟩ := Option.isSome_iff_exists.mp (by decide +kernel :
    (run (guarded (step brief) fun s a => OnTime brief s a) {} (sleepy (1 / 1000))).isSome = true)
  have hruns := (reachableBy_of_run hs).mono fun _ _ => of_decide_eq_true
  exact ⟨s, hs, ((paced brief s rfl).2 hruns).1⟩

/-- A sleep that ends half a millisecond after all was played: later a frame is yielded with a
millisecond and a half left to play. -/
theorem overslept :
    ¬ ∀ c s, c.enabled = true → Reachable (step c) {} s → Bounded c.leadS s.log := by
  intro hclaim
  have hlog : (run (step brief) {} (sleepy (3 / 2000))).map State.log = some [
      ⟨millisecond, 5 / 2000, 3 / 1000⟩, ⟨millisecond, 5 / 2000, 5 / 2000⟩,
      ⟨millisecond, 0, 5 / 2000⟩, ⟨millisecond, 0, 0⟩, ⟨millisecond, 0, 0⟩] := by
    decide +kernel
  obtain ⟨s, hs, hlog⟩ := Option.map_eq_some_iff.mp hlog
  have hbounded := hclaim brief s rfl (reachable_of_run hs) [] _ _ hlog
  revert hbounded
  decide +kernel

end Pacing
