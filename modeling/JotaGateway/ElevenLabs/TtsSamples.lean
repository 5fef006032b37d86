-- SUMMARY: The samples an `ElevenLabsTtsStream` gives its consumer, over the connections it read them from.
import JotaGateway.ElevenLabs.TtsStream

/-!
# The samples of a stream

Within a connection the carried byte links one message to the next. It is not
reset when the stream opens its second connection.
-/

namespace ElevenLabs.TtsStream

open Transition
open Tts (ReadOutcome)

variable {endsSentence : PyStr → Bool} {s s' : Stream}

/-- No message makes the buffer overflow. -/
def BelowLimit (s : Stream) : Action → Prop
  | .receives frame => (s.audio.frame frame).2 ≠ some .overflow
  | _ => True

/-- The runner is in `_serve`. -/
def Serves (pc : Pc) : Prop := pc.writes = true ∨ pc = .awaiting

/-- A reader lives within `_serve`. -/
def ReaderServed (s : Stream) : Prop := s.reader ≠ none → Serves s.pc

theorem loop_audio (s : Stream) : s.loop.audio = s.audio ∧ Serves s.loop.pc := by
  obtain ⟨pc, pending, wakeup, hloop, -, hpc, -⟩ := loop_spec s
  rw [hloop]
  exact ⟨rfl, hpc.elim .inr fun hwrites => .inl hwrites.1⟩

theorem serve_audio (s : Stream) (outcome : ReadOutcome) :
    (s.serve outcome).audio = s.audio ∧ (s.serve outcome).reader = none ∧
      (s.serve outcome).pc ≠ .finished := by
  unfold Stream.serve
  cases outcome with
  | closed kind =>
    simp only
    split
    · exact ⟨rfl, rfl, nofun⟩
    · cases kind with
      | other =>
        simp only
        split <;> exact ⟨rfl, rfl, nofun⟩
      | auth => exact ⟨rfl, rfl, nofun⟩
      | quota => exact ⟨rfl, rfl, nofun⟩
      | capacity => exact ⟨rfl, rfl, nofun⟩
  | final => exact ⟨rfl, rfl, nofun⟩
  | overflow => exact ⟨rfl, rfl, nofun⟩
  | error => exact ⟨rfl, rfl, nofun⟩

theorem Serves.not_finished {pc : Pc} (h : Serves pc) : pc ≠ .finished := by
  rintro rfl
  rcases h with h | h <;> cases h

instance (s : Stream) (a : Action) : Decidable (BelowLimit s a) :=
  match a with
  | .receives frame => inferInstanceAs (Decidable ((s.audio.frame frame).2 ≠ some .overflow))
  | .sendTextChunk _ | .endInput | .close | .cancels | .runner _ | .stops | .calledBack | .drops _
  | .get => isTrue trivial

/-- Outside `_serve` there is no reader. -/
theorem ReaderServed.none (h : ReaderServed s) {pc : Pc} (hpc : s.pc = pc) (hnot : ¬ Serves pc) :
    s.reader = none := by
  by_contra hne
  exact hnot (hpc ▸ h hne)

/-- The runner has nothing to do with the audio, except that it opens connections; it is not
finished before its callback. -/
theorem runnerStep_audio {move : Move} (hreader : ReaderServed s)
    (hstep : runnerStep s move = some s') :
    s.pc ≠ .finished ∧ s'.pc ≠ .finished ∧ ReaderServed s' ∧
      (s'.audio = s.audio ∨ s'.audio = s.audio.opened) := by
  have hloop : ∀ s : Stream, s.loop.pc ≠ .finished ∧ ReaderServed s.loop := fun s =>
    ⟨(loop_audio s).2.not_finished, fun _ => (loop_audio s).2⟩
  cases move with
  | starts =>
    simp only [runnerStep] at hstep
    split at hstep <;> cases hstep
    rename_i hpc
    have hnone := hreader.none hpc (by rintro (h | h) <;> cases h)
    exact ⟨by simp [hpc], by simp, fun hne => absurd hnone hne, .inl rfl⟩
  | connects =>
    simp only [runnerStep] at hstep
    split at hstep <;> cases hstep
    rename_i hpc
    exact ⟨by simp [hpc], by simp, fun _ => .inl rfl, .inr rfl⟩
  | connectFails =>
    simp only [runnerStep] at hstep
    split at hstep <;> cases hstep
    rename_i hpc
    have hnone := hreader.none hpc (by rintro (h | h) <;> cases h)
    exact ⟨by simp [hpc], by simp, fun hne => absurd hnone hne, .inl rfl⟩
  | sent =>
    simp only [runnerStep] at hstep
    split at hstep <;> cases hstep
    all_goals
      rename_i hpc
      exact ⟨by simp [hpc], (hloop _).1, (hloop _).2, .inl (loop_audio _).1⟩
  | raises =>
    simp only [runnerStep] at hstep
    split at hstep <;> cases hstep
    all_goals
      rename_i hpc
      exact ⟨by simp [hpc], by simp, fun _ => .inr rfl, .inl rfl⟩
  | wakes =>
    simp only [runnerStep] at hstep
    split at hstep <;> cases hstep
    rename_i hpc
    exact ⟨by simp [hpc.1], (hloop _).1, (hloop _).2, .inl (loop_audio _).1⟩
  | timesOut idle =>
    simp only [runnerStep] at hstep
    split at hstep
    · rename_i hpc
      split at hstep <;> cases hstep
      · exact ⟨by simp [hpc.1], by simp, fun hne => absurd rfl hne, .inl rfl⟩
      · exact ⟨by simp [hpc.1], by simp, fun _ => .inl rfl, .inl rfl⟩
    · cases hstep
  | joins =>
    simp only [runnerStep] at hstep
    split at hstep <;> cases hstep
    rename_i outcome hpc _
    obtain ⟨haudio, hnone, hfinished⟩ := serve_audio s outcome
    exact ⟨by simp [hpc], hfinished, fun hne => absurd hnone hne, .inl haudio⟩
  | closed =>
    simp only [runnerStep] at hstep
    split at hstep <;> cases hstep
    all_goals
      rename_i hpc
      have hnone := hreader.none hpc (by rintro (h | h) <;> cases h)
      exact ⟨by simp [hpc], by simp, fun hne => absurd hnone hne, .inl rfl⟩

/-- The audio of a stream; the end marker is put when all is done. -/
structure AudioKept (s : Stream) : Prop where
  reader : ReaderServed s
  audio : s.audio.Kept (s.pc == .finished)

theorem AudioKept.of_running (hreader : ReaderServed s) (haudio : s.audio.Kept false)
    (hpc : s.pc ≠ .finished) : AudioKept s := by
  refine ⟨hreader, ?_⟩
  rw [beq_eq_false_iff_ne.mpr hpc]
  exact haudio

theorem AudioKept.running (h : AudioKept s) (hpc : s.pc ≠ .finished) : s.audio.Kept false := by
  have haudio := h.audio
  rw [beq_eq_false_iff_ne.mpr hpc] at haudio
  exact haudio

/-- What neither the runner nor the reader does leaves them and the audio alone. -/
theorem AudioKept.congr (h : AudioKept s) (hpc : s'.pc = s.pc) (hreader : s'.reader = s.reader)
    (haudio : s'.audio = s.audio) : AudioKept s' := by
  refine ⟨?_, ?_⟩
  · unfold ReaderServed
    rw [hpc, hreader]
    exact h.reader
  · rw [hpc, haudio]
    exact h.audio

theorem client_audio (s : Stream) (text : PyStr) :
    ((s.sendTextChunk endsSentence text).pc = s.pc ∧
      (s.sendTextChunk endsSentence text).reader = s.reader ∧
        (s.sendTextChunk endsSentence text).audio = s.audio) ∧
    (s.endInput.pc = s.pc ∧ s.endInput.reader = s.reader ∧ s.endInput.audio = s.audio) ∧
    (s.close.pc = s.pc ∧ s.close.reader = s.reader ∧ s.close.audio = s.audio) := by
  refine ⟨?_, ?_, ?_⟩
  · unfold Stream.sendTextChunk
    split <;> exact ⟨rfl, rfl, rfl⟩
  · unfold Stream.endInput
    split <;> exact ⟨rfl, rfl, rfl⟩
  · unfold Stream.close
    split <;> exact ⟨rfl, rfl, rfl⟩

/-- A frame is read by the reader of a runner that is not done. -/
theorem receives_cases {frame : Frame} (hstep : step endsSentence s (.receives frame) = some s') :
    s.reader = some .reads ∧ s'.audio = (s.audio.frame frame).1 ∧ s'.pc = s.pc := by
  simp only [step] at hstep
  split at hstep
  · rename_i hreader
    refine ⟨hreader, ?_⟩
    split at hstep
    all_goals
      rename_i hframe
      cases hstep
      rw [hframe]
      exact ⟨rfl, rfl⟩
  · cases hstep

theorem AudioKept.step {a : Action} (h : AudioKept s) (hstep : step endsSentence s a = some s') :
    AudioKept s' := by
  obtain ⟨htext, hend, hclose⟩ := @client_audio endsSentence s []
  cases a with
  | sendTextChunk text =>
    obtain ⟨⟨hpc, hreader, haudio⟩, -⟩ := @client_audio endsSentence s text
    cases hstep
    exact h.congr hpc hreader haudio
  | endInput =>
    cases hstep
    exact h.congr hend.1 hend.2.1 hend.2.2
  | close =>
    cases hstep
    exact h.congr hclose.1 hclose.2.1 hclose.2.2
  | cancels =>
    simp only [TtsStream.step] at hstep
    split at hstep <;> cases hstep
    exact h.congr rfl rfl rfl
  | runner move =>
    simp only [TtsStream.step] at hstep
    split at hstep
    · cases hstep
    · obtain ⟨hpc, hpc', hreader, haudio⟩ := runnerStep_audio h.reader hstep
      have hkept := h.running hpc
      refine .of_running hreader ?_ hpc'
      rcases haudio with haudio | haudio <;> rw [haudio]
      · exact hkept
      · exact ⟨hkept.marked, hkept.buffered, hkept.bounded, hkept.even⟩
  | stops =>
    simp only [TtsStream.step, stop] at hstep
    split at hstep
    · split at hstep <;> cases hstep
      · rename_i hpc
        have hnone := h.reader.none hpc (by rintro (h | h) <;> cases h)
        exact .of_running (fun hne => absurd hnone hne) (h.running (by simp [hpc])) (by simp)
      · rename_i hpc
        have hnone := h.reader.none hpc (by rintro (h | h) <;> cases h)
        exact .of_running (fun hne => absurd hnone hne) (h.running (by simp [hpc])) (by simp)
      · rename_i hfinished _ _
        exact .of_running (fun hne => absurd rfl hne) (h.running hfinished) (by simp)
    · cases hstep
  | calledBack =>
    simp only [TtsStream.step] at hstep
    split at hstep <;> cases hstep
    rename_i hpc
    have hnone := h.reader.none hpc (by rintro (h | h) <;> cases h)
    exact ⟨fun hne => absurd hnone hne, (h.running (by simp [hpc])).finish⟩
  | receives frame =>
    obtain ⟨hreads, haudio, hpc⟩ := receives_cases hstep
    have hserves : Serves s.pc := h.reader (by simp [hreads])
    refine .of_running ?_ ?_ ?_
    · intro _
      rw [hpc]
      exact hserves
    · rw [haudio]
      exact (h.running hserves.not_finished).frame rfl
    · rw [hpc]
      exact hserves.not_finished
  | drops kind =>
    simp only [TtsStream.step] at hstep
    split at hstep <;> cases hstep
    rename_i hreads
    have hserves : Serves s.pc := h.reader (by simp [hreads])
    exact ⟨fun _ => hserves, h.audio⟩
  | get =>
    obtain ⟨audio, haudio, rfl⟩ := Option.map_eq_some_iff.mp hstep
    exact ⟨h.reader, h.audio.get haudio⟩

theorem audioKept_of_reachable (h : Reachable (step endsSentence) {} s) : AudioKept s := by
  refine h.invariant ?_ fun s a s' hs _ hstep => hs.step hstep
  exact ⟨fun hne => absurd rfl hne, .nil, rfl, Nat.zero_le _, nofun⟩

theorem whole_step {a : Action} (h : s.audio.Whole) (hkept : AudioKept s) (hbelow : BelowLimit s a)
    (hstep : step endsSentence s a = some s') : s'.audio.Whole := by
  obtain ⟨htext, hend, hclose⟩ := @client_audio endsSentence s []
  cases a with
  | sendTextChunk text =>
    cases hstep
    rw [(@client_audio endsSentence s text).1.2.2]
    exact h
  | endInput =>
    cases hstep
    rw [hend.2.2]
    exact h
  | close =>
    cases hstep
    rw [hclose.2.2]
    exact h
  | cancels =>
    simp only [step] at hstep
    split at hstep <;> cases hstep
    exact h
  | runner move =>
    simp only [step] at hstep
    split at hstep
    · cases hstep
    · obtain ⟨-, -, -, haudio | haudio⟩ := runnerStep_audio hkept.reader hstep
      · rw [haudio]
        exact h
      · rw [haudio]
        exact h.opened
  | stops =>
    simp only [step, stop] at hstep
    split at hstep
    · split at hstep <;> cases hstep <;> exact h
    · cases hstep
  | calledBack =>
    simp only [step] at hstep
    split at hstep <;> cases hstep
    refine ⟨?_, h.carry⟩
    rw [Audio.chunks, Audio.finish, EndMarked.items_finish]
    exact h.bytes
  | receives frame =>
    obtain ⟨-, haudio, -⟩ := receives_cases hstep
    rw [haudio]
    exact h.frame rfl hbelow
  | drops kind =>
    simp only [step] at hstep
    split at hstep <;> cases hstep
    exact h
  | get =>
    obtain ⟨audio, haudio, rfl⟩ := Option.map_eq_some_iff.mp hstep
    exact h.get hkept.audio.marked haudio

theorem whole_of_belowLimit (h : ReachableBy (step endsSentence) BelowLimit {} s) :
    AudioKept s ∧ s.audio.Whole := by
  induction h with
  | start => exact ⟨@audioKept_of_reachable endsSentence _ .start, rfl, Nat.zero_le 1⟩
  | next _ hbelow hstep ih => exact ⟨ih.1.step hstep, whole_step ih.2 ih.1 hbelow hstep⟩

/-- What a consumer should get: whole samples, those of each connection. -/
def Aligned (a : Audio) : Prop :=
  (∀ pcm ∈ a.chunks, pcm.length % 2 = 0) ∧
    a.chunks.flatten = samples a.earlier ++ samples a.current

/-- Below the limit of the buffer the chunks are whole samples always, and those of each
connection exactly if the byte that the first one left over does not shift the second. -/
theorem aligned_iff (endsSentence : PyStr → Bool) (s : Stream)
    (h : ReachableBy (step endsSentence) BelowLimit {} s) :
    Aligned s.audio ↔ Separate s.audio.earlier s.audio.current := by
  obtain ⟨hkept, hwhole⟩ := whole_of_belowLimit h
  rw [Aligned, and_iff_right hkept.audio.even, hwhole.chunks_flatten hkept.audio,
    samples_append_iff]

/-- An audio message. -/
def audioMessage (pcm : Bytes) : Frame := .value (.obj [(py "audio", .str (Base64.b64encode pcm))])

/-- A connection that drops after `first`, and one more that brings `second`. -/
def dropsAfter (first second : Bytes) : List Action :=
  [.runner .starts, .runner .connects, .runner .sent, .receives (audioMessage first), .drops .other,
    .runner .wakes, .runner .joins, .runner .closed, .runner .connects,
    .receives (audioMessage second)]

/-- Its steps, if they stay below the limit. -/
def below : Stream → Action → Option Stream :=
  guarded (step fun _ => true) fun s a => BelowLimit s a

theorem reachable_of_below {actions : List Action} (h : run below {} actions = some s) :
    ReachableBy (step fun _ => true) BelowLimit {} s :=
  (reachableBy_of_run h).mono fun _ _ => of_decide_eq_true

theorem aligned_even :
    ∃ s, run below {} (dropsAfter [1, 2] [3, 4, 5]) = some s ∧ Aligned s.audio := by
  have hrun : (run below {} (dropsAfter [1, 2] [3, 4, 5])).map
      (fun s => (s.audio.earlier, s.audio.current)) = some ([1, 2], [3, 4, 5]) := by
    decide +kernel
  obtain ⟨s, hs, hbytes⟩ := Option.map_eq_some_iff.mp hrun
  refine ⟨s, hs, (aligned_iff _ s (reachable_of_below hs)).mpr (.inl ?_)⟩
  rw [(Prod.mk.inj hbytes).1]
  rfl

/-- The byte that the first connection left over comes before the samples of the second. -/
theorem shifted :
    ¬ ∀ endsSentence s, ReachableBy (step endsSentence) BelowLimit {} s → Aligned s.audio := by
  intro hclaim
  have hrun : (run below {} (dropsAfter [1] [2, 3])).map
      (fun s => (s.audio.chunks, s.audio.earlier, s.audio.current)) =
        some ([[1, 2]], [1], [2, 3]) := by
    decide +kernel
  obtain ⟨s, hs, hbytes⟩ := Option.map_eq_some_iff.mp hrun
  have haligned := (hclaim _ s (reachable_of_below hs)).2
  simp only [Prod.mk.injEq] at hbytes
  rw [hbytes.1, hbytes.2.1, hbytes.2.2] at haligned
  revert haligned
  decide

end ElevenLabs.TtsStream
