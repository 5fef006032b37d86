-- SUMMARY: `TTSClient` and `ElevenLabsTtsStream` as sources of audio: what their consumers get, and whether they end.
import JotaGateway.ElevenLabs.TtsSamples

/-!
# The audio sources

Both buffer the audio of a task and put an end marker behind it. `TTSClient`
does that in the `finally` of its reader, `ElevenLabsTtsStream` in a
done-callback of its runner.
-/

namespace AudioSources

open Transition
open EndMarked (Queue items)
open ElevenLabs.TtsStream (Bytes)

-- ---------------------------------------------------------------------------
-- TTSClient
-- ---------------------------------------------------------------------------

def MAX_BUFFER_BYTES : Nat := 10 * 1024 * 1024

/-- What `async for msg in ws` yields, or raises. -/
inductive Frame where
  | bytes (data : Bytes)
  /-- `json.loads` raises `JSONDecodeError`. -/
  | unparsed
  | value (v : Json)
  /-- the end of the iteration, `ConnectionClosed`, or anything else but a cancellation -/
  | raises

/-- The task of `_read`. -/
inductive Reader where
  | absent
  /-- not started yet -/
  | created
  | reads
  | finished
  deriving DecidableEq

structure Client where
  /-- `self.ws is not None` -/
  connected : Bool := false
  reader : Reader := .absent
  /-- `cancel()` was called on the reader and has not reached it -/
  cancelled : Bool := false
  /-- the reader has run -/
  started : Bool := false
  buffered : Nat := 0
  out : Queue Bytes := []

namespace Client

/-- The reader returns: its `finally` puts the marker. -/
def finish (c : Client) : Client :=
  { c with reader := .finished, out := EndMarked.finish c.out }

/-- One message in `_read`. -/
def receive (c : Client) : Frame → Client
  | .bytes data =>
    if MAX_BUFFER_BYTES < c.buffered + data.length then c.finish
    else { c with buffered := c.buffered + data.length, out := EndMarked.put c.out data }
  | .unparsed => c
  | .value v =>
    match v.dict? with
    | none => c
    | some data =>
      let type := data.get "type"
      if type.isStr "done" || type.isStr "error" then c.finish else c
  | .raises => c.finish

theorem receive_started (c : Client) (frame : Frame) : (c.receive frame).started = c.started := by
  cases frame with
  | bytes data =>
    simp only [receive]
    split <;> rfl
  | unparsed => rfl
  | value v =>
    simp only [receive]
    split
    · rfl
    · split <;> rfl
  | raises => rfl

end Client

inductive Action where
  /-- `connect` has authenticated. -/
  | connect
  /-- `get_audio_stream` is iterated. -/
  | iterate
  /-- an iteration takes from the queue -/
  | get
  | close
  /-- anyone cancels the reader -/
  | cancels
  /-- the reader takes its first step -/
  | starts
  | receives (frame : Frame)
  /-- the cancellation reaches the reader -/
  | stops

/-- `task.done()` of the reader, if there is one. -/
def Reader.isDone : Reader → Bool
  | .absent | .finished => true
  | .created | .reads => false

/-- What an action does, and `none` where it cannot happen. -/
def step (c : Client) : Action → Option Client
  | .connect => if c.connected then none else some { c with connected := true }
  | .iterate =>
    if c.connected && c.reader = .absent then some { c with reader := .created } else some c
  | .get =>
    match EndMarked.get c.out with
    | none => none
    | some (none, out) => some { c with out }
    | some (some item, out) => some { c with out, buffered := c.buffered - item.length }
  | .close =>
    if c.connected && !c.reader.isDone then some { c with cancelled := true } else some c
  | .cancels => if c.reader.isDone then none else some { c with cancelled := true }
  | .starts =>
    if c.reader = .created ∧ c.cancelled = false then
      some { c with reader := .reads, started := true }
    else none
  | .receives frame =>
    if c.reader = .reads ∧ c.cancelled = false then some (c.receive frame) else none
  | .stops =>
    if c.cancelled then
      match c.reader with
      | .created => some { c with reader := .finished, cancelled := false }
      | .reads => some { c.finish with cancelled := false }
      | .absent | .finished => none
    else none

/-- A cancellation does not reach the reader before its first step. -/
def StartsFirst (c : Client) : Action → Prop
  | .stops => c.reader ≠ .created
  | _ => True

instance (c : Client) (a : Action) : Decidable (StartsFirst c a) :=
  match a with
  | .stops => inferInstanceAs (Decidable (c.reader ≠ .created))
  | .connect | .iterate | .get | .close | .cancels | .starts | .receives _ => isTrue trivial

/-- The bytes counted are those of the items, within the limit. -/
def Counted (limit buffered : Nat) (out : Queue Bytes) : Prop :=
  buffered = ((items out).map List.length).sum ∧ buffered ≤ limit

/-- The marker is behind the items, and all calls of `get` together take the items in order and
then the end. -/
def Ends (out : Queue Bytes) : Prop :=
  EndMarked.Marked true out ∧ ∀ n, EndMarked.gets n out =
    ((items out).take n).map some ++ List.replicate (n - (items out).length) none

variable {limit buffered : Nat} {out out' : Queue Bytes} {ended : Bool} {r : Option Bytes}

theorem ends_of_marked (h : EndMarked.Marked true out) : Ends out := ⟨h, h.gets_of_ended⟩

theorem Counted.put (h : Counted limit buffered out) {item : Bytes}
    (hfits : buffered + item.length ≤ limit) :
    Counted limit (buffered + item.length) (EndMarked.put out item) := by
  refine ⟨?_, hfits⟩
  rw [EndMarked.items_put, List.map_append, List.sum_append, h.1]
  rfl

theorem Counted.finish (h : Counted limit buffered out) :
    Counted limit buffered (EndMarked.finish out) := by
  refine ⟨?_, h.2⟩
  rw [EndMarked.items_finish]
  exact h.1

/-- The marker is there if the reader has run and is finished; a reader that has not run has
put nothing. -/
structure Kept (c : Client) : Prop where
  marked : EndMarked.Marked (c.reader = .finished && c.started) c.out
  counted : Counted MAX_BUFFER_BYTES c.buffered c.out
  reads : c.reader = .reads → c.started = true
  created : c.reader = .absent ∨ c.reader = .created → c.started = false
  empty : c.started = false → c.out = []

variable {c c' : Client}

namespace Kept

theorem running (h : Kept c) (hreader : c.reader = .reads) : EndMarked.Marked false c.out := by
  have hmarked := h.marked
  rw [hreader] at hmarked
  exact hmarked

theorem finish (h : Kept c) (hreader : c.reader = .reads) : Kept c.finish := by
  have hstarted := h.reads hreader
  refine ⟨?_, h.counted.finish, nofun, ?_, ?_⟩
  · rw [Client.finish, hstarted]
    exact (h.running hreader).finish
  · rintro (heq | heq) <;> cases heq
  · intro hnot
    rw [show c.started = false from hnot] at hstarted
    cases hstarted

theorem receive (h : Kept c) (hreader : c.reader = .reads) (frame : Frame) :
    Kept (c.receive frame) := by
  have hstarted := h.reads hreader
  cases frame with
  | bytes data =>
    simp only [Client.receive]
    split
    · exact h.finish hreader
    · refine ⟨?_, h.counted.put (Nat.not_lt.mp ‹_›), h.reads, h.created, ?_⟩
      · rw [hreader]
        exact (h.running hreader).put data
      · intro hnot
        rw [show c.started = false from hnot] at hstarted
        cases hstarted
  | unparsed => exact h
  | value v =>
    simp only [Client.receive]
    split
    · exact h
    · split
      · exact h.finish hreader
      · exact h
  | raises => exact h.finish hreader

/-- A consumer takes an item, or meets the marker and leaves it. -/
theorem get (h : Kept c) (hget : EndMarked.get c.out = some (r, out')) :
    Kept { c with out := out', buffered := c.buffered - (r.getD []).length } := by
  have hne : c.started ≠ false := by
    intro hnot
    rw [h.empty hnot] at hget
    cases hget
  refine ⟨h.marked.get hget, ?_, h.reads, h.created, fun hnot => absurd hnot hne⟩
  rcases h.marked.get_cases hget with ⟨item, rfl, hitems, -⟩ | ⟨rfl, -, rfl, -⟩
  · obtain ⟨hsum, hle⟩ := h.counted
    rw [hitems, List.map_cons, List.sum_cons] at hsum
    refine ⟨?_, (Nat.sub_le _ _).trans hle⟩
    change c.buffered - item.length = ((items out').map List.length).sum
    omega
  · exact h.counted

theorem step {a : Action} (h : Kept c) (hstep : step c a = some c') : Kept c' := by
  cases a with
  | connect =>
    simp only [AudioSources.step] at hstep
    split at hstep <;> cases hstep
    exact ⟨h.marked, h.counted, h.reads, h.created, h.empty⟩
  | iterate =>
    simp only [AudioSources.step] at hstep
    split at hstep <;> cases hstep
    · rename_i hreader
      simp only [Bool.and_eq_true, decide_eq_true_eq] at hreader
      have hstarted := h.created (.inl hreader.2)
      refine ⟨?_, h.counted, nofun, fun _ => hstarted, h.empty⟩
      rw [h.empty hstarted]
      exact .nil
    · exact h
  | get =>
    simp only [AudioSources.step] at hstep
    split at hstep
    · cases hstep
    · rename_i hget
      cases hstep
      exact h.get hget
    · rename_i hget
      cases hstep
      exact h.get hget
  | close =>
    simp only [AudioSources.step] at hstep
    split at hstep <;> cases hstep
    · exact ⟨h.marked, h.counted, h.reads, h.created, h.empty⟩
    · exact h
  | cancels =>
    simp only [AudioSources.step] at hstep
    split at hstep <;> cases hstep
    exact ⟨h.marked, h.counted, h.reads, h.created, h.empty⟩
  | starts =>
    simp only [AudioSources.step] at hstep
    split at hstep <;> cases hstep
    rename_i hcreated
    have hempty := h.empty (h.created (.inr hcreated.1))
    refine ⟨?_, h.counted, fun _ => rfl, ?_, nofun⟩
    · rw [hempty]
      exact .nil
    · rintro (heq | heq) <;> cases heq
  | receives frame =>
    simp only [AudioSources.step] at hstep
    split at hstep <;> cases hstep
    rename_i hreads
    exact h.receive hreads.1 frame
  | stops =>
    simp only [AudioSources.step] at hstep
    split at hstep
    · split at hstep <;> cases hstep
      · rename_i hcreated
        have hstarted := h.created (.inr hcreated)
        refine ⟨?_, h.counted, nofun, ?_, h.empty⟩
        · rw [h.empty hstarted, hstarted]
          exact .nil
        · rintro (heq | heq) <;> cases heq
      · rename_i hreads
        have hfinish := h.finish hreads
        exact ⟨hfinish.marked, hfinish.counted, hfinish.reads, hfinish.created, hfinish.empty⟩
    · cases hstep

end Kept

theorem kept_of_reachable (h : Reachable step {} c) : Kept c := by
  refine h.invariant ?_ fun s a s' hs _ hstep => hs.step hstep
  exact ⟨.nil, ⟨rfl, Nat.zero_le _⟩, nofun, fun _ => rfl, fun _ => rfl⟩

/-- What a consumer may expect of a source: its audio counted, and its end. -/
structure Source (limit buffered : Nat) (out : Queue Bytes) (finished : Prop) : Prop where
  counted : Counted limit buffered out
  ends : finished → Ends out

/-- A reader that is finished has put the marker, if it has run. -/
theorem Kept.ends_iff (h : Kept c) (hfinished : c.reader = .finished) :
    Ends c.out ↔ c.started = true := by
  constructor
  · rintro ⟨hmarked, -⟩
    cases hstarted : c.started with
    | true => rfl
    | false =>
      rw [h.empty hstarted] at hmarked
      cases hmarked
  · intro hstarted
    have hmarked := h.marked
    rw [hfinished, hstarted] at hmarked
    exact ends_of_marked hmarked

/-- Where a cancellation cannot reach a reader before its first step, a finished reader has
run. -/
theorem started_of_startsFirst (h : ReachableBy step StartsFirst {} c) :
    c.reader = .finished → c.started = true := by
  induction h with
  | start => exact nofun
  | @next c c' a run hok hstep ih =>
    have hkept := kept_of_reachable run.reachable
    intro hfinished
    cases a with
    | connect =>
      simp only [step] at hstep
      split at hstep <;> cases hstep
      exact ih hfinished
    | iterate =>
      simp only [step] at hstep
      split at hstep <;> cases hstep
      · cases hfinished
      · exact ih hfinished
    | get =>
      simp only [step] at hstep
      split at hstep <;> cases hstep
      · exact ih hfinished
      · exact ih hfinished
    | close =>
      simp only [step] at hstep
      split at hstep <;> cases hstep
      · exact ih hfinished
      · exact ih hfinished
    | cancels =>
      simp only [step] at hstep
      split at hstep <;> cases hstep
      exact ih hfinished
    | starts =>
      simp only [step] at hstep
      split at hstep <;> cases hstep
      rfl
    | receives frame =>
      simp only [step] at hstep
      split at hstep <;> cases hstep
      rename_i hreads
      rw [Client.receive_started]
      exact hkept.reads hreads.1
    | stops =>
      simp only [step] at hstep
      split at hstep
      · split at hstep <;> cases hstep
        · exact absurd ‹c.reader = .created› hok
        · exact hkept.reads ‹_›
      · cases hstep

-- ---------------------------------------------------------------------------
-- Both sources
-- ---------------------------------------------------------------------------

/-- The audio of both is counted, and both end when their task has: `ElevenLabsTtsStream` with its
done-callback, `TTSClient` if its reader has run, and not if it was cancelled before. -/
theorem sources_end (endsSentence : PyStr → Bool) (c : Client) (s : ElevenLabs.TtsStream.Stream) :
    (ReachableBy step StartsFirst {} c →
      Source MAX_BUFFER_BYTES c.buffered c.out (c.reader = .finished)) ∧
    (Reachable (ElevenLabs.TtsStream.step endsSentence) {} s →
      Source ElevenLabs.TtsStream.MAX_BUFFER_BYTES s.audio.buffered s.audio.out (s.pc = .finished) ∧
        (s.pc = .done → ∃ s', ElevenLabs.TtsStream.step endsSentence s .calledBack = some s' ∧
          Ends s'.audio.out)) ∧
    (Reachable step {} c →
      Counted MAX_BUFFER_BYTES c.buffered c.out ∧
        (c.reader = .finished → (Ends c.out ↔ c.started = true))) := by
  refine ⟨?_, ?_, ?_⟩
  · intro h
    have hkept := kept_of_reachable h.reachable
    exact ⟨hkept.counted, fun hfinished =>
      (hkept.ends_iff hfinished).mpr (started_of_startsFirst h hfinished)⟩
  · intro h
    obtain ⟨-, haudio⟩ := ElevenLabs.TtsStream.audioKept_of_reachable h
    refine ⟨⟨⟨haudio.buffered, haudio.bounded⟩, ?_⟩, ?_⟩
    · intro hfinished
      have hmarked := haudio.marked
      rw [hfinished] at hmarked
      exact ends_of_marked hmarked
    · intro hdone
      have hmarked := haudio.marked
      rw [hdone] at hmarked
      exact ⟨_, if_pos hdone, ends_of_marked (EndMarked.Marked.finish hmarked)⟩
  · intro h
    have hkept := kept_of_reachable h
    exact ⟨hkept.counted, hkept.ends_iff⟩

/-- A client that gets two frames and is closed, and a stream that is closed before it runs. -/
theorem sources_end_closed :
    ∃ c s, run (guarded step fun c a => StartsFirst c a) {} [.connect, .iterate, .starts,
        .receives (.bytes [1, 2]), .receives (.bytes [3, 4]), .close, .stops] = some c ∧
      run (ElevenLabs.TtsStream.step fun _ => true) {} [.close, .stops, .calledBack] = some s ∧
        Ends c.out ∧ c.started = true ∧ Ends s.audio.out := by
  obtain ⟨c, hc⟩ : ∃ c, run (guarded step fun c a => StartsFirst c a) {} [.connect, .iterate, .starts,
      .receives (.bytes [1, 2]), .receives (.bytes [3, 4]), .close, .stops] = some c := ⟨_, rfl⟩
  obtain ⟨s, hs⟩ : ∃ s, run (ElevenLabs.TtsStream.step fun _ => true) {}
      [.close, .stops, .calledBack] = some s := ⟨_, rfl⟩
  have hruns := (reachableBy_of_run hc).mono fun _ _ => of_decide_eq_true
  obtain ⟨hstarts, hstream, hclient⟩ := sources_end (fun _ => true) c s
  have hends := (hstarts hruns).ends
  have hran := (hclient hruns.reachable).2
  have hends' := (hstream (reachable_of_run hs)).1.ends
  refine ⟨c, s, hc, hs, ?_, ?_, ?_⟩
  · cases hc
    exact hends rfl
  · cases hc
    exact (hran rfl).mp (hends rfl)
  · cases hs
    exact hends' rfl

/-- The client is closed before its reader has run: the consumer waits for ever. -/
theorem reader_never_ran : ¬ ∀ c, Reachable step {} c → c.reader = .finished → Ends c.out := by
  intro hclaim
  obtain ⟨c, hc⟩ : ∃ c, run step {} [.connect, .iterate, .close, .stops] = some c := ⟨_, rfl⟩
  have hends := hclaim c (reachable_of_run hc)
  cases hc
  cases (hends rfl).1

end AudioSources
