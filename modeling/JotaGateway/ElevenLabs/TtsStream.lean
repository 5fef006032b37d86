-- SUMMARY: `ElevenLabsTtsStream`: its writer, the reader beside it and its consumers; what is written over its connections.
import JotaGateway.Base.Transition
import JotaGateway.ElevenLabs.TtsAudio

/-!
# A text-to-speech stream

The runner opens the socket and writes what is in the deque; a reader of the
same socket may end at any time. The runner is at one of its suspensions, and
an action takes one of the coroutines from a suspension to the next. `accepted`,
`written`, `connections` and `refused` only record what happened.
-/

namespace ElevenLabs.TtsStream

open Transition
open Tts (ReadOutcome)

/-- A message of the deque. -/
structure Msg where
  text : PyStr
  flush : Bool
  deriving DecidableEq

/-- `{"text": "", "flush": True}` -/
def flushEnd : Msg := ⟨[], true⟩

/-- `{"text": ""}` ends the input. -/
def eos : Msg := ⟨[], false⟩

/-- What the runner writes. -/
inductive Write where
  | init
  | msg (msg : Msg)
  /-- `{"text": " "}` -/
  | keepalive
  deriving DecidableEq

/-- Where the runner is suspended. -/
inductive Pc where
  /-- not started yet -/
  | created
  /-- in `websockets.connect` -/
  | connecting
  /-- sending the first message of a connection -/
  | initializing
  | sending (msg : Msg)
  /-- in `asyncio.wait` for the event, the reader or the time -/
  | asleep
  /-- sending a keepalive -/
  | keepalive
  /-- waiting for the reader -/
  | awaiting
  /-- closing the socket before it is opened once more -/
  | reclosing
  /-- closing the socket in the `finally` -/
  | closing
  /-- done, `_finished` is still to be called -/
  | done
  | finished
  deriving DecidableEq

/-- The message on its way. -/
def Pc.inFlight : Pc → List Msg
  | .sending msg => [msg]
  | _ => []

/-- It may still get to write. -/
def Pc.runs : Pc → Bool
  | .closing | .done | .finished => false
  | _ => true

/-- `task.done()` -/
def Pc.isDone : Pc → Bool
  | .done | .finished => true
  | _ => false

/-- It writes, or may before it waits for the reader. -/
def Pc.writes : Pc → Bool
  | .initializing | .sending _ | .asleep | .keepalive => true
  | _ => false

/-- The task of the reader: `return`s with an outcome. -/
inductive Reader where
  | reads
  | returned (outcome : ReadOutcome)

structure Stream where
  pc : Pc := .created
  /-- `cancel()` was called on the runner and has not reached it -/
  cancelled : Bool := false
  pending : List Msg := []
  wakeup : Bool := false
  closed : Bool := false
  endRequested : Bool := false
  endSent : Bool := false
  reopened : Bool := false
  /-- the reader of the connection, within `_serve` -/
  reader : Option Reader := none
  audio : Audio := {}
  /-- the text chunks that were accepted -/
  accepted : List Msg := []
  /-- what was written, with the number of the connection -/
  written : List (Nat × Write) := []
  connections : Nat := 0
  /-- the message whose send failed on the first connection, and how many were written before -/
  refused : Option (Nat × Msg) := none

namespace Stream

def enqueue (s : Stream) (msg : Msg) : Stream :=
  { s with pending := s.pending ++ [msg], wakeup := true }

/-- `send_text_chunk`; `endsSentence` is `_ends_sentence`, which decides the flush and nothing
else. -/
def sendTextChunk (s : Stream) (endsSentence : PyStr → Bool) (text : PyStr) : Stream :=
  if s.closed || s.endRequested || text.isEmpty then s
  else
    let msg := { text, flush := endsSentence text }
    { s with accepted := s.accepted ++ [msg] }.enqueue msg

/-- `end` -/
def endInput (s : Stream) : Stream :=
  if s.closed || s.endRequested then s
  else ({ s with endRequested := true }.enqueue flushEnd).enqueue eos

/-- `close`, up to its wait for the task -/
def close (s : Stream) : Stream :=
  if s.closed then s
  else { s with closed := true, pending := [], cancelled := s.cancelled || !s.pc.isDone }

/-- The reader has returned. -/
def readerDone (s : Stream) : Bool :=
  match s.reader with
  | some (.returned _) => true
  | _ => false

/-- The loop of `_serve` from its head to the next suspension. -/
def loop (s : Stream) : Stream :=
  if s.endSent || s.readerDone then { s with pc := .awaiting }
  else
    match s.pending with
    | msg :: pending => { s with pending, pc := .sending msg }
    | [] => { s with wakeup := false, pc := .asleep }

def write (s : Stream) (w : Write) : Stream := { s with written := s.written ++ [(s.connections, w)] }

/-- The messages written, with their connections. -/
def log (s : Stream) : List (Nat × Msg) :=
  s.written.filterMap fun
    | (connection, .msg msg) => some (connection, msg)
    | _ => none

def messages (s : Stream) : List Msg := s.log.map Prod.snd

/-- All that was ever put in the deque. -/
def input (s : Stream) : List Msg :=
  s.accepted ++ if s.endRequested then [flushEnd, eos] else []

/-- `_serve` with what the reader returned. -/
def serve (s : Stream) (outcome : ReadOutcome) : Stream :=
  let s := { s with reader := none }
  match outcome with
  | .final | .overflow | .error => { s with pc := .closing }
  | .closed kind =>
    if s.closed then { s with pc := .closing }
    else
      match kind with
      | .auth | .quota | .capacity => { s with pc := .closing }
      | .other =>
        if s.endSent || s.reopened then { s with pc := .closing }
        else { s with reopened := true, pc := .reclosing }

end Stream

/-- What a runner that has not been cancelled does next. -/
inductive Move where
  | starts
  | connects
  | connectFails
  /-- `ws.send` returns -/
  | sent
  /-- `ws.send` raises `ConnectionClosed` -/
  | raises
  /-- `asyncio.wait` returns with the event or the reader -/
  | wakes
  /-- or with neither; `idle` says that the last text was `TURN_TIMEOUT_S` ago -/
  | timesOut (idle : Bool)
  /-- the reader has returned -/
  | joins
  /-- the socket is closed -/
  | closed

inductive Action where
  | sendTextChunk (text : PyStr)
  | endInput
  | close
  /-- anyone cancels the runner -/
  | cancels
  | runner (move : Move)
  /-- the cancellation reaches the runner -/
  | stops
  /-- the done-callback of the runner -/
  | calledBack
  /-- the reader gets a frame -/
  | receives (frame : Frame)
  /-- the socket is closed under the reader -/
  | drops (kind : ErrorKind)
  /-- a consumer takes from the queue -/
  | get

/-- `_runner` -/
def runnerStep (s : Stream) : Move → Option Stream
  | .starts => if s.pc = .created then some { s with pc := .connecting } else none
  | .connects =>
    if s.pc = .connecting then
      some { s with
        pc := .initializing
        reader := some .reads
        connections := s.connections + 1
        audio := s.audio.opened }
    else none
  | .connectFails => if s.pc = .connecting then some { s with pc := .closing } else none
  | .sent =>
    match s.pc with
    | .initializing => some (s.write .init).loop
    | .sending msg =>
      let s := s.write (.msg msg)
      some { s with endSent := s.endSent || msg == eos }.loop
    | .keepalive => some (s.write .keepalive).loop
    | _ => none
  | .raises =>
    match s.pc with
    | .initializing | .keepalive => some { s with pc := .awaiting }
    | .sending msg =>
      some { s with
        pc := .awaiting
        pending := msg :: s.pending
        refused := if s.reopened then s.refused else some (s.messages.length, msg) }
    | _ => none
  | .wakes => if s.pc = .asleep ∧ (s.wakeup || s.readerDone) = true then some s.loop else none
  | .timesOut idle =>
    if s.pc = .asleep ∧ s.readerDone = false then
      if !s.endRequested && idle then
        some { s with closed := true, pending := [], pc := .closing, reader := none }
      else some { s with pc := .keepalive }
    else none
  | .joins =>
    match s.pc, s.reader with
    | .awaiting, some (.returned outcome) => some (s.serve outcome)
    | _, _ => none
  | .closed =>
    match s.pc with
    | .reclosing => some { s with pc := .connecting }
    | .closing => some { s with pc := .done }
    | _ => none

/-- The cancellation reaches the runner: before its first step the `finally` does not run. -/
def stop (s : Stream) : Option Stream :=
  match s.pc with
  | .done | .finished => none
  | .created | .closing => some { s with pc := .done, cancelled := false }
  | _ => some { s with pc := .closing, cancelled := false, reader := none }

/-- What an action does, and `none` where it cannot happen. -/
def step (endsSentence : PyStr → Bool) (s : Stream) : Action → Option Stream
  | .sendTextChunk text => some (s.sendTextChunk endsSentence text)
  | .endInput => some s.endInput
  | .close => some s.close
  | .cancels => if s.pc.isDone then none else some { s with cancelled := true }
  | .runner move => if s.cancelled then none else runnerStep s move
  | .stops => if s.cancelled then stop s else none
  | .calledBack =>
    if s.pc = .done then some { s with pc := .finished, audio := s.audio.finish } else none
  | .receives frame =>
    match s.reader with
    | some .reads =>
      match s.audio.frame frame with
      | (audio, none) => some { s with audio }
      | (audio, some outcome) => some { s with audio, reader := some (.returned outcome) }
    | _ => none
  | .drops kind =>
    match s.reader with
    | some .reads => some { s with reader := some (.returned (.closed kind)) }
    | _ => none
  | .get => s.audio.get.map fun audio => { s with audio }

-- ---------------------------------------------------------------------------
-- What the writer keeps
-- ---------------------------------------------------------------------------

/-- The deque continues what was written, and the end of the input is the last of it. -/
structure Kept (s : Stream) : Prop where
  texts : ∀ msg ∈ s.accepted, msg.text ≠ []
  queue : s.pc.runs = true → s.closed = false → s.messages ++ (s.pc.inFlight ++ s.pending) = s.input
  written : s.messages <+: s.input
  closed : s.closed = true → s.pc.runs = true → s.cancelled = true
  /-- a wakeup is not lost -/
  awake : s.pc = .asleep → s.pending ≠ [] → s.wakeup = true
  endSent : s.endSent = true → s.pc = .awaiting ∨ s.pc.runs = false
  eosSent : ∀ connection, (connection, Write.msg eos) ∈ s.written → s.endSent = true
  last : ∀ before connection after,
    s.written = before ++ (connection, .msg eos) :: after → after = []
  connections : s.connections ≤ 1 + s.reopened.toNat
  serving : s.pc.writes = true ∨ s.pc = .awaiting → s.connections = 1 + s.reopened.toNat
  opening : s.pc = .created ∨ s.pc = .connecting ∨ s.pc = .reclosing →
    s.connections = s.reopened.toNat
  numbers : ∀ w ∈ s.written, w.1 = 1 ∨ w.1 = 2 ∧ s.reopened = true
  /-- the writer does not go on behind a refused message on the same connection -/
  refused : ∀ n msg, s.refused = some (n, msg) →
    s.input[n]? = some msg ∧ n ≤ s.log.length ∧ (∀ e ∈ s.log.take n, e.1 = 1) ∧
      (∀ e ∈ s.log.drop n, e.1 = 2) ∧
        (s.reopened = false → s.pc = .awaiting ∨ s.pc.runs = false)

variable {endsSentence : PyStr → Bool} {s s' : Stream} {msg : Msg} {w : Write}

theorem Pc.runs_of_writes {pc : Pc} (h : pc.writes = true) : pc.runs = true := by
  cases pc <;> first | rfl | cases h

theorem Pc.isDone_of_runs {pc : Pc} (h : pc.runs = true) : pc.isDone = false := by
  cases pc <;> first | rfl | cases h

/-- A writer that may write is not at its end. -/
theorem Pc.not_ended {pc : Pc} (h : pc.writes = true) : ¬ (pc = .awaiting ∨ pc.runs = false) := by
  rintro (rfl | hnot)
  · cases h
  · rw [Pc.runs_of_writes h] at hnot
    cases hnot

theorem loop_spec (s : Stream) : ∃ pc pending wakeup, s.loop = { s with pc, pending, wakeup } ∧
    pc.inFlight ++ pending = s.pending ∧
      (pc = .awaiting ∨ pc.writes = true ∧ s.endSent = false) ∧ (pc = .asleep → pending = []) := by
  unfold Stream.loop
  split
  · exact ⟨_, _, _, rfl, rfl, .inl rfl, nofun⟩
  · rename_i hgoes
    have hsent : s.endSent = false := by
      cases hsent : s.endSent with
      | false => rfl
      | true => exact absurd (by rw [hsent]; rfl) hgoes
    split
    · rename_i msg pending hpending
      exact ⟨_, _, s.wakeup, rfl, hpending.symm, .inr ⟨rfl, hsent⟩, nofun⟩
    · rename_i hpending
      exact ⟨_, s.pending, _, rfl, rfl, .inr ⟨rfl, hsent⟩, fun _ => hpending⟩

/-- At the head of its loop the writer keeps what it kept. -/
theorem Kept.loop (h : Kept s) (hnone : s.pc.inFlight = []) (hruns : s.pc.runs = true)
    (hserving : s.connections = 1 + s.reopened.toNat)
    (hrefused : s.refused.isSome = true → s.reopened = true) : Kept s.loop := by
  obtain ⟨pc, pending, wakeup, hloop, hqueue, hpc, hempty⟩ := loop_spec s
  have hwrites : pc.runs = true := by
    rcases hpc with rfl | ⟨hpc, -⟩
    · rfl
    · exact Pc.runs_of_writes hpc
  have hold := h.queue hruns
  rw [hnone, List.nil_append] at hold
  rw [hloop]
  refine ⟨h.texts, ?_, h.written, fun hclosed _ => h.closed hclosed hruns, ?_, ?_, h.eosSent, h.last,
    h.connections, fun _ => hserving, ?_, h.numbers, ?_⟩
  · intro _ hclosed
    change s.messages ++ (pc.inFlight ++ pending) = s.input
    rw [hqueue]
    exact hold hclosed
  · intro hasleep hne
    exact absurd (hempty hasleep) hne
  · intro hsent
    rcases hpc with hpc | ⟨-, hnot⟩
    · exact .inl hpc
    · rw [show s.endSent = true from hsent] at hnot
      cases hnot
  · rintro (rfl | rfl | rfl)
    all_goals
      rcases hpc with hpc | ⟨hpc, -⟩
      · cases hpc
      · cases hpc
  · intro n msg hsome
    obtain ⟨hinput, hle, hbefore, hafter, -⟩ := h.refused n msg hsome
    refine ⟨hinput, hle, hbefore, hafter, ?_⟩
    intro hnot
    have hopened := hrefused (Option.isSome_iff_exists.mpr ⟨_, hsome⟩)
    rw [show s.reopened = false from hnot] at hopened
    cases hopened

theorem log_write_msg (s : Stream) (msg : Msg) :
    (s.write (.msg msg)).log = s.log ++ [(s.connections, msg)] := by
  rw [Stream.write, Stream.log, List.filterMap_append, Stream.log]
  rfl

theorem messages_write_msg (s : Stream) (msg : Msg) :
    (s.write (.msg msg)).messages = s.messages ++ [msg] := by
  rw [Stream.messages, log_write_msg, List.map_append, Stream.messages]
  rfl

theorem log_write (s : Stream) (hw : ∀ msg, w ≠ .msg msg) : (s.write w).log = s.log := by
  rw [Stream.write, Stream.log, List.filterMap_append, Stream.log]
  cases w with
  | msg msg => exact absurd rfl (hw msg)
  | init => exact List.append_nil _
  | keepalive => exact List.append_nil _

/-- Nothing was written behind the end of the input, and something else is. -/
theorem Kept.last_write (h : Kept s) (hsent : s.endSent = false) (w : Write) :
    ∀ before connection after,
      (s.write w).written = before ++ (connection, .msg eos) :: after → after = [] := by
  intro before connection after heq
  rcases List.eq_nil_or_concat after with rfl | ⟨after, last, rfl⟩
  · rfl
  · rw [List.concat_eq_append, ← List.cons_append, ← List.append_assoc] at heq
    obtain ⟨hwritten, -⟩ := List.append_inj' heq rfl
    have hmem : (connection, Write.msg eos) ∈ s.written := by
      rw [hwritten]
      exact List.mem_append_right _ List.mem_cons_self
    rw [h.eosSent connection hmem] at hsent
    cases hsent

/-- The number of the connection it is written on. -/
theorem Kept.numbers_write (h : Kept s) (hserving : s.connections = 1 + s.reopened.toNat)
    (w : Write) : ∀ e ∈ (s.write w).written, e.1 = 1 ∨ e.1 = 2 ∧ s.reopened = true := by
  intro e he
  rcases List.mem_append.mp he with he | he
  · exact h.numbers e he
  · rw [List.mem_singleton.mp he, hserving]
    cases s.reopened with
    | false => exact .inl rfl
    | true => exact .inr ⟨rfl, rfl⟩

/-- Whatever is not a message leaves the deque alone. -/
theorem Kept.write (h : Kept s) (hsent : s.endSent = false)
    (hserving : s.connections = 1 + s.reopened.toNat) (hw : ∀ msg, w ≠ .msg msg) :
    Kept (s.write w) := by
  have hlog := log_write s hw
  have hmessages : (s.write w).messages = s.messages := by
    rw [Stream.messages, hlog, Stream.messages]
  refine ⟨h.texts, ?_, ?_, h.closed, h.awake, h.endSent, ?_, h.last_write hsent w, h.connections,
    h.serving, h.opening, h.numbers_write hserving w, ?_⟩
  · rw [hmessages]
    exact h.queue
  · rw [hmessages]
    exact h.written
  · intro connection hmem
    rcases List.mem_append.mp hmem with hmem | hmem
    · exact h.eosSent connection hmem
    · exact absurd (congrArg Prod.snd (List.mem_singleton.mp hmem)).symm (hw eos)
  · rw [hlog]
    exact h.refused

theorem Kept.not_sent (h : Kept s) (hpc : ¬ (s.pc = .awaiting ∨ s.pc.runs = false)) :
    s.endSent = false := by
  cases hsent : s.endSent with
  | false => rfl
  | true => exact absurd (h.endSent hsent) hpc

/-- Who goes on behind a refused message does so for the second connection. -/
theorem Kept.reopened_of_refused (h : Kept s) (hpc : ¬ (s.pc = .awaiting ∨ s.pc.runs = false))
    (hrefused : s.refused.isSome = true) : s.reopened = true := by
  obtain ⟨⟨n, msg⟩, hsome⟩ := Option.isSome_iff_exists.mp hrefused
  obtain ⟨-, -, -, -, hends⟩ := h.refused n msg hsome
  cases hreopened : s.reopened with
  | true => rfl
  | false => exact absurd (hends hreopened) hpc

theorem Kept.not_closed (h : Kept s) (hruns : s.pc.runs = true) (hcancelled : s.cancelled = false) :
    s.closed = false := by
  cases hclosed : s.closed with
  | false => rfl
  | true =>
    rw [h.closed hclosed hruns] at hcancelled
    cases hcancelled

/-- The message in flight is written: it is next in the order. -/
theorem Kept.sent (h : Kept s) (hpc : s.pc = .sending msg) (hcancelled : s.cancelled = false) :
    Kept { s.write (.msg msg) with endSent := s.endSent || msg == eos, pc := .awaiting } := by
  have hwrites : s.pc.writes = true := by
    rw [hpc]
    rfl
  have hruns : s.pc.runs = true := by
    rw [hpc]
    rfl
  have hclosed := h.not_closed hruns hcancelled
  have hqueue := h.queue hruns hclosed
  rw [hpc] at hqueue
  have hnext : (s.messages ++ [msg]) ++ s.pending = s.input := by
    rw [List.append_assoc]
    exact hqueue
  have hserving := h.serving (.inl hwrites)
  refine ⟨h.texts, ?_, ?_, ?_, nofun, fun _ => .inl rfl, ?_, h.last_write (h.not_sent (Pc.not_ended hwrites)) _,
    h.connections, fun _ => hserving, ?_, h.numbers_write hserving _, ?_⟩
  · intro _ _
    change (s.write (.msg msg)).messages ++ s.pending = s.input
    rw [messages_write_msg]
    exact hnext
  · change (s.write (.msg msg)).messages <+: s.input
    rw [messages_write_msg]
    exact ⟨s.pending, hnext⟩
  · intro hclosed' _
    exact h.closed hclosed' hruns
  · intro connection hmem
    change (s.endSent || msg == eos) = true
    rcases List.mem_append.mp hmem with hmem | hmem
    · rw [h.eosSent connection hmem]
      rfl
    · cases List.mem_singleton.mp hmem
      rw [beq_self_eq_true, Bool.or_true]
  · rintro (heq | heq | heq) <;> cases heq
  · intro n refused hsome
    obtain ⟨hinput, hle, hbefore, hafter, -⟩ := h.refused n refused hsome
    have hreopened := h.reopened_of_refused (Pc.not_ended hwrites) (Option.isSome_iff_exists.mpr ⟨_, hsome⟩)
    change s.input[n]? = some refused ∧ n ≤ (s.write (.msg msg)).log.length ∧
      (∀ e ∈ (s.write (.msg msg)).log.take n, e.1 = 1) ∧
        (∀ e ∈ (s.write (.msg msg)).log.drop n, e.1 = 2) ∧ _
    rw [log_write_msg, List.length_append, List.take_append_of_le_length hle,
      List.drop_append_of_le_length hle]
    refine ⟨hinput, Nat.le_add_right_of_le hle, hbefore, ?_, fun _ => .inl rfl⟩
    intro e he
    rcases List.mem_append.mp he with he | he
    · exact hafter e he
    · rw [List.mem_singleton.mp he, hserving, hreopened]
      rfl

/-- A send that fails puts its message back. -/
theorem Kept.raises (h : Kept s) (hpc : s.pc = .sending msg) (hcancelled : s.cancelled = false) :
    Kept { s with
      pc := .awaiting
      pending := msg :: s.pending
      refused := if s.reopened then s.refused else some (s.messages.length, msg) } := by
  have hwrites : s.pc.writes = true := by
    rw [hpc]
    rfl
  have hruns : s.pc.runs = true := by
    rw [hpc]
    rfl
  have hqueue := h.queue hruns (h.not_closed hruns hcancelled)
  rw [hpc] at hqueue
  refine ⟨h.texts, fun _ _ => hqueue, h.written, fun hclosed _ => h.closed hclosed hruns, nofun,
    fun _ => .inl rfl, h.eosSent, h.last, h.connections, fun _ => h.serving (.inl hwrites), ?_,
    h.numbers, ?_⟩
  · rintro (heq | heq | heq) <;> cases heq
  · intro n refused hsome
    change s.input[n]? = some refused ∧ n ≤ s.log.length ∧ (∀ e ∈ s.log.take n, e.1 = 1) ∧
      (∀ e ∈ s.log.drop n, e.1 = 2) ∧ _
    cases hreopened : s.reopened with
    | true =>
      simp only [hreopened, if_true] at hsome
      obtain ⟨hinput, hle, hbefore, hafter, -⟩ := h.refused n refused hsome
      exact ⟨hinput, hle, hbefore, hafter, fun _ => .inl rfl⟩
    | false =>
      simp only [hreopened, Bool.false_eq_true, if_false, Option.some.injEq, Prod.mk.injEq] at hsome
      obtain ⟨rfl, rfl⟩ := hsome
      have hlength : s.messages.length = s.log.length := List.length_map _
      refine ⟨?_, hlength.le, ?_, ?_, fun _ => .inl rfl⟩
      · rw [← hqueue, List.getElem?_append_right le_rfl, Nat.sub_self]
        rfl
      · intro e he
        obtain ⟨⟨connection, w⟩, hw, hsome⟩ := List.mem_filterMap.mp (List.mem_of_mem_take he)
        have hnumber := h.numbers _ hw
        rw [hreopened] at hnumber
        cases w with
        | msg m =>
          cases hsome
          exact hnumber.resolve_right fun hr => Bool.noConfusion hr.2
        | init => cases hsome
        | keepalive => cases hsome
      · rw [hlength, List.drop_length]
        exact nofun

/-- The reader and the audio are no part of it. -/
theorem Kept.withAudio (h : Kept s) (reader : Option Reader) (audio : Audio) :
    Kept { s with reader, audio } :=
  ⟨h.texts, h.queue, h.written, h.closed, h.awake, h.endSent, h.eosSent, h.last, h.connections,
    h.serving, h.opening, h.numbers, h.refused⟩

/-- A runner that has ended writes no more, whatever becomes of the deque. -/
theorem Kept.ended (h : Kept s) {pc : Pc} (hpc : pc.runs = false) (cancelled closed : Bool)
    (pending : List Msg) (reader : Option Reader) :
    Kept { s with pc, cancelled, closed, pending, reader } := by
  have hwrites : pc.writes ≠ true := fun hwrites => Pc.not_ended hwrites (.inr hpc)
  refine ⟨h.texts, ?_, h.written, ?_, ?_, fun _ => .inr hpc, h.eosSent, h.last, h.connections, ?_,
    ?_, h.numbers, ?_⟩
  · intro hruns
    cases hpc.symm.trans hruns
  · intro _ hruns
    cases hpc.symm.trans hruns
  · rintro rfl
    cases hpc
  · rintro (hwrites' | rfl)
    · exact absurd hwrites' hwrites
    · cases hpc
  · rintro (rfl | rfl | rfl) <;> cases hpc
  · intro n msg hsome
    obtain ⟨hinput, hle, hbefore, hafter, -⟩ := h.refused n msg hsome
    exact ⟨hinput, hle, hbefore, hafter, fun _ => .inr hpc⟩

/-- The runner goes on without writing: to open a connection, or on one that is open. -/
theorem Kept.moves (h : Kept s) (pc : Pc) (hruns : s.pc.runs = true) (hnone : s.pc.inFlight = [])
    (hpc : pc.inFlight = []) (hsent : s.endSent = false) (hasleep : pc ≠ .asleep)
    (connections : Nat) (reader : Option Reader) (audio : Audio)
    (hserving : pc.writes = true ∨ pc = .awaiting → connections = 1 + s.reopened.toNat)
    (hopening : pc = .created ∨ pc = .connecting ∨ pc = .reclosing →
      connections = s.reopened.toNat)
    (hle : connections ≤ 1 + s.reopened.toNat)
    (hrefused : s.refused.isSome = true → s.reopened = true ∨ pc = .awaiting) :
    Kept { s with pc, connections, reader, audio } := by
  refine ⟨h.texts, ?_, h.written, fun hclosed _ => h.closed hclosed hruns, fun heq => absurd heq hasleep,
    ?_, h.eosSent, h.last, hle, hserving, hopening, h.numbers, ?_⟩
  · intro _ hclosed
    have hqueue := h.queue hruns hclosed
    rw [hnone] at hqueue
    change s.messages ++ (pc.inFlight ++ s.pending) = s.input
    rw [hpc]
    exact hqueue
  · intro hsent'
    rw [show s.endSent = true from hsent'] at hsent
    cases hsent
  · intro n msg hsome
    obtain ⟨hinput, hlength, hbefore, hafter, -⟩ := h.refused n msg hsome
    refine ⟨hinput, hlength, hbefore, hafter, ?_⟩
    intro hnot
    refine .inl ((hrefused (Option.isSome_iff_exists.mpr ⟨_, hsome⟩)).resolve_left ?_)
    intro hreopened
    rw [show s.reopened = false from hnot] at hreopened
    cases hreopened

/-- A client adds to the end of the deque. -/
theorem Kept.enqueue (h : Kept s) (accepted more : List Msg) (endRequested : Bool)
    (htexts : ∀ msg ∈ accepted, msg.text ≠ [])
    (hinput : { s with accepted, endRequested }.input = s.input ++ more) :
    Kept { s with accepted, endRequested, pending := s.pending ++ more, wakeup := true } := by
  refine ⟨htexts, ?_, ?_, h.closed, fun _ _ => rfl, h.endSent, h.eosSent, h.last, h.connections,
    h.serving, h.opening, h.numbers, ?_⟩
  · intro hruns hclosed
    change s.messages ++ (s.pc.inFlight ++ (s.pending ++ more)) = { s with accepted, endRequested }.input
    rw [hinput, ← h.queue hruns hclosed]
    simp only [List.append_assoc]
  · change s.messages <+: { s with accepted, endRequested }.input
    rw [hinput]
    exact h.written.trans (List.prefix_append _ _)
  · intro n msg hsome
    obtain ⟨hget, hrest⟩ := h.refused n msg hsome
    refine ⟨?_, hrest⟩
    change { s with accepted, endRequested }.input[n]? = some msg
    obtain ⟨hlt, -⟩ := List.getElem?_eq_some_iff.mp hget
    rw [hinput, List.getElem?_append_left hlt]
    exact hget

theorem Kept.sendTextChunk (h : Kept s) (text : PyStr) :
    Kept (s.sendTextChunk endsSentence text) := by
  unfold Stream.sendTextChunk
  split
  · exact h
  · rename_i hgoes
    simp only [Bool.or_eq_true, List.isEmpty_iff, not_or] at hgoes
    obtain ⟨⟨-, hend⟩, htext⟩ := hgoes
    rw [Bool.not_eq_true] at hend
    refine h.enqueue (s.accepted ++ [⟨text, endsSentence text⟩]) [⟨text, endsSentence text⟩]
      s.endRequested ?_ ?_
    · intro msg hmsg
      rcases List.mem_append.mp hmsg with hmsg | hmsg
      · exact h.texts msg hmsg
      · rwa [List.mem_singleton.mp hmsg]
    · simp only [Stream.input, hend, Bool.false_eq_true, if_false, List.append_nil]

theorem Kept.endInput (h : Kept s) : Kept s.endInput := by
  unfold Stream.endInput
  split
  · exact h
  · rename_i hgoes
    simp only [Bool.or_eq_true, not_or, Bool.not_eq_true] at hgoes
    have hkept := h.enqueue s.accepted [flushEnd, eos] true h.texts (by
      simp only [Stream.input, hgoes.2, Bool.false_eq_true, if_false, if_true, List.append_nil])
    simp only [Stream.enqueue, List.append_assoc]
    exact hkept

theorem Kept.close (h : Kept s) : Kept s.close := by
  unfold Stream.close
  split
  · exact h
  · refine ⟨h.texts, fun _ => nofun, h.written, ?_, fun _ hne => absurd rfl hne, h.endSent, h.eosSent,
      h.last, h.connections, h.serving, h.opening, h.numbers, h.refused⟩
    intro _ hruns
    change (s.cancelled || !s.pc.isDone) = true
    rw [Pc.isDone_of_runs hruns]
    exact Bool.or_true _

/-- `_serve` opens a second connection only if the first one ended too early. -/
theorem Kept.serve (h : Kept s) (hpc : s.pc = .awaiting) (outcome : ReadOutcome) :
    Kept (s.serve outcome) := by
  have hclosing : Kept { s with pc := .closing, reader := none } :=
    h.ended rfl s.cancelled s.closed s.pending none
  unfold Stream.serve
  cases outcome with
  | final => exact hclosing
  | overflow => exact hclosing
  | error => exact hclosing
  | closed kind =>
    simp only
    split
    · exact hclosing
    · cases kind with
      | auth => exact hclosing
      | quota => exact hclosing
      | capacity => exact hclosing
      | other =>
        simp only
        split
        · exact hclosing
        · rename_i hgoes
          simp only [Bool.or_eq_true, not_or, Bool.not_eq_true] at hgoes
          obtain ⟨hsent, hreopened⟩ := hgoes
          have hserving := h.serving (.inr hpc)
          rw [hreopened] at hserving
          have hqueue := h.queue
          rw [hpc] at hqueue
          refine ⟨h.texts, hqueue, h.written, ?_, nofun, ?_, h.eosSent, h.last, ?_, ?_, ?_, ?_, ?_⟩
          · intro hclosed _
            refine h.closed hclosed ?_
            rw [hpc]
            rfl
          · intro hsent'
            rw [show s.endSent = true from hsent'] at hsent
            cases hsent
          · exact hserving.trans_le (Nat.le_succ 1)
          · rintro (hwrites | heq)
            · cases hwrites
            · cases heq
          · exact fun _ => hserving
          · intro e he
            refine .inl ((h.numbers e he).resolve_right ?_)
            rintro ⟨-, hr⟩
            rw [hreopened] at hr
            cases hr
          · intro n msg hsome
            obtain ⟨hinput, hle, hbefore, hafter, -⟩ := h.refused n msg hsome
            exact ⟨hinput, hle, hbefore, hafter, nofun⟩

/-- A connection is about to be opened, or is. -/
theorem Kept.opens (h : Kept s) (hold : s.pc = .created ∨ s.pc = .connecting ∨ s.pc = .reclosing) :
    Kept { s with pc := .connecting } ∧
      Kept { s with
        pc := .initializing
        reader := some .reads
        connections := s.connections + 1
        audio := s.audio.opened } := by
  have hruns : s.pc.runs = true := by
    rcases hold with hpc | hpc | hpc <;> rw [hpc] <;> rfl
  have hnone : s.pc.inFlight = [] := by
    rcases hold with hpc | hpc | hpc <;> rw [hpc] <;> rfl
  have hgoes : ¬ (s.pc = .awaiting ∨ s.pc.runs = false) := by
    rw [hruns]
    rintro (hpc | hnot)
    · rw [hpc] at hold
      rcases hold with heq | heq | heq <;> cases heq
    · cases hnot
  have hsent := h.not_sent hgoes
  have hopening := h.opening hold
  have hrefused := h.reopened_of_refused hgoes
  refine ⟨h.moves .connecting hruns hnone rfl hsent nofun _ s.reader s.audio ?_ (fun _ => hopening)
      h.connections fun hsome => .inl (hrefused hsome),
    h.moves .initializing hruns hnone rfl hsent nofun _ _ _ ?_ ?_ ?_ fun hsome =>
      .inl (hrefused hsome)⟩
  · rintro (heq | heq) <;> cases heq
  · intro _
    rw [hopening, Nat.add_comm]
  · rintro (heq | heq | heq) <;> cases heq
  · rw [hopening, Nat.add_comm]

/-- The loop goes on after a write. -/
theorem Kept.write_loop (h : Kept s) (hwrites : s.pc.writes = true) (hnone : s.pc.inFlight = [])
    (hw : ∀ msg, w ≠ .msg msg) : Kept (s.write w).loop := by
  have hgoes := Pc.not_ended hwrites
  have hserving := h.serving (.inl hwrites)
  exact (h.write (h.not_sent hgoes) hserving hw).loop hnone (Pc.runs_of_writes hwrites) hserving
    (h.reopened_of_refused hgoes)

/-- A send of something else fails, and nothing is put back. -/
theorem Kept.awaits (h : Kept s) (hwrites : s.pc.writes = true) (hnone : s.pc.inFlight = []) :
    Kept { s with pc := .awaiting } := by
  have hserving := h.serving (.inl hwrites)
  refine h.moves .awaiting (Pc.runs_of_writes hwrites) hnone rfl (h.not_sent (Pc.not_ended hwrites))
    nofun _ s.reader s.audio (fun _ => hserving) ?_ h.connections fun _ => .inr rfl
  rintro (heq | heq | heq) <;> cases heq

theorem Kept.runnerStep {move : Move} (h : Kept s) (hcancelled : s.cancelled = false)
    (hstep : runnerStep s move = some s') : Kept s' := by
  cases move with
  | starts =>
    simp only [TtsStream.runnerStep] at hstep
    split at hstep <;> cases hstep
    exact (h.opens (.inl ‹_›)).1
  | connects =>
    simp only [TtsStream.runnerStep] at hstep
    split at hstep <;> cases hstep
    exact (h.opens (.inr (.inl ‹_›))).2
  | connectFails =>
    simp only [TtsStream.runnerStep] at hstep
    split at hstep <;> cases hstep
    exact h.ended rfl s.cancelled s.closed s.pending s.reader
  | sent =>
    simp only [TtsStream.runnerStep] at hstep
    split at hstep
    · rename_i hpc
      cases hstep
      exact h.write_loop (by rw [hpc]; rfl) (by rw [hpc]; rfl) nofun
    · rename_i msg hpc
      cases hstep
      have hwrites : s.pc.writes = true := by
        rw [hpc]
        rfl
      exact (h.sent hpc hcancelled).loop rfl rfl (h.serving (.inl hwrites))
        (h.reopened_of_refused (Pc.not_ended hwrites))
    · rename_i hpc
      cases hstep
      exact h.write_loop (by rw [hpc]; rfl) (by rw [hpc]; rfl) nofun
    · cases hstep
  | raises =>
    simp only [TtsStream.runnerStep] at hstep
    split at hstep
    · rename_i hpc
      cases hstep
      exact h.awaits (by rw [hpc]; rfl) (by rw [hpc]; rfl)
    · rename_i hpc
      cases hstep
      exact h.awaits (by rw [hpc]; rfl) (by rw [hpc]; rfl)
    · rename_i msg hpc
      cases hstep
      exact h.raises hpc hcancelled
    · cases hstep
  | wakes =>
    simp only [TtsStream.runnerStep] at hstep
    split at hstep <;> cases hstep
    rename_i hasleep
    have hwrites : s.pc.writes = true := by
      rw [hasleep.1]
      rfl
    exact h.loop (by rw [hasleep.1]; rfl) (Pc.runs_of_writes hwrites) (h.serving (.inl hwrites))
      (h.reopened_of_refused (Pc.not_ended hwrites))
  | timesOut idle =>
    simp only [TtsStream.runnerStep] at hstep
    split at hstep
    · rename_i hasleep
      have hwrites : s.pc.writes = true := by
        rw [hasleep.1]
        rfl
      have hgoes := Pc.not_ended hwrites
      split at hstep <;> cases hstep
      · exact h.ended rfl s.cancelled true [] none
      · refine h.moves .keepalive (Pc.runs_of_writes hwrites) (by rw [hasleep.1]; rfl) rfl
          (h.not_sent hgoes) nofun _ s.reader s.audio (fun _ => h.serving (.inl hwrites)) ?_
          h.connections fun hsome => .inl (h.reopened_of_refused hgoes hsome)
        rintro (heq | heq | heq) <;> cases heq
    · cases hstep
  | joins =>
    simp only [TtsStream.runnerStep] at hstep
    split at hstep
    · rename_i outcome hpc _
      cases hstep
      exact h.serve hpc outcome
    · cases hstep
  | closed =>
    simp only [TtsStream.runnerStep] at hstep
    split at hstep
    · rename_i hpc
      cases hstep
      exact (h.opens (.inr (.inr hpc))).1
    · cases hstep
      exact h.ended rfl s.cancelled s.closed s.pending s.reader
    · cases hstep

theorem Kept.step {a : Action} (h : Kept s) (hstep : step endsSentence s a = some s') : Kept s' := by
  cases a with
  | sendTextChunk text =>
    cases hstep
    exact h.sendTextChunk text
  | endInput =>
    cases hstep
    exact h.endInput
  | close =>
    cases hstep
    exact h.close
  | cancels =>
    simp only [TtsStream.step] at hstep
    split at hstep <;> cases hstep
    exact ⟨h.texts, h.queue, h.written, fun _ _ => rfl, h.awake, h.endSent, h.eosSent, h.last,
      h.connections, h.serving, h.opening, h.numbers, h.refused⟩
  | runner move =>
    simp only [TtsStream.step] at hstep
    split at hstep
    · cases hstep
    · exact h.runnerStep (Bool.not_eq_true _ ▸ ‹_›) hstep
  | stops =>
    simp only [TtsStream.step, TtsStream.stop] at hstep
    split at hstep
    · split at hstep <;> cases hstep
      · exact h.ended rfl false s.closed s.pending s.reader
      · exact h.ended rfl false s.closed s.pending s.reader
      · exact h.ended rfl false s.closed s.pending none
    · cases hstep
  | calledBack =>
    simp only [TtsStream.step] at hstep
    split at hstep <;> cases hstep
    exact (h.withAudio s.reader s.audio.finish).ended rfl s.cancelled s.closed s.pending s.reader
  | receives frame =>
    simp only [TtsStream.step] at hstep
    split at hstep
    · split at hstep <;> cases hstep
      · exact h.withAudio _ _
      · exact h.withAudio _ _
    · cases hstep
  | drops kind =>
    simp only [TtsStream.step] at hstep
    split at hstep <;> cases hstep
    exact h.withAudio _ s.audio
  | get =>
    obtain ⟨audio, -, rfl⟩ := Option.map_eq_some_iff.mp hstep
    exact h.withAudio s.reader audio

theorem kept_of_reachable (h : Reachable (step endsSentence) {} s) : Kept s := by
  refine h.invariant ?_ fun s a s' hs _ hstep => hs.step hstep
  refine ⟨nofun, fun _ _ => rfl, List.prefix_rfl, nofun, nofun, nofun, nofun, ?_, Nat.zero_le _, ?_,
    fun _ => rfl, nofun, nofun⟩
  · intro before connection after heq
    cases before <;> cases heq
  · rintro (heq | heq) <;> cases heq

-- ---------------------------------------------------------------------------
-- What is written
-- ---------------------------------------------------------------------------

/-- The chunks of text among the messages. -/
def chunksOf (msgs : List Msg) : List Msg := msgs.filter fun msg => !msg.text.isEmpty

theorem chunksOf_input (h : Kept s) : chunksOf s.input = s.accepted := by
  have haccepted : chunksOf s.accepted = s.accepted := by
    refine List.filter_eq_self.mpr ?_
    intro msg hmsg
    rw [List.isEmpty_eq_false_iff.mpr (h.texts msg hmsg)]
    rfl
  rw [Stream.input, chunksOf, List.filter_append, ← chunksOf, haccepted]
  split <;> exact List.append_nil _

/-- The end of the input is in the deque only once `end` was called. -/
theorem Kept.endRequested (h : Kept s) {connection : Nat}
    (hmem : (connection, Write.msg eos) ∈ s.written) : s.endRequested = true := by
  have hlog : (connection, eos) ∈ s.log := List.mem_filterMap.mpr ⟨_, hmem, rfl⟩
  have hinput : eos ∈ s.input := h.written.subset (List.mem_map.mpr ⟨_, hlog, rfl⟩)
  cases hend : s.endRequested with
  | true => rfl
  | false =>
    rw [Stream.input, hend] at hinput
    rcases List.mem_append.mp hinput with hmem | hmem
    · exact absurd rfl (h.texts eos hmem)
    · cases hmem

/-- A sleeping writer with something to write can wake, and sends the first of it unless its
reader has ended. -/
theorem Kept.wakes (h : Kept s) (hasleep : s.pc = .asleep) (hpending : s.pending ≠ [])
    (hcancelled : s.cancelled = false) :
    ∃ s', TtsStream.step endsSentence s (.runner .wakes) = some s' ∧
      (s.readerDone = true ∨ s'.pc.inFlight = s.pending.take 1) := by
  have hwakeup := h.awake hasleep hpending
  have hsent := h.not_sent (Pc.not_ended (by rw [hasleep]; rfl))
  refine ⟨s.loop, ?_, ?_⟩
  · simp only [TtsStream.step, TtsStream.runnerStep, hcancelled, hasleep, hwakeup, Bool.true_or,
      and_self, if_true, Bool.false_eq_true, if_false]
  · unfold Stream.loop
    cases hdone : s.readerDone with
    | true => exact .inl rfl
    | false =>
      refine .inr ?_
      rw [hsent]
      cases hqueue : s.pending with
      | nil => exact absurd hqueue hpending
      | cons msg rest => rfl

/-- Over the connections of a stream, of which there are two at most, its chunks are written in
order, one that was refused first on the second; the end of the input is the last thing written,
if `end` was called; and a chunk does not wait for another event. -/
theorem written_in_order (endsSentence : PyStr → Bool) (s : Stream)
    (h : Reachable (step endsSentence) {} s) :
    chunksOf s.messages <+: s.accepted ∧
    (s.pc.runs = true → s.closed = false →
      chunksOf s.messages ++ chunksOf (s.pc.inFlight ++ s.pending) = s.accepted) ∧
    (∀ n msg, s.refused = some (n, msg) → (∀ e ∈ s.log.take n, e.1 = 1) ∧
      ∀ connection next, s.log[n]? = some (connection, next) → connection = 2 ∧ next = msg) ∧
    (∀ before connection after, s.written = before ++ (connection, .msg eos) :: after →
      after = [] ∧ (∀ w ∈ before, w.2 ≠ .msg eos) ∧ s.endRequested = true) ∧
    s.connections ≤ 2 ∧
    (s.pc = .asleep → s.pending ≠ [] → s.cancelled = false →
      ∃ s', step endsSentence s (.runner .wakes) = some s' ∧
        (s.readerDone = true ∨ s'.pc.inFlight = s.pending.take 1)) := by
  have hkept := kept_of_reachable h
  refine ⟨?_, ?_, ?_, ?_, ?_, hkept.wakes⟩
  · rw [← chunksOf_input hkept]
    exact hkept.written.filter _
  · intro hruns hclosed
    rw [← chunksOf_input hkept, ← hkept.queue hruns hclosed]
    exact (List.filter_append _ _).symm
  · intro n msg hsome
    obtain ⟨hinput, -, hbefore, hafter, -⟩ := hkept.refused n msg hsome
    refine ⟨hbefore, ?_⟩
    intro connection next hnext
    have hmem : (connection, next) ∈ s.log.drop n := by
      refine @List.mem_of_getElem? _ _ 0 _ ?_
      rw [List.getElem?_drop, Nat.add_zero, hnext]
    have hmessage : s.messages[n]? = some next := by
      rw [Stream.messages, List.getElem?_map, hnext]
      rfl
    have hsame : s.input[n]? = some next := by
      obtain ⟨rest, hrest⟩ := hkept.written
      obtain ⟨hlt, -⟩ := List.getElem?_eq_some_iff.mp hmessage
      rw [← hrest, List.getElem?_append_left hlt, hmessage]
    exact ⟨hafter _ hmem, Option.some.inj (hsame.symm.trans hinput)⟩
  · intro before connection after heq
    have hmem : (connection, Write.msg eos) ∈ s.written := by
      rw [heq]
      exact List.mem_append_right _ List.mem_cons_self
    refine ⟨hkept.last before connection after heq, ?_, hkept.endRequested hmem⟩
    rintro ⟨earlier, w⟩ hw rfl
    obtain ⟨front, back, rfl⟩ := List.append_of_mem hw
    rw [List.append_assoc, List.cons_append] at heq
    have hnil := hkept.last front earlier _ heq
    exact absurd hnil (List.append_ne_nil_of_right_ne_nil _ (List.cons_ne_nil _ _))
  · have hle := hkept.connections
    have hone := Bool.toNat_le s.reopened
    omega

/-- The first chunk is refused by a connection that drops, and goes over the second. -/
def reopens : List Action :=
  [.runner .starts, .runner .connects, .runner .sent, .sendTextChunk [97], .runner .wakes,
    .runner .raises, .drops .other, .runner .joins, .endInput, .runner .closed, .runner .connects,
    .runner .sent, .runner .sent, .runner .sent, .runner .sent]

theorem written_in_order_reopens :
    ∃ s, run (step fun _ => true) {} reopens = some s ∧ s.connections ≤ 2 ∧
      s.log[0]? = some (2, ⟨[97], true⟩) ∧ chunksOf s.messages <+: [⟨[97], true⟩] := by
  obtain ⟨s, hs⟩ : ∃ s, run (step fun _ => true) {} reopens = some s := ⟨_, rfl⟩
  have hordered := written_in_order (fun _ => true) s (reachable_of_run hs)
  obtain ⟨hinitial, -, -, -, hconnections, -⟩ := hordered
  refine ⟨s, hs, hconnections, ?_, ?_⟩
  · cases hs
    rfl
  · cases hs
    exact hinitial

end ElevenLabs.TtsStream
