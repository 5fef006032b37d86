-- SUMMARY: The audio buffer of an `ElevenLabsSttSession`: `send_audio`, `_pump`, `_drain`, and the life of the connection around a send.
import JotaGateway.Base.Transition
import Mathlib.Logic.Function.Basic

/-!
# The send buffer of a speech-to-text session

A send copies the front of `_buf`, suspends in `ws.send` with `_send_lock`, and
deletes by length when it returns. The other coroutines of the session run in
between. `received`, `left`, `sent` and `dropped` only record what happened to
which byte, numbered in the order of arrival.
-/

namespace ElevenLabs.SendBuffer

open Transition

abbrev UpId := Nat
abbrev SocketId := Nat

def MIN_CHUNK_BYTES : Nat := 3200
def MAX_CHUNK_BYTES : Nat := 32000

/-- `_buf_cap` -/
def BUF_CAP : Nat := 64000

/-- A sample of PCM16, as `f32le_to_s16le` packs it. -/
abbrev Sample := UInt8 × UInt8

def pcm (samples : List Sample) : List UInt8 := samples.flatMap fun x => [x.1, x.2]

/-- An `input_audio_chunk`, with the number of its first byte. -/
structure Chunk where
  socket : SocketId
  commit : Bool
  start : Nat
  bytes : List UInt8
  deriving DecidableEq, Repr

/-- Behind the last byte of the chunk. -/
def Chunk.stop (c : Chunk) : Nat := c.start + c.bytes.length

def Chunk.covers (c : Chunk) (p : Nat) : Prop := c.start ≤ p ∧ p < c.stop

/-- The send that has `_send_lock`: of a `_drain`, or of a `_pump`. -/
structure Sending where
  drain : Bool
  up : UpId
  chunk : Chunk
  deriving DecidableEq, Repr

structure Buffer where
  buf : List UInt8 := []
  sending : Option Sending := none
  received : List UInt8 := []
  /-- how many bytes have left `buf` -/
  left : Nat := 0
  /-- the chunks whose `ws.send` has returned -/
  sent : List Chunk := []
  /-- what was dropped, from a byte up to another one -/
  dropped : List (Nat × Nat) := []

namespace Buffer

def append (b : Buffer) (bytes : List UInt8) : Buffer :=
  { b with buf := b.buf ++ bytes, received := b.received ++ bytes }

/-- `del buf[:n]` as an explicit drop. -/
def drop (b : Buffer) (n : Nat) : Buffer :=
  { b with
    buf := b.buf.drop n
    left := b.left + min n b.buf.length
    dropped := b.dropped ++ [(b.left, b.left + min n b.buf.length)] }

/-- `buf.clear()` -/
def clear (b : Buffer) : Buffer := b.drop b.buf.length

/-- `_trim_buffer` -/
def trim (b : Buffer) : Buffer :=
  if BUF_CAP < b.buf.length then
    let excess := b.buf.length - BUF_CAP
    b.drop (excess + excess % 2)
  else
    b

/-- `_send_buffer` copies the next chunk and sends it. -/
def sendChunk (b : Buffer) (drain : Bool) (up : UpId) (socket : SocketId) : Buffer :=
  { b with sending := some { drain, up, chunk := {
      socket, commit := false, start := b.left, bytes := b.buf.take MAX_CHUNK_BYTES } } }

/-- `_send_commit` takes all there is and sends it. -/
def sendCommit (b : Buffer) (drain : Bool) (up : UpId) (socket : SocketId) : Buffer :=
  { b with
    buf := []
    left := b.left + b.buf.length
    sending := some { drain, up, chunk := {
      socket, commit := true, start := b.left, bytes := b.buf } } }

/-- `ws.send` returns; after a chunk that is not the commit chunk comes `del buf[:n]`. -/
def returns (b : Buffer) (c : Chunk) : Buffer :=
  if c.commit then { b with sending := none, sent := b.sent ++ [c] }
  else
    { b with
      sending := none
      sent := b.sent ++ [c]
      buf := b.buf.drop c.bytes.length
      left := b.left + min c.bytes.length b.buf.length }

end Buffer

/-- An upstream, as far as the sends see it. -/
structure Up where
  ws : Option SocketId := none
  ready : Bool := false
  closing : Bool := false
  draining : Bool := false
  deriving DecidableEq, Repr

structure Session where
  audio : Buffer := {}
  uncommitted : Bool := false
  wantCommit : Bool := false
  conn : Option UpId := none
  ups : UpId → Up := fun _ => {}
  upCount : Nat := 0
  socketCount : Nat := 0
  terminal : Bool := false
  closed : Bool := false
  /-- `_ensure_upstream` calls that wait in the status callback to refuse the audio, and
  whether they are part of a `send_audio` -/
  refusals : List Bool := []
  /-- `send_audio` calls that are about to pump or to trim -/
  tails : Nat := 0

/-- What `_ensure_upstream` finds where there is no upstream. -/
inductive Ensure where
  /-- the cooldown is not over -/
  | cooling
  /-- the semaphore is locked -/
  | refused
  | opens
  deriving DecidableEq, Repr

namespace Session

def setUp (s : Session) (u : UpId) (up : Up) : Session :=
  { s with ups := Function.update s.ups u up }

/-- `_ensure_upstream`, up to the status callback of a refusal; `tail` says that it is part of
a `send_audio`. -/
def ensureUpstream (s : Session) (found : Ensure) (tail : Bool) : Session :=
  if s.conn.isSome || s.closed || s.terminal then { s with tails := s.tails + tail.toNat }
  else
    match found with
    | .cooling => { s with audio := s.audio.clear, tails := s.tails + tail.toNat }
    | .refused => { s with refusals := s.refusals ++ [tail] }
    | .opens =>
      { s with
        conn := some s.upCount
        ups := Function.update s.ups s.upCount {}
        upCount := s.upCount + 1
        tails := s.tails + tail.toNat }

/-- `send_audio`, up to its pump or trim. -/
def sendAudio (s : Session) (samples : List Sample) (found : Ensure) : Session :=
  if s.closed || s.terminal || samples.isEmpty then s
  else
    ensureUpstream { s with audio := s.audio.append (pcm samples), uncommitted := true } found true

/-- There is a connection that takes audio. -/
def pumps (s : Session) : Bool :=
  match s.conn with
  | some u => (s.ups u).ready && !(s.ups u).draining
  | none => false

/-- `send_audio` after `_ensure_upstream`; its `_pump` waits for the lock, as any other. -/
def tail (s : Session) : Session :=
  if s.pumps then { s with tails := s.tails - 1 }
  else { s with tails := s.tails - 1, audio := s.audio.trim }

/-- What follows `_send_buffer` is a commit: in `_drain` for any audio, in `_pump` on demand;
`waits` says that the last commit is too recent. -/
def commits (s : Session) (drain waits : Bool) : Bool :=
  if drain then s.uncommitted || !s.audio.buf.isEmpty else s.wantCommit && !waits

/-- The loop of `_send_buffer` with the lock held, and the commit after it. -/
def goOn (s : Session) (drain : Bool) (u : UpId) (waits : Bool) : Session :=
  match (s.ups u).ws with
  | none => s
  | some socket =>
    if MIN_CHUNK_BYTES ≤ s.audio.buf.length then
      { s with audio := s.audio.sendChunk drain u socket }
    else if s.commits drain waits then
      { s with audio := s.audio.sendCommit drain u socket, uncommitted := false, wantCommit := false }
    else
      s

/-- `_pump` with the lock. -/
def pump (s : Session) (waits : Bool) : Session :=
  match s.conn with
  | none => s
  | some u =>
    let up := s.ups u
    if up.closing || up.draining || !up.ready then s else s.goOn false u waits

/-- `_on_provider_degraded` -/
def degrade (s : Session) : Session :=
  { s with audio := s.audio.clear, uncommitted := false, wantCommit := false, terminal := true }

end Session

open Session

inductive Action where
  | sendAudio (samples : List Sample) (found : Ensure)
  /-- the status callback of a refusal is over -/
  | refuses (tail : Bool)
  | tail
  | sendEnd
  /-- any `_pump` gets the lock -/
  | pump (waits : Bool)
  /-- `ws.send` returns -/
  | returns (waits : Bool)
  /-- `ws.send` raises `ConnectionClosed` -/
  | raises
  /-- the idle loop, or `close()` -/
  | drainStarts
  /-- `_drain` of `u` gets the lock -/
  | drains (u : UpId)
  /-- `_drain_and_close` of `u` goes on to close -/
  | drained (u : UpId)
  /-- a new upstream for audio left over from the last one -/
  | respawns (found : Ensure)
  /-- the first connect of the upstream failed -/
  | connectFails
  /-- a socket is open for `u` -/
  | connects (u : UpId)
  /-- `session_started` -/
  | started (u : UpId)
  /-- a `committed_transcript` that covers all audio -/
  | committed
  /-- an error message of the provider -/
  | rejected (u : UpId)
  /-- the reader of `u` is done -/
  | dropped (u : UpId)
  /-- the life task of the connection is done -/
  | leaves
  | degrades
  | close
  deriving DecidableEq, Repr

/-- What an action does, and `none` where it cannot happen. -/
def step (s : Session) (a : Action) : Option Session :=
  match a with
  | .sendAudio samples found => some (s.sendAudio samples found)
  | .refuses tail =>
    if tail ∈ s.refusals then
      some { s with
        refusals := s.refusals.erase tail
        audio := s.audio.clear
        uncommitted := false
        tails := s.tails + tail.toNat }
    else
      none
  | .tail => if s.tails = 0 then none else some s.tail
  | .sendEnd =>
    some (if s.closed || s.terminal || !s.uncommitted then s else { s with wantCommit := true })
  | .pump waits => if s.audio.sending.isSome then none else some (s.pump waits)
  | .returns waits =>
    match s.audio.sending with
    | none => none
    | some x =>
      let s := { s with audio := s.audio.returns x.chunk }
      some (if x.chunk.commit then s else s.goOn x.drain x.up waits)
  | .raises =>
    if s.audio.sending.isSome then some { s with audio := { s.audio with sending := none } } else none
  | .drainStarts =>
    match s.conn with
    | none => none
    | some u => some (s.setUp u { s.ups u with draining := true })
  | .drains u =>
    if s.audio.sending.isSome || !(s.ups u).draining || (s.ups u).closing then none
    else some (s.goOn true u false)
  | .drained u => if (s.ups u).draining then some (s.setUp u { s.ups u with closing := true }) else none
  | .respawns found => some (s.ensureUpstream found false)
  | .connectFails =>
    if s.conn.isSome then some { s with audio := s.audio.clear, uncommitted := false } else none
  | .connects u =>
    if u < s.upCount then
      some { s.setUp u { s.ups u with ws := some s.socketCount, ready := false, closing := false } with
        socketCount := s.socketCount + 1 }
    else none
  | .started u => some (s.setUp u { s.ups u with ready := true })
  | .committed => some { s with uncommitted := false }
  | .rejected u => some (s.setUp u { s.ups u with closing := true })
  | .dropped u => some (s.setUp u { s.ups u with ready := false })
  | .leaves => some { s with conn := none }
  | .degrades => some s.degrade
  | .close => some { s with closed := true }

-- ---------------------------------------------------------------------------
-- The bytes and their numbers
-- ---------------------------------------------------------------------------

/-- The chunk is a piece of what was received, of a length that may be sent. -/
structure Whole (received : List UInt8) (c : Chunk) : Prop where
  bytes : c.bytes = (received.drop c.start).take c.bytes.length
  stop : c.stop ≤ received.length
  even : 2 ∣ c.bytes.length
  length : c.commit = false → MIN_CHUNK_BYTES ≤ c.bytes.length ∧ c.bytes.length ≤ MAX_CHUNK_BYTES

/-- What the buffer, the send in flight and the record say about each other in every run. -/
structure Ordered (b : Buffer) : Prop where
  buf : b.buf = b.received.drop b.left
  left : b.left ≤ b.received.length
  even : 2 ∣ b.buf.length
  sending : ∀ x, b.sending = some x → Whole b.received x.chunk ∧ x.chunk.start ≤ b.left ∧
    (x.chunk.commit = true → x.chunk.stop ≤ b.left)
  sent : ∀ c ∈ b.sent, Whole b.received c ∧ c.stop ≤ b.left
  before : ∀ x, b.sending = some x → ∀ c ∈ b.sent, c.stop ≤ x.chunk.start
  once : b.sent.Pairwise fun c d => c.stop ≤ d.start
  dropped : ∀ d ∈ b.dropped, d.2 ≤ b.left
  apart : ∀ x, b.sending = some x → x.chunk.commit = true →
    ∀ d ∈ b.dropped, d.2 ≤ x.chunk.start ∨ x.chunk.stop ≤ d.1

/-- Every byte that has left the buffer was sent, or dropped, or is in the commit chunk that
is being sent. -/
def Covered (b : Buffer) : Prop :=
  ∀ p < b.left, (∃ c ∈ b.sent, c.covers p) ∨ (∃ d ∈ b.dropped, d.1 ≤ p ∧ p < d.2) ∨
    ∃ x, b.sending = some x ∧ x.chunk.commit = true ∧ x.chunk.covers p

variable {b : Buffer} {s s' : Session}

theorem pcm_even (samples : List Sample) : 2 ∣ (pcm samples).length := by
  induction samples with
  | nil => exact Nat.dvd_zero 2
  | cons x rest ih =>
    rw [pcm, List.flatMap_cons, List.length_append]
    exact Nat.dvd_add (Nat.dvd_refl 2) ih

theorem Whole.append {received : List UInt8} {c : Chunk} (h : Whole received c)
    (bytes : List UInt8) : Whole (received ++ bytes) c := by
  have hstop := h.stop
  unfold Chunk.stop at hstop
  refine ⟨?_, ?_, h.even, h.length⟩
  · rw [List.drop_append_of_le_length (by omega), List.take_append_of_le_length]
    · exact h.bytes
    · rw [List.length_drop]
      omega
  · rw [List.length_append]
    exact Nat.le_add_right_of_le h.stop

theorem Ordered.length (h : Ordered b) : b.buf.length = b.received.length - b.left := by
  rw [h.buf, List.length_drop]

theorem Ordered.append (h : Ordered b) {bytes : List UInt8} (heven : 2 ∣ bytes.length) :
    Ordered (b.append bytes) where
  buf := by
    rw [Buffer.append, List.drop_append_of_le_length h.left, ← h.buf]
  left := by
    rw [Buffer.append, List.length_append]
    exact Nat.le_add_right_of_le h.left
  even := by
    rw [Buffer.append, List.length_append]
    exact Nat.dvd_add h.even heven
  sending x hx := by
    obtain ⟨hwhole, hrest⟩ := h.sending x hx
    exact ⟨hwhole.append bytes, hrest⟩
  sent c hc := by
    obtain ⟨hwhole, hstop⟩ := h.sent c hc
    exact ⟨hwhole.append bytes, hstop⟩
  before := h.before
  once := h.once
  dropped := h.dropped
  apart := h.apart

theorem Covered.append (h : Covered b) (bytes : List UInt8) : Covered (b.append bytes) := h

/-- Bytes leave at the front, in pairs. -/
theorem Ordered.drop (h : Ordered b) {n : Nat} (heven : 2 ∣ n) : Ordered (b.drop n) := by
  have hlength := h.length
  have hleft := h.left
  have hmono : b.left ≤ b.left + min n b.buf.length := Nat.le_add_right ..
  refine ⟨?_, ?_, ?_, ?_, ?_, h.before, h.once, ?_, ?_⟩
  · dsimp only [Buffer.drop]
    rw [h.buf, List.drop_drop, ← h.buf]
    by_cases hle : n ≤ b.buf.length
    · rw [Nat.min_eq_left hle]
    · rw [List.drop_eq_nil_of_le (by omega), List.drop_eq_nil_of_le (by omega)]
  · dsimp only [Buffer.drop]
    omega
  · have hbuf := h.even
    dsimp only [Buffer.drop]
    rw [List.length_drop]
    omega
  · intro x hx
    obtain ⟨hwhole, hstart, hcommit⟩ := h.sending x hx
    exact ⟨hwhole, Nat.le_trans hstart hmono, fun hc => Nat.le_trans (hcommit hc) hmono⟩
  · intro c hc
    obtain ⟨hwhole, hstop⟩ := h.sent c hc
    exact ⟨hwhole, Nat.le_trans hstop hmono⟩
  · intro d hd
    rcases List.mem_append.1 hd with hold | hnew
    · exact Nat.le_trans (h.dropped d hold) hmono
    · obtain rfl := List.mem_singleton.1 hnew
      exact Nat.le_refl _
  · intro x hx hcommit d hd
    rcases List.mem_append.1 hd with hold | hnew
    · exact h.apart x hx hcommit d hold
    · obtain rfl := List.mem_singleton.1 hnew
      exact .inr ((h.sending x hx).2.2 hcommit)

theorem Covered.drop (h : Covered b) (n : Nat) : Covered (b.drop n) := by
  intro p hp
  by_cases hold : p < b.left
  · rcases h p hold with hsent | ⟨d, hd, hp⟩ | hcommit
    · exact .inl hsent
    · exact .inr (.inl ⟨d, List.mem_append_left _ hd, hp⟩)
    · exact .inr (.inr hcommit)
  · exact .inr (.inl ⟨_, List.mem_append_right _ (List.mem_singleton.2 rfl),
      Nat.le_of_not_lt hold, hp⟩)

theorem Ordered.clear (h : Ordered b) : Ordered b.clear := h.drop h.even

theorem Ordered.trim (h : Ordered b) : Ordered b.trim := by
  unfold Buffer.trim
  split
  · refine h.drop ?_
    omega
  · exact h

theorem trim_of_le (h : b.buf.length ≤ BUF_CAP) : b.trim = b := if_neg (Nat.not_lt_of_le h)

theorem Covered.trim (h : Covered b) : Covered b.trim := by
  unfold Buffer.trim
  split
  · exact h.drop _
  · exact h

-- ---------------------------------------------------------------------------
-- Sends
-- ---------------------------------------------------------------------------

theorem Ordered.sendChunk (h : Ordered b) (hlength : MIN_CHUNK_BYTES ≤ b.buf.length) (drain : Bool)
    (up : UpId) (socket : SocketId) : Ordered (b.sendChunk drain up socket) := by
  have htaken : (b.buf.take MAX_CHUNK_BYTES).length = min MAX_CHUNK_BYTES b.buf.length :=
    List.length_take
  refine ⟨h.buf, h.left, h.even, ?_, h.sent, ?_, h.once, h.dropped, ?_⟩
  · intro x hx
    cases hx
    refine ⟨⟨?_, ?_, ?_, fun _ => ?_⟩, Nat.le_refl _, nofun⟩
    · dsimp only [Buffer.sendChunk]
      rw [htaken, ← h.buf, List.take_eq_take_iff]
      omega
    · have hbuf := h.length
      have hleft := h.left
      dsimp only [Chunk.stop, Buffer.sendChunk]
      omega
    · have heven := h.even
      dsimp only [Buffer.sendChunk]
      unfold MAX_CHUNK_BYTES at *
      omega
    · dsimp only [Buffer.sendChunk]
      unfold MIN_CHUNK_BYTES MAX_CHUNK_BYTES at *
      omega
  · intro x hx c hc
    cases hx
    exact (h.sent c hc).2
  · intro x hx
    cases hx
    exact nofun

/-- A send that starts takes the place of none. -/
theorem Covered.sendChunk (h : Covered b) (hfree : b.sending = none) (drain : Bool) (up : UpId)
    (socket : SocketId) : Covered (b.sendChunk drain up socket) := by
  intro p hp
  rcases h p hp with hsent | hdropped | ⟨x, hx, -⟩
  · exact .inl hsent
  · exact .inr (.inl hdropped)
  · cases hfree.symm.trans hx

theorem Ordered.sendCommit (h : Ordered b) (drain : Bool) (up : UpId) (socket : SocketId) :
    Ordered (b.sendCommit drain up socket) := by
  have hbuf := h.length
  have hleft := h.left
  have hmono : b.left ≤ b.left + b.buf.length := Nat.le_add_right ..
  refine ⟨?_, ?_, Nat.dvd_zero 2, ?_, ?_, ?_, h.once, ?_, ?_⟩
  · dsimp only [Buffer.sendCommit]
    rw [List.drop_eq_nil_of_le]
    omega
  · dsimp only [Buffer.sendCommit]
    omega
  · intro x hx
    cases hx
    refine ⟨⟨?_, ?_, h.even, nofun⟩, hmono, fun _ => Nat.le_refl _⟩
    · dsimp only [Buffer.sendCommit]
      rw [← h.buf, List.take_length]
    · dsimp only [Chunk.stop, Buffer.sendCommit]
      omega
  · intro c hc
    obtain ⟨hwhole, hstop⟩ := h.sent c hc
    exact ⟨hwhole, Nat.le_trans hstop hmono⟩
  · intro x hx c hc
    cases hx
    exact (h.sent c hc).2
  · intro d hd
    exact Nat.le_trans (h.dropped d hd) hmono
  · intro x hx _ d hd
    cases hx
    exact .inl (h.dropped d hd)

theorem Covered.sendCommit (h : Covered b) (hfree : b.sending = none) (drain : Bool) (up : UpId)
    (socket : SocketId) : Covered (b.sendCommit drain up socket) := by
  intro p hp
  by_cases hold : p < b.left
  · rcases h p hold with hsent | hdropped | ⟨x, hx, -⟩
    · exact .inl hsent
    · exact .inr (.inl hdropped)
    · cases hfree.symm.trans hx
  · exact .inr (.inr ⟨_, rfl, rfl, Nat.le_of_not_lt hold, hp⟩)

/-- A send that returns. -/
theorem Ordered.returns (h : Ordered b) {x : Sending} (hx : b.sending = some x) :
    Ordered (b.returns x.chunk) := by
  obtain ⟨hwhole, hstart, hcommit⟩ := h.sending x hx
  have hbuf := h.length
  have hleft := h.left
  have hstop := hwhole.stop
  have honce : (b.sent ++ [x.chunk]).Pairwise fun c d => c.stop ≤ d.start := by
    refine List.pairwise_append.2 ⟨h.once, List.pairwise_singleton .., ?_⟩
    intro c hc d hd
    obtain rfl := List.mem_singleton.1 hd
    exact h.before x hx c hc
  unfold Buffer.returns
  split
  · refine ⟨h.buf, h.left, h.even, nofun, ?_, nofun, honce, h.dropped, nofun⟩
    intro c hc
    rcases List.mem_append.1 hc with hold | hnew
    · exact h.sent c hold
    · obtain rfl := List.mem_singleton.1 hnew
      exact ⟨hwhole, hcommit ‹_›⟩
  · have hmono : b.left ≤ b.left + min x.chunk.bytes.length b.buf.length := Nat.le_add_right ..
    refine ⟨?_, ?_, ?_, nofun, ?_, nofun, honce, ?_, nofun⟩
    · dsimp only
      rw [h.buf, List.drop_drop, ← h.buf]
      by_cases hle : x.chunk.bytes.length ≤ b.buf.length
      · rw [Nat.min_eq_left hle]
      · rw [List.drop_eq_nil_of_le (by omega), List.drop_eq_nil_of_le (by omega)]
    · dsimp only
      omega
    · have heven := h.even
      have heven' := hwhole.even
      dsimp only
      rw [List.length_drop]
      omega
    · intro c hc
      rcases List.mem_append.1 hc with hold | hnew
      · obtain ⟨hwhole', hstop'⟩ := h.sent c hold
        exact ⟨hwhole', Nat.le_trans hstop' hmono⟩
      · obtain rfl := List.mem_singleton.1 hnew
        refine ⟨hwhole, ?_⟩
        unfold Chunk.stop at *
        dsimp only
        omega
    · intro d hd
      exact Nat.le_trans (h.dropped d hd) hmono

/-- What is deleted after the send of `c` is of `c`: nothing was dropped since it was copied,
or nothing is there, or what was dropped and what is there together are no more than it. -/
def Clean (b : Buffer) (c : Chunk) : Bool :=
  c.commit || b.left == c.start || b.buf.isEmpty ||
    decide (b.left - c.start + b.buf.length ≤ c.bytes.length)

theorem clean_iff (b : Buffer) {c : Chunk} (hcommit : c.commit = false) :
    Clean b c = true ↔ b.left = c.start ∨ b.buf.length = 0 ∨
      b.left - c.start + b.buf.length ≤ c.bytes.length := by
  unfold Clean
  rw [hcommit, Bool.false_or, Bool.or_eq_true, Bool.or_eq_true, beq_iff_eq, decide_eq_true_iff,
    List.isEmpty_iff_length_eq_zero, or_assoc]

theorem Covered.returns (h : Covered b) (hordered : Ordered b) {x : Sending}
    (hx : b.sending = some x) (hclean : Clean b x.chunk = true) : Covered (b.returns x.chunk) := by
  obtain ⟨-, hstart, -⟩ := hordered.sending x hx
  have hold : ∀ p < b.left, (∃ c ∈ b.sent ++ [x.chunk], c.covers p) ∨
      ∃ d ∈ b.dropped, d.1 ≤ p ∧ p < d.2 := by
    intro p hp
    rcases h p hp with ⟨c, hc, hcovers⟩ | hdropped | ⟨y, hy, -, hcovers⟩
    · exact .inl ⟨c, List.mem_append_left _ hc, hcovers⟩
    · exact .inr hdropped
    · obtain rfl : y = x := Option.some.inj (hy.symm.trans hx)
      exact .inl ⟨y.chunk, List.mem_append_right _ (List.mem_singleton.2 rfl), hcovers⟩
  unfold Buffer.returns
  split
  · intro p hp
    rcases hold p hp with hsent | hdropped
    · exact .inl hsent
    · exact .inr (.inl hdropped)
  · rename_i hcommit
    rw [clean_iff b (eq_false_of_ne_true hcommit)] at hclean
    intro p hp
    dsimp only at hp
    by_cases hleft : p < b.left
    · rcases hold p hleft with hsent | hdropped
      · exact .inl hsent
      · exact .inr (.inl hdropped)
    · refine .inl ⟨x.chunk, List.mem_append_right _ (List.mem_singleton.2 rfl), ?_, ?_⟩
      · omega
      · unfold Chunk.stop
        omega

/-- A byte that no send or drop accounts for. -/
theorem not_covered {p : Nat} (hp : p < b.left)
    (hsent : ∀ c ∈ b.sent, c.stop ≤ p) (hdropped : ∀ d ∈ b.dropped, d.2 ≤ p ∨ p < d.1)
    (hsending : ∀ x, b.sending = some x → x.chunk.commit = true → p < x.chunk.start) :
    ¬ Covered b := by
  intro hcovered
  rcases hcovered p hp with ⟨c, hc, -, hcovers⟩ | ⟨d, hd, hfrom, hto⟩ | ⟨x, hx, hcommit, hfrom, -⟩
  · exact absurd (hsent c hc) (Nat.not_le_of_lt hcovers)
  · rcases hdropped d hd with hle | hlt
    · exact absurd hle (Nat.not_le_of_lt hto)
    · exact absurd hlt (Nat.not_lt_of_le hfrom)
  · exact absurd hfrom (Nat.not_le_of_lt (hsending x hx hcommit))

-- ---------------------------------------------------------------------------
-- The session
-- ---------------------------------------------------------------------------

/-- With the lock held: the next chunk, the commit chunk, or nothing. -/
theorem goOn_cases (s : Session) (drain : Bool) (u : UpId) (waits : Bool) :
    (s.goOn drain u waits).audio = s.audio ∨
      (MIN_CHUNK_BYTES ≤ s.audio.buf.length ∧
        ∃ socket, (s.goOn drain u waits).audio = s.audio.sendChunk drain u socket) ∨
      ∃ socket, (s.goOn drain u waits).audio = s.audio.sendCommit drain u socket := by
  unfold Session.goOn
  split
  · exact .inl rfl
  · split
    · exact .inr (.inl ⟨‹_›, _, rfl⟩)
    · split
      · exact .inr (.inr ⟨_, rfl⟩)
      · exact .inl rfl

theorem Ordered.goOn (h : Ordered s.audio) (drain : Bool) (u : UpId) (waits : Bool) :
    Ordered (s.goOn drain u waits).audio := by
  rcases goOn_cases s drain u waits with heq | ⟨hlength, socket, heq⟩ | ⟨socket, heq⟩
  · rw [heq]
    exact h
  · rw [heq]
    exact h.sendChunk hlength drain u socket
  · rw [heq]
    exact h.sendCommit drain u socket

theorem Covered.goOn (h : Covered s.audio) (hfree : s.audio.sending = none) (drain : Bool)
    (u : UpId) (waits : Bool) : Covered (s.goOn drain u waits).audio := by
  rcases goOn_cases s drain u waits with heq | ⟨-, socket, heq⟩ | ⟨socket, heq⟩
  · rw [heq]
    exact h
  · rw [heq]
    exact h.sendChunk hfree drain u socket
  · rw [heq]
    exact h.sendCommit hfree drain u socket

theorem pump_cases (s : Session) (waits : Bool) :
    s.pump waits = s ∨ ∃ u, s.pump waits = s.goOn false u waits := by
  unfold Session.pump
  split
  · exact .inl rfl
  · dsimp only
    split
    · exact .inl rfl
    · exact .inr ⟨_, rfl⟩

theorem ensureUpstream_audio (s : Session) (found : Ensure) (tail : Bool) :
    (s.ensureUpstream found tail).audio = s.audio ∨
      (s.ensureUpstream found tail).audio = s.audio.clear := by
  unfold Session.ensureUpstream
  split
  · exact .inl rfl
  · cases found with
    | cooling => exact .inr rfl
    | refused => exact .inl rfl
    | opens => exact .inl rfl

theorem sendAudio_audio (s : Session) (samples : List Sample) (found : Ensure) :
    (s.sendAudio samples found).audio = s.audio ∨
      (s.sendAudio samples found).audio = s.audio.append (pcm samples) ∨
        (s.sendAudio samples found).audio = (s.audio.append (pcm samples)).clear := by
  unfold Session.sendAudio
  split
  · exact .inl rfl
  · exact .inr (ensureUpstream_audio _ found true)

theorem tail_audio (s : Session) : s.tail.audio = s.audio ∨ s.tail.audio = s.audio.trim := by
  cases hpumps : s.pumps with
  | true =>
    left
    rw [Session.tail, if_pos hpumps]
  | false =>
    right
    rw [Session.tail, if_neg (ne_true_of_eq_false hpumps)]

/-- What an action does to the audio: nothing, new audio, an explicit drop, a send that
starts, or a send that ends. -/
inductive Effect (s : Session) (a : Action) : Buffer → Prop where
  | keeps : Effect s a s.audio
  | appends (samples : List Sample) (found : Ensure) (ha : a = .sendAudio samples found) :
    Effect s a (s.audio.append (pcm samples))
  | appendsClears (samples : List Sample) : Effect s a (s.audio.append (pcm samples)).clear
  | clears : Effect s a s.audio.clear
  | trims : Effect s a s.audio.trim
  | sends (drain : Bool) (u : UpId) (waits : Bool) (hfree : s.audio.sending = none) :
    Effect s a (s.goOn drain u waits).audio
  | returns (x : Sending) (hx : s.audio.sending = some x) (waits : Bool) (ha : a = .returns waits) :
    Effect s a (if x.chunk.commit then s.audio.returns x.chunk
      else (Session.goOn { s with audio := s.audio.returns x.chunk } x.drain x.up waits).audio)
  | raises (x : Sending) (hx : s.audio.sending = some x) (ha : a = .raises) :
    Effect s a { s.audio with sending := none }

theorem step_effect {a : Action} (hstep : step s a = some s') : Effect s a s'.audio := by
  cases a with
  | sendAudio samples found =>
    cases hstep
    rcases sendAudio_audio s samples found with heq | heq | heq
    · rw [heq]
      exact .keeps
    · rw [heq]
      exact .appends samples found rfl
    · rw [heq]
      exact .appendsClears samples
  | refuses tail =>
    simp only [SendBuffer.step] at hstep
    split at hstep
    · cases hstep
      exact .clears
    · cases hstep
  | tail =>
    simp only [SendBuffer.step] at hstep
    split at hstep
    · cases hstep
    · cases hstep
      rcases tail_audio s with heq | heq
      · rw [heq]
        exact .keeps
      · rw [heq]
        exact .trims
  | sendEnd =>
    cases hstep
    split
    · exact .keeps
    · exact .keeps
  | pump waits =>
    simp only [SendBuffer.step] at hstep
    split at hstep
    · cases hstep
    · rename_i hfree
      cases hstep
      rcases pump_cases s waits with heq | ⟨u, heq⟩
      · rw [heq]
        exact .keeps
      · rw [heq]
        exact .sends false u waits (Option.not_isSome_iff_eq_none.1 hfree)
  | returns waits =>
    simp only [SendBuffer.step] at hstep
    split at hstep
    · cases hstep
    · rename_i x hx
      have heffect := Effect.returns x hx waits rfl
      cases hcommit : x.chunk.commit with
      | true =>
        rw [hcommit, if_pos rfl] at hstep heffect
        cases hstep
        exact heffect
      | false =>
        rw [hcommit, if_neg Bool.false_ne_true] at hstep heffect
        cases hstep
        exact heffect
  | raises =>
    simp only [SendBuffer.step] at hstep
    split at hstep
    · rename_i hsending
      cases hstep
      obtain ⟨x, hx⟩ := Option.isSome_iff_exists.1 hsending
      exact .raises x hx rfl
    · cases hstep
  | drainStarts =>
    simp only [SendBuffer.step] at hstep
    split at hstep
    · cases hstep
    · cases hstep
      exact .keeps
  | drains u =>
    simp only [SendBuffer.step] at hstep
    split at hstep
    · cases hstep
    · rename_i hfree
      cases hstep
      refine .sends true u false ?_
      rw [Bool.or_eq_true, Bool.or_eq_true, not_or, not_or] at hfree
      exact Option.not_isSome_iff_eq_none.1 hfree.1.1
  | drained u =>
    simp only [SendBuffer.step] at hstep
    split at hstep
    · cases hstep
      exact .keeps
    · cases hstep
  | respawns found =>
    cases hstep
    rcases ensureUpstream_audio s found false with heq | heq
    · rw [heq]
      exact .keeps
    · rw [heq]
      exact .clears
  | connectFails =>
    simp only [SendBuffer.step] at hstep
    split at hstep
    · cases hstep
      exact .clears
    · cases hstep
  | connects u =>
    simp only [SendBuffer.step] at hstep
    split at hstep
    · cases hstep
      exact .keeps
    · cases hstep
  | degrades =>
    cases hstep
    exact .clears
  | _ =>
    cases hstep
    exact .keeps

theorem Ordered.returnsOn (h : Ordered s.audio) {x : Sending} (hx : s.audio.sending = some x)
    (waits : Bool) : Ordered (if x.chunk.commit then s.audio.returns x.chunk
      else (Session.goOn { s with audio := s.audio.returns x.chunk } x.drain x.up waits).audio) := by
  split
  · exact h.returns hx
  · exact Ordered.goOn (h.returns hx) x.drain x.up waits

theorem Ordered.raises (h : Ordered b) : Ordered { b with sending := none } :=
  ⟨h.buf, h.left, h.even, nofun, h.sent, nofun, h.once, h.dropped, nofun⟩

/-- One step keeps the order of the bytes. -/
theorem Ordered.step (h : Ordered s.audio) {a : Action} (hstep : step s a = some s') :
    Ordered s'.audio := by
  have heffect := step_effect hstep
  generalize s'.audio = b at heffect ⊢
  cases heffect with
  | keeps => exact h
  | appends samples => exact h.append (pcm_even samples)
  | appendsClears samples => exact (h.append (pcm_even samples)).clear
  | clears => exact h.clear
  | trims => exact h.trim
  | sends drain u waits => exact h.goOn drain u waits
  | returns x hx waits => exact h.returnsOn hx waits
  | raises => exact h.raises

theorem Ordered.start : Ordered {} :=
  ⟨rfl, Nat.le_refl 0, Nat.dvd_zero 2, nofun, nofun, nofun, .nil, nofun, nofun⟩

theorem ordered_of_reachable (h : Reachable step {} s) : Ordered s.audio := by
  induction h with
  | start => exact .start
  | next _ _ hstep ih => exact ih.step hstep

/-- A send that returns finds the buffer as it left it, and no commit chunk with audio is
lost with its connection. -/
def ok (s : Session) : Action → Bool
  | .returns _ => s.audio.sending.all fun x => Clean s.audio x.chunk
  | .raises => s.audio.sending.all fun x => !x.chunk.commit || x.chunk.bytes.isEmpty
  | _ => true

theorem returns_free (b : Buffer) (c : Chunk) : (b.returns c).sending = none := by
  unfold Buffer.returns
  split <;> rfl

theorem Covered.raises (h : Covered b) {x : Sending} (hx : b.sending = some x)
    (hlost : x.chunk.commit = true → x.chunk.bytes = []) : Covered { b with sending := none } := by
  intro p hp
  rcases h p hp with hsent | hdropped | ⟨y, hy, hcommit, hfrom, hto⟩
  · exact .inl hsent
  · exact .inr (.inl hdropped)
  · obtain rfl : y = x := Option.some.inj (hy.symm.trans hx)
    rw [Chunk.stop, hlost hcommit] at hto
    exact absurd hfrom (Nat.not_le_of_lt hto)

theorem Covered.step (h : Covered s.audio) (hordered : Ordered s.audio) {a : Action}
    (hok : ok s a = true) (hstep : step s a = some s') : Covered s'.audio := by
  have heffect := step_effect hstep
  generalize s'.audio = b at heffect ⊢
  cases heffect with
  | keeps => exact h
  | appends samples => exact h.append _
  | appendsClears samples => exact (h.append _).drop _
  | clears => exact h.drop _
  | trims => exact h.trim
  | sends drain u waits hfree => exact h.goOn hfree drain u waits
  | returns x hx waits ha =>
    subst ha
    have hclean : Clean s.audio x.chunk = true := by
      rw [ok, hx] at hok
      exact hok
    have hreturned := h.returns hordered hx hclean
    split
    · exact hreturned
    · exact Covered.goOn hreturned (returns_free ..) x.drain x.up waits
  | raises x hx ha =>
    subst ha
    refine h.raises hx ?_
    intro hcommit
    rw [ok, hx, Option.all_some, hcommit, Bool.not_true, Bool.false_or, List.isEmpty_iff] at hok
    exact hok

/-- The steps that meet `ok`. -/
abbrev Runs : Session → Session → Prop := ReachableBy step fun s a => ok s a = true

theorem covered_of_runs (h : Runs {} s) : Covered s.audio := by
  induction h with
  | start => exact nofun
  | next hrun hok hstep ih => exact ih.step (ordered_of_reachable hrun.reachable) hok hstep

/-- What a send does to the front leaves what was sent and dropped before it. -/
theorem goOn_record (s : Session) (drain : Bool) (u : UpId) (waits : Bool) :
    (s.goOn drain u waits).audio.sent = s.audio.sent ∧
      (s.goOn drain u waits).audio.dropped = s.audio.dropped ∧
        s.audio.left ≤ (s.goOn drain u waits).audio.left ∧
          ∀ x, (s.goOn drain u waits).audio.sending = some x → s.audio.sending = none →
            x.chunk.start = s.audio.left := by
  rcases goOn_cases s drain u waits with heq | ⟨-, socket, heq⟩ | ⟨socket, heq⟩
  · rw [heq]
    refine ⟨rfl, rfl, Nat.le_refl _, ?_⟩
    intro x hx hfree
    cases hfree.symm.trans hx
  · rw [heq]
    refine ⟨rfl, rfl, Nat.le_refl _, ?_⟩
    intro x hx _
    cases hx
    rfl
  · rw [heq]
    refine ⟨rfl, rfl, Nat.le_add_right .., ?_⟩
    intro x hx _
    cases hx
    rfl

/-- A send that returns to a buffer it does not fit deletes a byte behind its chunk and
behind whatever was dropped meanwhile. -/
theorem returns_uncovers (h : Ordered s.audio) {x : Sending} (hx : s.audio.sending = some x)
    (hclean : Clean s.audio x.chunk = false) (waits : Bool) :
    ¬ Covered (Session.goOn { s with audio := s.audio.returns x.chunk } x.drain x.up waits).audio := by
  obtain ⟨hwhole, hstart, -⟩ := h.sending x hx
  have hcommit : x.chunk.commit = false := by
    by_contra hcommit
    rw [Clean, eq_true_of_ne_false hcommit] at hclean
    cases hclean
  have hover : ¬ (s.audio.left = x.chunk.start ∨ s.audio.buf.length = 0 ∨
      s.audio.left - x.chunk.start + s.audio.buf.length ≤ x.chunk.bytes.length) := by
    rw [← clean_iff s.audio hcommit, hclean]
    exact Bool.false_ne_true
  have hmin := (hwhole.length hcommit).1
  unfold MIN_CHUNK_BYTES at hmin
  have hreturned : s.audio.returns x.chunk = { s.audio with
      sending := none
      sent := s.audio.sent ++ [x.chunk]
      buf := s.audio.buf.drop x.chunk.bytes.length
      left := s.audio.left + min x.chunk.bytes.length s.audio.buf.length } :=
    if_neg (ne_true_of_eq_false hcommit)
  have hgone : max s.audio.left x.chunk.stop < (s.audio.returns x.chunk).left := by
    rw [hreturned]
    unfold Chunk.stop
    dsimp only
    omega
  obtain ⟨hsent, hdropped, hleft, hsending⟩ := goOn_record
    { s with audio := s.audio.returns x.chunk } x.drain x.up waits
  refine not_covered (Nat.lt_of_lt_of_le hgone hleft) ?_ ?_ ?_
  · intro c hc
    rw [hsent, hreturned] at hc
    rcases List.mem_append.1 hc with hold | hnew
    · exact Nat.le_trans (h.sent c hold).2 (Nat.le_max_left ..)
    · obtain rfl := List.mem_singleton.1 hnew
      exact Nat.le_max_right ..
  · intro d hd
    rw [hdropped, hreturned] at hd
    exact .inl (Nat.le_trans (h.dropped d hd) (Nat.le_max_left ..))
  · intro y hy _
    rw [hsending y hy (returns_free ..)]
    exact hgone

/-- A commit chunk with audio that raises is neither sent nor in the buffer any more. -/
theorem raises_uncovers (h : Ordered b) {x : Sending} (hx : b.sending = some x)
    (hcommit : x.chunk.commit = true) (hbytes : x.chunk.bytes.isEmpty = false) :
    ¬ Covered { b with sending := none } := by
  obtain ⟨-, -, hstop⟩ := h.sending x hx
  have hlength : 0 < x.chunk.bytes.length := by
    rw [List.length_pos_iff]
    intro hnil
    rw [hnil] at hbytes
    cases hbytes
  have hlt : x.chunk.start < x.chunk.stop := Nat.lt_add_of_pos_right hlength
  refine not_covered (Nat.lt_of_lt_of_le hlt (hstop hcommit)) ?_ ?_ nofun
  · intro c hc
    exact h.before x hx c hc
  · intro d hd
    rcases h.apart x hx hcommit d hd with hle | hle
    · exact .inl hle
    · exact .inr (Nat.lt_of_lt_of_le hlt hle)

/-- After a step that does not meet `ok` a byte is gone that was neither sent nor dropped. -/
theorem uncovers (h : Ordered s.audio) {a : Action} (hstep : step s a = some s')
    (hok : ok s a = false) : ¬ Covered s'.audio := by
  cases a with
  | returns waits =>
    simp only [SendBuffer.step] at hstep
    split at hstep
    · cases hstep
    · rename_i x hx
      have hclean : Clean s.audio x.chunk = false := by
        rw [ok, hx] at hok
        exact hok
      have hcommit : ¬ x.chunk.commit = true := by
        intro hcommit
        rw [Clean, hcommit] at hclean
        cases hclean
      rw [if_neg hcommit] at hstep
      cases hstep
      exact returns_uncovers h hx hclean waits
  | raises =>
    simp only [SendBuffer.step] at hstep
    split at hstep
    · rename_i hsending
      obtain ⟨x, hx⟩ := Option.isSome_iff_exists.1 hsending
      rw [ok, hx, Option.all_some, Bool.or_eq_false_iff, Bool.not_eq_false'] at hok
      cases hstep
      exact raises_uncovers h hx hok.1 hok.2
    · cases hstep
  | _ => cases hok

/-- In every run the chunks are pieces of what was received, one behind the other and of a
length that may be sent. Every byte that has left the buffer was sent or dropped (or is being
sent with the commit) in every run whose steps meet `ok`, and no longer after any other step. -/
theorem accounted (s s' : Session) (a : Action) (h : Reachable step {} s) :
    (s.audio.buf = s.audio.received.drop s.audio.left ∧
      (∀ c ∈ s.audio.sent, Whole s.audio.received c ∧ c.stop ≤ s.audio.left) ∧
      (∀ x, s.audio.sending = some x → Whole s.audio.received x.chunk) ∧
      s.audio.sent.Pairwise fun c d => c.stop ≤ d.start) ∧
    (Runs {} s → Covered s.audio) ∧
    (step s a = some s' → ok s a = false → ¬ Covered s'.audio) := by
  have hordered := ordered_of_reachable h
  refine ⟨⟨hordered.buf, hordered.sent, ?_, hordered.once⟩, covered_of_runs, uncovers hordered⟩
  intro x hx
  exact (hordered.sending x hx).1

/-- A word, confirmed at once. -/
def word : List Action :=
  [.sendAudio [(1, 2), (3, 4)] .opens, .tail, .connects 0, .started 0, .sendEnd, .pump false]

theorem accounted_word :
    ∃ s, run (guarded step ok) {} (word ++ [.returns false]) = some s ∧ Covered s.audio ∧
      s.audio.sent.Pairwise fun c d => c.stop ≤ d.start := by
  obtain ⟨s, hs⟩ : ∃ s, run (guarded step ok) {} (word ++ [.returns false]) = some s := ⟨_, rfl⟩
  have hruns := reachableBy_of_run hs
  obtain ⟨⟨-, -, -, honce⟩, hcovered, -⟩ := accounted s s .tail hruns.reachable
  exact ⟨s, hs, hcovered hruns, honce⟩

theorem pcm_length (samples : List Sample) : (pcm samples).length = 2 * samples.length := by
  induction samples with
  | nil => rfl
  | cons x rest ih =>
    have hcons : pcm (x :: rest) = [x.1, x.2] ++ pcm rest := List.flatMap_cons
    rw [hcons, List.length_append, ih, List.length_cons]
    dsimp only [List.length_cons, List.length_nil]
    omega

/-- A chunk is stuck in `ws.send`, the idle loop starts to drain, and audio comes again. -/
def stall (before after : List Sample) : List Action :=
  [.sendAudio before .opens, .tail, .connects 0, .started 0, .pump false, .drainStarts,
    .sendAudio after .opens, .tail]

/-- The trim of the audio that came behind a chunk in flight. -/
theorem trim_stalled {first second : List UInt8} (hfirst : first.length = 3200)
    (hsecond : second.length = 60802) :
    let b := (((Buffer.append {} first).sendChunk false 0 0).append second).trim
    b.left = 2 ∧ b.buf.length = 64000 ∧ b.sending = some { drain := false, up := 0, chunk := {
      socket := 0, commit := false, start := 0, bytes := first } } := by
  have hall : (first ++ second).length = 64002 := by
    rw [List.length_append, hfirst, hsecond]
  have htrim : (((Buffer.append {} first).sendChunk false 0 0).append second).trim =
      (((Buffer.append {} first).sendChunk false 0 0).append second).drop 2 := by
    have hbuf : (((Buffer.append {} first).sendChunk false 0 0).append second).buf.length = 64002 :=
      hall
    rw [Buffer.trim, hbuf]
    rfl
  have htake : first.take MAX_CHUNK_BYTES = first := by
    refine List.take_of_length_le ?_
    rw [hfirst]
    unfold MAX_CHUNK_BYTES
    omega
  rw [htrim]
  refine ⟨?_, ?_, ?_⟩
  · change 0 + min 2 (first ++ second).length = 2
    rw [hall]
    omega
  · change ((first ++ second).drop 2).length = 64000
    rw [List.length_drop, hall]
  · exact congrArg (fun bytes => some (Sending.mk false 0 ⟨0, false, 0, bytes⟩)) htake

theorem stall_run {before after : List Sample} (hbefore : before.length = 1600)
    (hafter : after.length = 30401) :
    ∃ s, run step {} (stall before after) = some s ∧ s.audio.left = 2 ∧
      s.audio.buf.length = 64000 ∧
        s.audio.sending = some { drain := false, up := 0, chunk := {
          socket := 0, commit := false, start := 0, bytes := pcm before } } := by
  have hfirst : (pcm before).length = 3200 := by rw [pcm_length, hbefore]
  have hsecond : (pcm after).length = 60802 := by rw [pcm_length, hafter]
  have hne : before.isEmpty = false :=
    List.isEmpty_eq_false_iff.2 (List.ne_nil_of_length_pos (by omega))
  have hne' : after.isEmpty = false :=
    List.isEmpty_eq_false_iff.2 (List.ne_nil_of_length_pos (by omega))
  have hlength : (Buffer.append {} (pcm before)).buf.length = 3200 := hfirst
  have htrim : (Buffer.append {} (pcm before)).trim = Buffer.append {} (pcm before) := by
    refine trim_of_le ?_
    rw [hlength]
    unfold BUF_CAP
    omega
  have hfree : (Buffer.append {} (pcm before)).sending = none := rfl
  have hchunk : MIN_CHUNK_BYTES ≤ (Buffer.append {} (pcm before)).buf.length := by
    rw [hlength]
    exact Nat.le_refl _
  simp only [stall, run, step, Session.sendAudio, Session.ensureUpstream, Session.tail,
    Session.pumps, Session.pump, Session.goOn, Session.setUp, hne, hne']
  simp [htrim, hfree, hchunk]
  exact trim_stalled hfirst hsecond

/-- Where the send returns after the stall, two bytes are deleted that were never sent. -/
theorem stall_uncovers {before after : List Sample} (hbefore : before.length = 1600)
    (hafter : after.length = 30401) :
    ∃ s, run step {} (stall before after ++ [.returns false]) = some s ∧ ¬ Covered s.audio := by
  obtain ⟨s, hrun, hleft, hbuf, hsending⟩ := stall_run hbefore hafter
  have hlength : (pcm before).length = 3200 := by
    rw [pcm_length, hbefore]
  refine ⟨_, run_append hrun ?_, returns_uncovers (ordered_of_reachable (reachable_of_run hrun))
    hsending ?_ false⟩
  · simp only [run, SendBuffer.step, hsending]
    rfl
  · rw [← Bool.not_eq_true, clean_iff s.audio rfl, hleft, hbuf]
    dsimp only
    omega

/-- A commit chunk is lost with its connection. -/
theorem word_uncovers :
    ∃ s, run step {} (word ++ [.raises]) = some s ∧ ¬ Covered s.audio := by
  obtain ⟨s, hs, hsending⟩ : ∃ s, run step {} word = some s ∧ s.audio.sending =
      some { drain := false, up := 0, chunk := {
        socket := 0, commit := true, start := 0, bytes := [1, 2, 3, 4] } } := ⟨_, rfl, rfl⟩
  have hlost := raises_uncovers (ordered_of_reachable (reachable_of_run hs)) hsending rfl rfl
  refine ⟨{ s with audio := { s.audio with sending := none } }, run_append hs ?_, hlost⟩
  simp only [run, SendBuffer.step, hsending]
  rfl

/-- Bytes leave the buffer that were neither sent nor dropped: where the oldest audio is
trimmed during a send that then returns, and where a connection is lost with a commit chunk. -/
theorem overrun :
    (∃ s, run step {} (stall (List.replicate 1600 (0, 0)) (List.replicate 30401 (0, 0)) ++
      [.returns false]) = some s ∧ ¬ Covered s.audio) ∧
        ∃ s, run step {} (word ++ [.raises]) = some s ∧ ¬ Covered s.audio :=
  ⟨stall_uncovers List.length_replicate List.length_replicate, word_uncovers⟩

end ElevenLabs.SendBuffer
