-- SUMMARY: The audio side of an `ElevenLabsTtsStream`: what `_read` makes of a message, the carried byte and the buffer.
import JotaGateway.Base.EndMarked
import JotaGateway.ElevenLabs.Tts
import JotaGateway.Python.Base64
import Mathlib.Algebra.GroupWithZero.Nat

/-!
# The audio of a text-to-speech stream

PCM16 comes base64-encoded, in payloads of any length, and leaves in chunks of
whole samples: a byte left over is carried to the next message. `earlier` and
`current` only record what was decoded.
-/

namespace ElevenLabs.TtsStream

open EndMarked (Queue)
open Tts (ReadOutcome)

abbrev Bytes := List UInt8

def MAX_BUFFER_BYTES : Nat := 10 * 1024 * 1024

/-- The bytes up to the last whole sample. -/
def samples (bytes : Bytes) : Bytes := bytes.take (bytes.length / 2 * 2)

structure Audio where
  carry : Bytes := []
  buffered : Nat := 0
  out : Queue Bytes := []
  /-- the chunks that consumers took, in order -/
  given : List Bytes := []
  /-- the decoded audio of the connection before -/
  earlier : Bytes := []
  /-- the decoded audio of the connection -/
  current : Bytes := []

/-- What `async for` over the socket yields, or raises. -/
inductive Frame where
  | binary
  /-- `json.loads` raises `ValueError`. -/
  | unparsed
  | value (v : Json)
  /-- anything but `ConnectionClosed` -/
  | raises

/-- `data.get("audio")`, if it is a `str` and not empty. -/
def audioText (data : PyDict) : Option PyStr :=
  match data.get "audio" with
  | .str (c :: text) => some (c :: text)
  | _ => none

namespace Audio

/-- `if data.get("isFinal")` -/
def final (data : PyDict) : Option ReadOutcome :=
  if (data.get "isFinal").truthy then some .final else none

/-- `self._buffered += len(pcm); self._out.put_nowait(pcm)` -/
def put (a : Audio) (pcm : Bytes) : Audio :=
  { a with buffered := a.buffered + pcm.length, out := EndMarked.put a.out pcm }

/-- A decoded payload, behind the byte carried over: the byte it leaves over, and the rest. -/
def split (carry bytes : Bytes) : Bytes × Bytes :=
  let pcm := carry ++ bytes
  let carry := if pcm.length % 2 = 1 then pcm.drop (pcm.length - 1) else []
  (carry, pcm.take (pcm.length - carry.length))

/-- One message in `_read`, and what it returns if it does. -/
def message (a : Audio) (data : PyDict) : Audio × Option ReadOutcome :=
  match audioText data with
  | none => (a, final data)
  | some text =>
    match Base64.b64decode text with
    | none => (a, none)
    | some bytes =>
      let (carry, pcm) := split a.carry bytes
      let a := { a with carry, current := a.current ++ bytes }
      if pcm = [] then (a, none)
      else if MAX_BUFFER_BYTES < a.buffered + pcm.length then (a, some .overflow)
      else (a.put pcm, final data)

/-- `json_messages` gives `_read` the objects only. -/
def frame (a : Audio) : Frame → Audio × Option ReadOutcome
  | .binary | .unparsed => (a, none)
  | .value v =>
    match v.dict? with
    | some data => a.message data
    | none => (a, none)
  | .raises => (a, some .error)

/-- A consumer takes from `_out`. -/
def get (a : Audio) : Option Audio :=
  match EndMarked.get a.out with
  | none => none
  | some (none, out) => some { a with out }
  | some (some pcm, out) =>
    some { a with out, buffered := a.buffered - pcm.length, given := a.given ++ [pcm] }

/-- The end marker. -/
def finish (a : Audio) : Audio := { a with out := EndMarked.finish a.out }

/-- A connection is opened: nothing is reset. -/
def opened (a : Audio) : Audio := { a with earlier := a.earlier ++ a.current, current := [] }

/-- All chunks, taken or not. -/
def chunks (a : Audio) : List Bytes := a.given ++ EndMarked.items a.out

end Audio

-- ---------------------------------------------------------------------------
-- Samples
-- ---------------------------------------------------------------------------

variable {a a' : Audio} {bytes carry pcm : Bytes} {data : PyDict} {f : Frame} {ended : Bool}

theorem samples_of_even (h : bytes.length % 2 = 0) : samples bytes = bytes := by
  rw [samples, List.take_of_length_le]
  omega

theorem samples_concat (h : bytes.length % 2 = 0) (b : UInt8) : samples (bytes ++ [b]) = bytes := by
  have hlength : (bytes ++ [b]).length / 2 * 2 = bytes.length := by
    rw [List.length_append, List.length_singleton]
    omega
  rw [samples, hlength, List.take_left']
  rfl

/-- Whole samples in front are kept. -/
theorem samples_append (h : bytes.length % 2 = 0) (rest : Bytes) :
    samples (bytes ++ rest) = bytes ++ samples rest := by
  have hlength : (bytes ++ rest).length / 2 * 2 = bytes.length + rest.length / 2 * 2 := by
    rw [List.length_append]
    omega
  rw [samples, hlength, List.take_length_add_append, samples]

/-- A byte in front of `bytes` does not shift their samples: there are none, or the samples are
that byte all over. -/
def Unshifted (byte : UInt8) (bytes : Bytes) : Prop :=
  bytes = [] ∨ bytes.length % 2 = 0 ∧ ∀ b ∈ bytes, b = byte

theorem take_cons_iff (byte : UInt8) (bytes : Bytes) :
    (byte :: bytes).take bytes.length = bytes ↔ ∀ b ∈ bytes, b = byte := by
  induction bytes generalizing byte with
  | nil => exact iff_of_true rfl nofun
  | cons c rest ih =>
    rw [List.length_cons, List.take_succ_cons, List.cons.injEq, ih, List.forall_mem_cons]
    constructor
    · rintro ⟨rfl, h⟩
      exact ⟨rfl, h⟩
    · rintro ⟨rfl, h⟩
      exact ⟨rfl, h⟩

theorem samples_cons_iff (byte : UInt8) (bytes : Bytes) :
    samples (byte :: bytes) = samples bytes ↔ Unshifted byte bytes := by
  rcases Nat.mod_two_eq_zero_or_one bytes.length with heven | hodd
  · have hlength : (byte :: bytes).length / 2 * 2 = bytes.length := by
      rw [List.length_cons]
      omega
    rw [samples, hlength, samples_of_even heven, take_cons_iff]
    constructor
    · intro h
      exact .inr ⟨heven, h⟩
    · rintro (rfl | ⟨-, h⟩)
      · exact nofun
      · exact h
  · -- one side is two bytes longer
    refine iff_of_false ?_ ?_
    · intro h
      have hlength := congrArg List.length h
      rw [samples, samples, List.length_take, List.length_take, List.length_cons] at hlength
      omega
    · rintro (rfl | ⟨heven, -⟩)
      · cases hodd
      · omega

/-- The odd byte of `earlier`, if there is one, does not shift the samples of `current`. -/
def Separate (earlier current : Bytes) : Prop :=
  earlier.length % 2 = 0 ∨ ∃ whole byte, earlier = whole ++ [byte] ∧ Unshifted byte current

theorem samples_append_iff (earlier current : Bytes) :
    samples (earlier ++ current) = samples earlier ++ samples current ↔
      Separate earlier current := by
  rcases Nat.mod_two_eq_zero_or_one earlier.length with heven | hodd
  · rw [samples_append heven, samples_of_even heven]
    exact iff_of_true rfl (.inl heven)
  · obtain ⟨whole, byte, rfl⟩ : ∃ whole byte, earlier = whole ++ [byte] := by
      rcases List.eq_nil_or_concat earlier with rfl | ⟨whole, byte, rfl⟩
      · cases hodd
      · exact ⟨whole, byte, List.concat_eq_append⟩
    have hwhole : whole.length % 2 = 0 := by
      rw [List.length_append, List.length_singleton] at hodd
      omega
    rw [samples_concat hwhole, List.append_assoc, samples_append hwhole,
      List.append_cancel_left_eq, List.singleton_append, samples_cons_iff]
    constructor
    · intro h
      exact .inr ⟨whole, byte, rfl, h⟩
    · rintro (heven | ⟨whole', byte', heq, h⟩)
      · omega
      · obtain ⟨-, hbyte⟩ := List.append_inj' heq rfl
        rwa [(List.cons.inj hbyte).1]

-- ---------------------------------------------------------------------------
-- What the audio side keeps
-- ---------------------------------------------------------------------------

/-- The queue, and what is counted of it. -/
structure Audio.Kept (ended : Bool) (a : Audio) : Prop where
  marked : EndMarked.Marked ended a.out
  buffered : a.buffered = ((EndMarked.items a.out).map List.length).sum
  bounded : a.buffered ≤ MAX_BUFFER_BYTES
  even : ∀ pcm ∈ a.chunks, pcm.length % 2 = 0

/-- Nothing that was decoded is lost. -/
structure Audio.Whole (a : Audio) : Prop where
  bytes : a.chunks.flatten ++ a.carry = a.earlier ++ a.current
  carry : a.carry.length ≤ 1

theorem split_spec (carry bytes : Bytes) :
    (Audio.split carry bytes).2 ++ (Audio.split carry bytes).1 = carry ++ bytes ∧
      (Audio.split carry bytes).1.length ≤ 1 ∧ (Audio.split carry bytes).2.length % 2 = 0 := by
  simp only [Audio.split]
  split
  · rename_i hodd
    have hlength : ((carry ++ bytes).drop ((carry ++ bytes).length - 1)).length = 1 := by
      rw [List.length_drop]
      omega
    rw [hlength, List.take_append_drop, List.length_take]
    exact ⟨rfl, le_rfl, by omega⟩
  · rename_i heven
    rw [List.length_nil, Nat.sub_zero, List.take_length, List.append_nil]
    exact ⟨rfl, Nat.zero_le 1, Nat.mod_two_ne_one.mp heven⟩

/-- The ways a message goes: it adds nothing, no whole sample, or a chunk. -/
theorem Audio.message_cases {r : Option ReadOutcome} (h : a.message data = (a', r)) :
    a' = a ∨ ∃ bytes,
      (a' = { a with carry := (split a.carry bytes).1, current := a.current ++ bytes } ∧
        ((split a.carry bytes).2 = [] ∨ r = some .overflow)) ∨
      (a' = { a with carry := (split a.carry bytes).1, current := a.current ++ bytes }.put
          (split a.carry bytes).2 ∧
        a.buffered + (split a.carry bytes).2.length ≤ MAX_BUFFER_BYTES) := by
  unfold Audio.message at h
  split at h
  · cases h
    exact .inl rfl
  · split at h
    · cases h
      exact .inl rfl
    · rename_i bytes _
      simp only at h
      refine .inr ⟨bytes, ?_⟩
      split_ifs at h with hempty hover
      · cases h
        exact .inl ⟨rfl, .inl hempty⟩
      · cases h
        exact .inl ⟨rfl, .inr rfl⟩
      · cases h
        exact .inr ⟨rfl, Nat.not_lt.mp hover⟩

namespace Audio.Kept

theorem put (h : Kept false a) (heven : pcm.length % 2 = 0)
    (hfits : a.buffered + pcm.length ≤ MAX_BUFFER_BYTES) : Kept false (a.put pcm) := by
  refine ⟨h.marked.put pcm, ?_, hfits, ?_⟩
  · rw [Audio.put, EndMarked.items_put, List.map_append, List.sum_append, h.buffered]
    rfl
  · intro c hc
    rw [chunks, Audio.put, EndMarked.items_put, ← List.append_assoc] at hc
    rcases List.mem_append.mp hc with hc | hc
    · exact h.even c hc
    · rwa [List.mem_singleton.mp hc]

theorem finish (h : Kept false a) : Kept true a.finish := by
  refine ⟨h.marked.finish, ?_, h.bounded, ?_⟩
  · rw [Audio.finish, EndMarked.items_finish, h.buffered]
  · intro c hc
    rw [chunks, Audio.finish, EndMarked.items_finish] at hc
    exact h.even c hc

theorem message {r : Option ReadOutcome} (h : Kept false a) (hmessage : a.message data = (a', r)) :
    Kept false a' := by
  rcases message_cases hmessage with rfl | ⟨bytes, ⟨rfl, -⟩ | ⟨rfl, hfits⟩⟩
  · exact h
  · exact ⟨h.marked, h.buffered, h.bounded, h.even⟩
  · have hkept : Kept false { a with carry := (split a.carry bytes).1, current := a.current ++ bytes } :=
      ⟨h.marked, h.buffered, h.bounded, h.even⟩
    exact hkept.put (split_spec a.carry bytes).2.2 hfits

theorem frame {r : Option ReadOutcome} (h : Kept false a) (hframe : a.frame f = (a', r)) :
    Kept false a' := by
  unfold Audio.frame at hframe
  split at hframe
  · cases hframe
    exact h
  · cases hframe
    exact h
  · split at hframe
    · exact h.message hframe
    · cases hframe
      exact h
  · cases hframe
    exact h

end Audio.Kept

/-- A consumer takes the first chunk, or meets the marker and leaves it. -/
theorem Audio.get_cases (h : EndMarked.Marked ended a.out) (hget : a.get = some a') :
    a'.chunks = a.chunks ∧ a'.carry = a.carry ∧ a'.earlier = a.earlier ∧ a'.current = a.current ∧
      EndMarked.Marked ended a'.out ∧
        ((∃ pcm, EndMarked.items a.out = pcm :: EndMarked.items a'.out ∧
          a'.buffered = a.buffered - pcm.length) ∨ a' = a) := by
  unfold Audio.get at hget
  split at hget
  · cases hget
  · rename_i out hout
    cases hget
    rcases h.get_cases hout with ⟨_, hnone, -⟩ | ⟨-, -, rfl, -⟩
    · cases hnone
    · exact ⟨rfl, rfl, rfl, rfl, h, .inr rfl⟩
  · rename_i pcm out hout
    cases hget
    rcases h.get_cases hout with ⟨_, hsome, hitems, hmarked⟩ | ⟨hnone, -⟩
    · cases hsome
      refine ⟨?_, rfl, rfl, rfl, hmarked, .inl ⟨pcm, hitems, rfl⟩⟩
      rw [chunks, chunks, hitems, List.append_assoc]
      rfl
    · cases hnone

theorem Audio.Kept.get (h : Kept ended a) (hget : a.get = some a') : Kept ended a' := by
  obtain ⟨hchunks, -, -, -, hmarked, ⟨pcm, hitems, hbuffered⟩ | rfl⟩ := get_cases h.marked hget
  · have hsum := h.buffered
    rw [hitems, List.map_cons, List.sum_cons] at hsum
    refine ⟨hmarked, by omega, ?_, ?_⟩
    · have hbounded := h.bounded
      omega
    · rw [hchunks]
      exact h.even
  · exact h

namespace Audio.Whole

theorem message {r : Option ReadOutcome} (h : Whole a) (hmessage : a.message data = (a', r))
    (hr : r ≠ some .overflow) : Whole a' := by
  rcases message_cases hmessage with rfl | ⟨bytes, ⟨rfl, hempty⟩ | ⟨rfl, -⟩⟩
  · exact h
  · obtain ⟨hsplit, hcarry, -⟩ := split_spec a.carry bytes
    rw [hempty.resolve_right hr, List.nil_append] at hsplit
    refine ⟨?_, hcarry⟩
    change a.chunks.flatten ++ (split a.carry bytes).1 = a.earlier ++ (a.current ++ bytes)
    rw [hsplit, ← List.append_assoc, ← List.append_assoc, h.bytes]
  · obtain ⟨hsplit, hcarry, -⟩ := split_spec a.carry bytes
    refine ⟨?_, hcarry⟩
    simp only [Audio.put, chunks, EndMarked.items_put, List.flatten_append, List.flatten_singleton,
      List.append_assoc, hsplit]
    rw [← List.append_assoc a.earlier, ← h.bytes, chunks, List.flatten_append]
    simp only [List.append_assoc]

theorem frame {r : Option ReadOutcome} (h : Whole a) (hframe : a.frame f = (a', r))
    (hr : r ≠ some .overflow) : Whole a' := by
  unfold Audio.frame at hframe
  split at hframe
  · cases hframe
    exact h
  · cases hframe
    exact h
  · split at hframe
    · exact h.message hframe hr
    · cases hframe
      exact h
  · cases hframe
    exact h

theorem get (h : Whole a) (hmarked : EndMarked.Marked ended a.out) (hget : a.get = some a') :
    Whole a' := by
  obtain ⟨hchunks, hcarry, hearlier, hcurrent, -⟩ := get_cases hmarked hget
  refine ⟨?_, ?_⟩
  · rw [hchunks, hcarry, hearlier, hcurrent]
    exact h.bytes
  · rw [hcarry]
    exact h.carry

theorem opened (h : Whole a) : Whole a.opened :=
  ⟨h.bytes.trans (List.append_nil _).symm, h.carry⟩

/-- The chunks are the samples of all that was decoded. -/
theorem chunks_flatten (h : Whole a) (hkept : Kept ended a) :
    a.chunks.flatten = samples (a.earlier ++ a.current) := by
  have heven : a.chunks.flatten.length % 2 = 0 := by
    have hall := hkept.even
    generalize a.chunks = chunks at hall
    induction chunks with
    | nil => rfl
    | cons pcm chunks ih =>
      have hpcm := hall pcm List.mem_cons_self
      have hrest := ih fun c hc => hall c (List.mem_cons_of_mem _ hc)
      rw [List.flatten_cons, List.length_append]
      omega
  rw [← h.bytes]
  match hcarry : a.carry with
  | [] => rw [List.append_nil, samples_of_even heven]
  | [byte] => rw [samples_concat heven]
  | _ :: _ :: _ =>
    have hle := h.carry
    rw [hcarry, List.length_cons, List.length_cons] at hle
    omega

end Audio.Whole

end ElevenLabs.TtsStream
