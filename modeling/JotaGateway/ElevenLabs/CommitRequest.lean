-- SUMMARY: The commit requests of an `ElevenLabsSttSession`: what became of their audio, and what a lost connection leaves of them.
import JotaGateway.ElevenLabs.SendBuffer
import JotaGateway.ElevenLabs.Stt

/-!
# Commit requests

`send_end` leaves its request in `_want_commit`, and some later `_pump` sends the
commit chunk. A `Record` is a session with what was discarded and delivered in
between, which the session itself does not know.
-/

namespace ElevenLabs.SendBuffer

open Transition

/-- `_ensure_upstream` would open a connection, but the cooldown is not over. -/
def Session.cools (s : Session) (found : Ensure) : Bool :=
  !(s.conn.isSome || s.closed || s.terminal) && found == .cooling

/-- The action clears the buffer, and nothing of it is sent. -/
def discards (s : Session) : Action → Bool
  | .sendAudio samples found => !(s.closed || s.terminal || samples.isEmpty) && s.cools found
  | .respawns found => s.cools found
  | .refuses _ | .connectFails | .degrades => true
  | _ => false

/-- The action is a `send_audio` that takes its audio. -/
def brings (s : Session) : Action → Bool
  | .sendAudio samples _ => !(s.closed || s.terminal || samples.isEmpty)
  | _ => false

/-- The action is a `send_end` that leaves a request. -/
def requests (s : Session) : Action → Bool
  | .sendEnd => !(s.closed || s.terminal || !s.uncommitted)
  | _ => false

/-- The send that the action has started. -/
def starts (s' : Session) : Action → Option Sending
  | .pump _ | .returns _ | .drains _ => s'.audio.sending
  | _ => none

/-- The action is the return of the send of a commit chunk. -/
def delivers (s : Session) : Action → Bool
  | .returns _ => s.audio.sending.any fun x => x.chunk.commit
  | _ => false

/-- A commit chunk whose send has started. -/
structure Commit where
  drain : Bool
  /-- the buffer was discarded, and there was no `send_end` after that -/
  discarded : Bool
  /-- the buffer was discarded, and there was no request after that for audio that was not -/
  stale : Bool
  deriving DecidableEq, Repr

structure Record where
  session : Session := {}
  /-- the buffer was discarded, and no audio came after that -/
  emptied : Bool := false
  discarded : Bool := false
  stale : Bool := false
  /-- the send of the last commit chunk is under way or has raised -/
  undelivered : Bool := false
  commits : List Commit := []

namespace Record

/-- What the record says after action `a` has led to `s'`. -/
def next (r : Record) (a : Action) (s' : Session) : Record :=
  let discarded := discards r.session a || r.discarded && a != .sendEnd
  -- a request without audio since the discard is one for the audio that is gone
  let stale := discards r.session a || r.stale && !(requests r.session a && !r.emptied)
  let started := (starts s' a).filter fun x => x.chunk.commit
  { session := s'
    emptied := discards r.session a || r.emptied && !brings r.session a
    discarded
    stale
    undelivered := started.isSome || r.undelivered && !delivers r.session a
    commits := r.commits ++ started.toList.map fun x => { drain := x.drain, discarded, stale } }

def step (r : Record) (a : Action) : Option Record :=
  (SendBuffer.step r.session a).map (r.next a)

end Record

/-- What `_life_main` does when the reader of a socket is done. -/
inductive AfterReader where
  | leaves
  /-- the connection was at rest: nothing is said of its end -/
  | idle
  | reconnects
  deriving DecidableEq, Repr

def Session.afterReader (s : Session) (u : UpId) (outcome : Stt.Outcome) : AfterReader :=
  if s.closed || s.terminal then .leaves
  else if (s.ups u).closing then .leaves
  else if outcome != .other then .leaves
  else if !(s.uncommitted || !s.audio.buf.isEmpty) then .idle
  else .reconnects

variable {s s' s₁ : Session} {r r' : Record} {a : Action} {drain waits : Bool} {u : UpId}

-- ---------------------------------------------------------------------------
-- Steps of the session
-- ---------------------------------------------------------------------------

/-- What starts with the lock held: a chunk where there is enough for one, and else the commit
chunk, with the fields that it resets. -/
theorem goOn_started {x : Sending} (hfree : s.audio.sending = none)
    (hx : (s.goOn drain u waits).audio.sending = some x) :
    x.drain = drain ∧
      ((x.chunk.commit = false ∧ MIN_CHUNK_BYTES ≤ s.audio.buf.length ∧
          ∃ socket, s.goOn drain u waits = { s with audio := s.audio.sendChunk drain u socket }) ∨
        (x.chunk.commit = true ∧ s.audio.buf.length < MIN_CHUNK_BYTES ∧
          s.commits drain waits = true ∧
            ∃ socket, s.goOn drain u waits = { s with
              audio := s.audio.sendCommit drain u socket
              uncommitted := false
              wantCommit := false })) := by
  unfold Session.goOn at hx ⊢
  split at hx
  · cases hfree.symm.trans hx
  · rename_i socket hws
    by_cases hlength : MIN_CHUNK_BYTES ≤ s.audio.buf.length
    · rw [if_pos hlength] at hx
      cases hx
      exact ⟨rfl, .inl ⟨rfl, hlength, socket, if_pos hlength⟩⟩
    · rw [if_neg hlength] at hx
      by_cases hcommits : s.commits drain waits = true
      · rw [if_pos hcommits] at hx
        cases hx
        refine ⟨rfl, .inr ⟨rfl, Nat.lt_of_not_le hlength, hcommits, socket, ?_⟩⟩
        rw [if_neg hlength, if_pos hcommits]
      · rw [if_neg hcommits] at hx
        cases hfree.symm.trans hx

/-- Only a commit chunk resets a field, and it resets both. -/
theorem goOn_fields (s : Session) (drain : Bool) (u : UpId) (waits : Bool) :
    ((s.goOn drain u waits).wantCommit = s.wantCommit ∧
        (s.goOn drain u waits).uncommitted = s.uncommitted ∨
      (s.goOn drain u waits).wantCommit = false) ∧
      (s.goOn drain u waits).terminal = s.terminal := by
  unfold Session.goOn
  split
  · exact ⟨.inl ⟨rfl, rfl⟩, rfl⟩
  · split
    · exact ⟨.inl ⟨rfl, rfl⟩, rfl⟩
    · split
      · exact ⟨.inr rfl, rfl⟩
      · exact ⟨.inl ⟨rfl, rfl⟩, rfl⟩

theorem ensureUpstream_fields (s : Session) (found : Ensure) (tail : Bool) :
    (s.ensureUpstream found tail).wantCommit = s.wantCommit ∧
      (s.ensureUpstream found tail).uncommitted = s.uncommitted ∧
        (s.ensureUpstream found tail).terminal = s.terminal := by
  unfold Session.ensureUpstream
  split
  · exact ⟨rfl, rfl, rfl⟩
  · cases found <;> exact ⟨rfl, rfl, rfl⟩

/-- A send starts with the lock held, where nothing has changed but the audio. -/
theorem starts_goOn {x : Sending} (hstep : SendBuffer.step s a = some s')
    (hx : starts s' a = some x) :
    ∃ (s₁ : Session) (drain : Bool) (u : UpId) (waits : Bool), s' = s₁.goOn drain u waits ∧
      s₁.audio.sending = none ∧ s₁.wantCommit = s.wantCommit := by
  cases a with
  | pump waits =>
    simp only [SendBuffer.step] at hstep
    split at hstep
    · cases hstep
    · rename_i hfree
      rw [Option.not_isSome_iff_eq_none] at hfree
      cases hstep
      rcases pump_cases s waits with heq | ⟨u, heq⟩
      · rw [starts, heq, hfree] at hx
        cases hx
      · exact ⟨s, false, u, waits, heq, hfree, rfl⟩
  | returns waits =>
    simp only [SendBuffer.step] at hstep
    split at hstep
    · cases hstep
    · rename_i y hy
      have hfree := returns_free s.audio y.chunk
      cases hstep
      split at hx
      · cases hfree.symm.trans hx
      · rename_i hcommit
        rw [if_neg hcommit]
        exact ⟨{ s with audio := s.audio.returns y.chunk }, y.drain, y.up, waits, rfl, hfree, rfl⟩
  | drains u =>
    simp only [SendBuffer.step] at hstep
    split at hstep
    · cases hstep
    · rename_i hfree
      rw [Bool.or_eq_true, Bool.or_eq_true, not_or, not_or] at hfree
      cases hstep
      exact ⟨s, true, u, false, rfl, Option.not_isSome_iff_eq_none.1 hfree.1.1, rfl⟩
  | _ => cases hx

/-- Outside a drain a commit chunk is only sent on request. -/
theorem starts_commit {x : Sending} (hstep : SendBuffer.step s a = some s')
    (hx : starts s' a = some x) (hcommit : x.chunk.commit = true) (hdrain : x.drain = false) :
    s.wantCommit = true := by
  obtain ⟨s₁, drain, u, waits, rfl, hfree, hwant⟩ := starts_goOn hstep hx
  have hsending : (s₁.goOn drain u waits).audio.sending = some x := by
    cases a <;> first | exact hx | cases hx
  obtain ⟨rfl, ⟨hplain, -⟩ | ⟨-, -, hcommits, -⟩⟩ := goOn_started hfree hsending
  · cases hcommit.symm.trans hplain
  · rw [hdrain, Session.commits, if_neg Bool.false_ne_true, Bool.and_eq_true] at hcommits
    rw [← hwant]
    exact hcommits.1

/-- The actions that reset `_uncommitted` and leave `_want_commit`. -/
def forgets : Action → Bool
  | .refuses _ | .connectFails | .committed => true
  | _ => false

/-- What a step means for a request that is there after it. -/
structure Pending (s : Session) (a : Action) (s' : Session) : Prop where
  terminal : s'.terminal = s.terminal
  since : requests s a = true ∨ s.wantCommit = true ∧ a ≠ .degrades
  uncommitted : forgets a = false → s.uncommitted = true → s'.uncommitted = true

theorem Pending.goOn (hwant : (s₁.goOn drain u waits).wantCommit = true) (ha : a ≠ .degrades)
    (hsame : s₁.wantCommit = s.wantCommit ∧ s₁.uncommitted = s.uncommitted ∧
      s₁.terminal = s.terminal) : Pending s a (s₁.goOn drain u waits) := by
  obtain ⟨⟨hkept, huncommitted⟩ | hreset, hterminal⟩ := goOn_fields s₁ drain u waits
  · refine ⟨hterminal.trans hsame.2.2, .inr ⟨?_, ha⟩, ?_⟩
    · rw [← hsame.1, ← hkept]
      exact hwant
    · intro _ hu
      rw [huncommitted, hsame.2.1]
      exact hu
  · cases hreset.symm.trans hwant

/-- Where the fields are the same after the step. -/
theorem Pending.keeps (hwant : s'.wantCommit = true) (ha : a ≠ .degrades)
    (hsame : s'.wantCommit = s.wantCommit ∧ (forgets a = false → s'.uncommitted = s.uncommitted) ∧
      s'.terminal = s.terminal) : Pending s a s' where
  terminal := hsame.2.2
  since := .inr ⟨hsame.1.symm.trans hwant, ha⟩
  uncommitted hforgets hu := (hsame.2.1 hforgets).trans hu

theorem step_pending (hstep : SendBuffer.step s a = some s') (hwant : s'.wantCommit = true) :
    Pending s a s' := by
  cases a with
  | sendAudio samples found =>
    cases hstep
    unfold Session.sendAudio at hwant ⊢
    split at hwant
    · rw [if_pos ‹_›]
      exact .keeps hwant (by simp) ⟨rfl, fun _ => rfl, rfl⟩
    · rw [if_neg ‹_›]
      obtain ⟨hkept, hu, hterminal⟩ := ensureUpstream_fields
        { s with audio := s.audio.append (pcm samples), uncommitted := true } found true
      exact ⟨hterminal, .inr ⟨hkept.symm.trans hwant, by simp⟩, fun _ _ => hu⟩
  | refuses tail =>
    simp only [SendBuffer.step] at hstep
    split at hstep
    · cases hstep
      exact .keeps hwant (by simp) ⟨rfl, (fun hforgets => by cases hforgets), rfl⟩
    · cases hstep
  | tail =>
    simp only [SendBuffer.step] at hstep
    split at hstep
    · cases hstep
    · cases hstep
      unfold Session.tail at hwant ⊢
      split
      · rw [if_pos ‹_›] at hwant
        exact .keeps hwant (by simp) ⟨rfl, fun _ => rfl, rfl⟩
      · rw [if_neg ‹_›] at hwant
        exact .keeps hwant (by simp) ⟨rfl, fun _ => rfl, rfl⟩
  | sendEnd =>
    cases hstep
    split at hwant
    · rw [if_pos ‹_›]
      exact .keeps hwant (by simp) ⟨rfl, fun _ => rfl, rfl⟩
    · rename_i hrequests
      rw [if_neg hrequests]
      refine ⟨rfl, .inl ?_, fun _ hu => hu⟩
      rw [requests, eq_false_of_ne_true hrequests]
      rfl
  | pump waits =>
    simp only [SendBuffer.step] at hstep
    split at hstep
    · cases hstep
    · cases hstep
      rcases pump_cases s waits with heq | ⟨u, heq⟩
      · rw [heq] at hwant ⊢
        exact .keeps hwant (by simp) ⟨rfl, fun _ => rfl, rfl⟩
      · rw [heq] at hwant ⊢
        exact .goOn hwant (by simp) ⟨rfl, rfl, rfl⟩
  | returns waits =>
    simp only [SendBuffer.step] at hstep
    split at hstep
    · cases hstep
    · cases hstep
      split at hwant
      · rw [if_pos ‹_›]
        exact .keeps hwant (by simp) ⟨rfl, fun _ => rfl, rfl⟩
      · rw [if_neg ‹_›]
        exact .goOn hwant (by simp) ⟨rfl, rfl, rfl⟩
  | drains u =>
    simp only [SendBuffer.step] at hstep
    split at hstep
    · cases hstep
    · cases hstep
      exact .goOn hwant (by simp) ⟨rfl, rfl, rfl⟩
  | respawns found =>
    cases hstep
    obtain ⟨hkept, hu, hterminal⟩ := ensureUpstream_fields s found false
    exact .keeps hwant (by simp) ⟨hkept, fun _ => hu, hterminal⟩
  | degrades =>
    cases hstep
    cases hwant
  | connectFails =>
    simp only [SendBuffer.step] at hstep
    split at hstep
    · cases hstep
      exact .keeps hwant (by simp) ⟨rfl, (fun hforgets => by cases hforgets), rfl⟩
    · cases hstep
  | committed =>
    cases hstep
    exact .keeps hwant (by simp) ⟨rfl, (fun hforgets => by cases hforgets), rfl⟩
  | _ =>
    simp only [SendBuffer.step] at hstep
    repeat' split at hstep
    all_goals cases hstep
    all_goals exact .keeps hwant (by simp) ⟨rfl, fun _ => rfl, rfl⟩

theorem clear_buf (b : Buffer) : b.clear.buf = [] := List.drop_length

/-- A discard leaves nothing in the buffer, and a request as it is. -/
theorem discards_step (hdiscards : discards s a = true) (ha : a ≠ .degrades)
    (hstep : SendBuffer.step s a = some s') :
    s'.audio.buf = [] ∧ s'.wantCommit = s.wantCommit ∧ s'.closed = s.closed := by
  have hcools : ∀ (s : Session) (found : Ensure) (tail : Bool), s.cools found = true →
      s.ensureUpstream found tail =
        { s with audio := s.audio.clear, tails := s.tails + tail.toNat } := by
    intro s found tail hcools
    rw [Session.cools, Bool.and_eq_true, Bool.not_eq_true', beq_iff_eq] at hcools
    obtain ⟨hopen, rfl⟩ := hcools
    rw [Session.ensureUpstream, if_neg (ne_true_of_eq_false hopen)]
  cases a with
  | sendAudio samples found =>
    rw [discards, Bool.and_eq_true, Bool.not_eq_true'] at hdiscards
    cases hstep
    rw [Session.sendAudio, if_neg (ne_true_of_eq_false hdiscards.1), hcools]
    · exact ⟨clear_buf _, rfl, rfl⟩
    · exact hdiscards.2
  | respawns found =>
    cases hstep
    rw [hcools _ _ _ hdiscards]
    exact ⟨clear_buf _, rfl, rfl⟩
  | refuses tail =>
    simp only [SendBuffer.step] at hstep
    split at hstep
    · cases hstep
      exact ⟨clear_buf _, rfl, rfl⟩
    · cases hstep
  | connectFails =>
    simp only [SendBuffer.step] at hstep
    split at hstep
    · cases hstep
      exact ⟨clear_buf _, rfl, rfl⟩
    · cases hstep
  | degrades => exact absurd rfl ha
  | _ => cases hdiscards

-- ---------------------------------------------------------------------------
-- Stale requests
-- ---------------------------------------------------------------------------

theorem Record.step_eq (h : r.step a = some r') :
    ∃ s', SendBuffer.step r.session a = some s' ∧ r' = r.next a s' := by
  obtain ⟨s', hstep, heq⟩ := Option.map_eq_some_iff.1 h
  exact ⟨s', hstep, heq.symm⟩

/-- The buffer is not discarded while a request is pending that survives it, and no request is made
for audio that has been discarded. -/
def answered (r : Record) (a : Action) : Bool :=
  !(r.session.wantCommit && discards r.session a && a != .degrades ||
    requests r.session a && r.emptied)

abbrev Answered : Record → Record → Prop := ReachableBy Record.step fun r a => answered r a = true

/-- What is said of the requests and of the commits of a run. -/
structure Fresh (r : Record) : Prop where
  discarded : r.discarded = true → r.stale = true
  want : r.session.wantCommit = true → r.stale = false
  commits : ∀ c ∈ r.commits, c.drain = false → c.stale = false ∧ c.discarded = false

theorem requests_cases (h : requests s a = true) :
    a = .sendEnd ∧ s.terminal = false ∧ s.uncommitted = true := by
  cases a with
  | sendEnd =>
    rw [requests, Bool.not_eq_true', Bool.or_eq_false_iff, Bool.or_eq_false_iff,
      Bool.not_eq_false'] at h
    exact ⟨rfl, h.1.2, h.2⟩
  | _ => cases h

/-- The actions that start a send neither discard nor request. -/
theorem starts_quiet {x : Sending} (hx : starts s' a = some x) :
    discards s a = false ∧ requests s a = false ∧ (a != .sendEnd) = true := by
  cases a with
  | pump | returns | drains => exact ⟨rfl, rfl, rfl⟩
  | _ => cases hx

/-- A commit that starts outside a drain is on request, and has the marks of the record. -/
theorem Record.mem_commits {c : Commit} (hstep : SendBuffer.step r.session a = some s')
    (hc : c ∈ (r.next a s').commits) (hdrain : c.drain = false) :
    c ∈ r.commits ∨
      r.session.wantCommit = true ∧ c.stale = r.stale ∧ c.discarded = r.discarded := by
  rcases List.mem_append.1 hc with hold | hnew
  · exact .inl hold
  · obtain ⟨x, hx, rfl⟩ := List.mem_map.1 hnew
    rw [Option.mem_toList, Option.filter_eq_some_iff] at hx
    obtain ⟨hdiscards, hrequests, hend⟩ := starts_quiet (s := r.session) hx.1
    refine .inr ⟨starts_commit hstep hx.1 hx.2 hdrain, ?_, ?_⟩
    · dsimp only
      rw [hdiscards, hrequests, Bool.false_or, Bool.false_and, Bool.not_false, Bool.and_true]
    · dsimp only
      rw [hdiscards, hend, Bool.false_or, Bool.and_true]

/-- What was discarded since the last `send_end` was discarded since the last request. -/
theorem Record.discarded_next (h : r.discarded = true → r.stale = true)
    (hdiscarded : (r.next a s').discarded = true) : (r.next a s').stale = true := by
  dsimp only [Record.next] at hdiscarded ⊢
  rw [Bool.or_eq_true, Bool.and_eq_true] at hdiscarded ⊢
  rcases hdiscarded with hdiscards | ⟨hold, hend⟩
  · exact .inl hdiscards
  · refine .inr ⟨h hold, ?_⟩
    cases a with
    | sendEnd => cases hend
    | _ => rfl

theorem Fresh.step (h : Fresh r) (hanswered : answered r a = true) (hstep : r.step a = some r') :
    Fresh r' := by
  obtain ⟨s', hs, rfl⟩ := Record.step_eq hstep
  refine ⟨Record.discarded_next h.discarded, ?_, ?_⟩
  · intro hwant
    have hpending := step_pending hs hwant
    rw [answered, Bool.not_eq_true', Bool.or_eq_false_iff, Bool.and_eq_false_iff,
      Bool.and_eq_false_iff] at hanswered
    obtain ⟨hkept, hown⟩ := hanswered
    dsimp only [Record.next]
    rcases hpending.since with hrequests | ⟨hold, ha⟩
    · obtain ⟨rfl, -⟩ := requests_cases hrequests
      rw [hrequests, Bool.true_and] at hown
      rw [hrequests, hown, Bool.not_false, Bool.and_true, Bool.not_true, Bool.and_false]
      rfl
    · rcases hkept with (hnone | hdiscards) | hdegrades
      · cases hold.symm.trans hnone
      · rw [hdiscards, h.want hold, Bool.false_or, Bool.false_and]
      · rw [bne_eq_false_iff_eq] at hdegrades
        exact absurd hdegrades ha
  · intro c hc hdrain
    rcases Record.mem_commits hs hc hdrain with hold | ⟨hwant, hstale, hdiscarded⟩
    · exact h.commits c hold hdrain
    · have hfresh := h.want hwant
      refine ⟨hstale.trans hfresh, ?_⟩
      rw [hdiscarded, Bool.eq_false_iff]
      intro hold
      cases (h.discarded hold).symm.trans hfresh

theorem fresh_of_answered (h : Answered {} r) : Fresh r :=
  h.invariant ⟨nofun, nofun, nofun⟩ fun _ _ _ => Fresh.step

/-- A pending request belongs to a session that is not terminal. -/
theorem terminal_of_want (h : Reachable Record.step {} r) (hwant : r.session.wantCommit = true) :
    r.session.terminal = false := by
  induction h with
  | start => cases hwant
  | next hrun _ hstep ih =>
    obtain ⟨s', hs, rfl⟩ := Record.step_eq hstep
    have hpending := step_pending hs hwant
    refine hpending.terminal.trans ?_
    rcases hpending.since with hrequests | ⟨hold, -⟩
    · exact (requests_cases hrequests).2.1
    · exact ih hold

/-- A discard stays on record until the next `send_end`. -/
theorem Record.run_marks {actions : List Action} (hend : .sendEnd ∉ actions)
    (hrun : run SendBuffer.step r.session actions = some s') :
    ∃ r', run Record.step r actions = some r' ∧ r'.session = s' ∧
      (r.stale = true → r'.stale = true) ∧ (r.discarded = true → r'.discarded = true) := by
  induction actions generalizing r with
  | nil => exact ⟨r, rfl, Option.some.inj hrun, id, id⟩
  | cons a rest ih =>
    simp only [run, Option.bind_eq_some_iff] at hrun
    obtain ⟨s₁, hstep, hrest⟩ := hrun
    obtain ⟨ha, hend⟩ := List.ne_and_not_mem_of_not_mem_cons hend
    have hrequests : requests r.session a = false := by
      rw [Bool.eq_false_iff]
      intro hrequests
      exact ha (requests_cases hrequests).1.symm
    obtain ⟨r', hr', hsession, hstale, hdiscarded⟩ := ih (r := r.next a s₁) hend hrest
    refine ⟨r', ?_, hsession, fun hmark => hstale ?_, fun hmark => hdiscarded ?_⟩
    · simp only [run, Record.step, hstep, Option.map_some, Option.bind_some]
      exact hr'
    · dsimp only [Record.next]
      rw [hmark, hrequests, Bool.false_and, Bool.not_false, Bool.and_true, Bool.or_true]
    · dsimp only [Record.next]
      rw [hmark, Bool.true_and, bne_iff_ne.2 ha.symm, Bool.or_true]

/-- The life of the connection ends, and the next audio opens another one. -/
def reopens (u : UpId) : List Action :=
  [.leaves, .sendAudio [(0, 0)] .opens, .connects u, .started u]

/-- A request that is still there confirms the first audio of the next connection. -/
theorem reopens_pump (hfree : s.audio.sending = none) (hbuf : s.audio.buf = [])
    (hwant : s.wantCommit = true) (hclosed : s.closed = false) (hterminal : s.terminal = false) :
    ∃ s₁ s', run SendBuffer.step s (reopens s.upCount) = some s₁ ∧
      SendBuffer.step s₁ (.pump false) = some s' ∧
        ∃ x, s'.audio.sending = some x ∧ x.chunk.commit = true ∧ x.drain = false := by
  have hpcm : (pcm [(0, 0)]).length = 2 := rfl
  simp [reopens, run, SendBuffer.step, Session.sendAudio, Session.ensureUpstream,
    Session.pump, Session.goOn, Session.setUp, Session.commits, Buffer.append, Buffer.sendCommit,
    MIN_CHUNK_BYTES, hpcm, hfree, hbuf, hwant, hclosed, hterminal]

/-- The commit chunk that a `_pump` starts is on record with what was discarded. -/
theorem Record.pump_commits {x : Sending} (hx : s'.audio.sending = some x)
    (hcommit : x.chunk.commit = true) (hdrain : x.drain = false) (waits : Bool) :
    ∃ c ∈ (r.next (.pump waits) s').commits, c.drain = false ∧
      c.stale = r.stale ∧ c.discarded = r.discarded := by
  refine ⟨_, List.mem_append_right _ (List.mem_map.2 ⟨x, ?_, rfl⟩), hdrain, ?_, ?_⟩
  · rw [Option.mem_toList, Option.filter_eq_some_iff]
    exact ⟨hx, hcommit⟩
  · dsimp only [discards, requests]
    rw [Bool.false_or, Bool.false_and, Bool.not_false, Bool.and_true]
  · dsimp only [discards]
    rw [Bool.false_or]
    exact Bool.and_true _

/-- With a request and a discard on record, an open session may go on to commit other audio. -/
theorem Record.goes_stale (hbuf : r.session.audio.buf = []) (hwant : r.session.wantCommit = true)
    (hclosed : r.session.closed = false) (hterminal : r.session.terminal = false)
    (hmark : r.stale = true) :
    ∃ more r', run Record.step r more = some r' ∧ ∃ c ∈ r'.commits, c.drain = false ∧
      c.stale = true ∧ (r.discarded = true → c.discarded = true) := by
  -- a send that is under way raises first
  obtain ⟨before, s₀, hbefore, hmem, hfree, hsame⟩ : ∃ before s₀,
      run SendBuffer.step r.session before = some s₀ ∧ .sendEnd ∉ before ∧
        s₀.audio.sending = none ∧ s₀.audio.buf = r.session.audio.buf ∧
          s₀.wantCommit = r.session.wantCommit ∧ s₀.closed = r.session.closed ∧
            s₀.terminal = r.session.terminal := by
    cases hsending : r.session.audio.sending with
    | none => exact ⟨[], r.session, rfl, List.not_mem_nil, hsending, rfl, rfl, rfl, rfl⟩
    | some x =>
      refine ⟨[.raises], { r.session with audio := { r.session.audio with sending := none } },
        ?_, by simp, rfl, rfl, rfl, rfl, rfl⟩
      simp only [run, SendBuffer.step, hsending]
      rfl
  obtain ⟨hbuf₀, hwant₀, hclosed₀, hterminal₀⟩ := hsame
  obtain ⟨s₁, s', hrun, hpump, x, hx, hcommit, hdrain⟩ :=
    reopens_pump hfree (hbuf₀.trans hbuf) (hwant₀.trans hwant) (hclosed₀.trans hclosed)
      (hterminal₀.trans hterminal)
  have hend : .sendEnd ∉ before ++ reopens s₀.upCount := by simp [hmem, reopens]
  obtain ⟨r₁, hr₁, rfl, hstale, hdiscarded⟩ := Record.run_marks hend (run_append hbefore hrun)
  obtain ⟨c, hc, hout, hcstale, hcdiscarded⟩ :=
    Record.pump_commits (r := r₁) hx hcommit hdrain false
  refine ⟨before ++ reopens s₀.upCount ++ [.pump false], r₁.next (.pump false) s',
    run_append hr₁ ?_, c, hc, hout, hcstale.trans (hstale hmark),
    fun hdiscard => hcdiscarded.trans (hdiscarded hdiscard)⟩
  simp only [run, Record.step, hpump]
  rfl

/-- What is known where nothing has come since a discard. -/
structure Emptied (r : Record) : Prop where
  buf : r.emptied = true → r.session.audio.buf = []
  stale : r.emptied = true → r.stale = true

/-- An empty buffer stays empty while no audio comes. -/
theorem buf_step (hbuf : s.audio.buf = []) (hbrings : brings s a = false)
    (hstep : SendBuffer.step s a = some s') : s'.audio.buf = [] := by
  have hgoOn : ∀ (s : Session) (drain : Bool) (u : UpId) (waits : Bool), s.audio.buf = [] →
      (s.goOn drain u waits).audio.buf = [] := by
    intro s drain u waits hbuf
    rcases goOn_cases s drain u waits with heq | ⟨-, socket, heq⟩ | ⟨socket, heq⟩
    · rw [heq]
      exact hbuf
    · rw [heq]
      exact hbuf
    · rw [heq]
      rfl
  have hdrop : ∀ n, (s.audio.drop n).buf = [] := by
    intro n
    dsimp only [Buffer.drop]
    rw [hbuf, List.drop_nil]
  have hreturns : ∀ c, (s.audio.returns c).buf = [] := by
    intro c
    unfold Buffer.returns
    split
    · exact hbuf
    · exact hdrop _
  have heffect := step_effect hstep
  generalize haudio : s'.audio = b at heffect ⊢
  cases heffect with
  | keeps => exact hbuf
  | appends samples found ha =>
    -- audio that is not taken leaves the session as it is
    subst ha
    rw [brings, Bool.not_eq_false'] at hbrings
    cases hstep
    rw [← haudio, Session.sendAudio, if_pos hbrings]
    exact hbuf
  | appendsClears samples => exact clear_buf _
  | clears => exact clear_buf _
  | trims =>
    unfold Buffer.trim
    split
    · exact hdrop _
    · exact hbuf
  | sends drain u waits => exact hgoOn s drain u waits hbuf
  | returns x hx waits ha =>
    split
    · exact hreturns _
    · exact hgoOn _ _ _ _ (hreturns _)
  | raises => exact hbuf

theorem Emptied.step (h : Emptied r) (hstep : r.step a = some r') : Emptied r' := by
  obtain ⟨s', hs, rfl⟩ := Record.step_eq hstep
  have hwhy : (r.next a s').emptied = true →
      discards r.session a = true ∨ r.emptied = true ∧ brings r.session a = false := by
    intro hemptied
    dsimp only [Record.next] at hemptied
    rw [Bool.or_eq_true, Bool.and_eq_true, Bool.not_eq_true'] at hemptied
    exact hemptied
  constructor
  · intro hemptied
    rcases hwhy hemptied with hdiscards | ⟨hold, hbrings⟩
    · by_cases ha : a = .degrades
      · subst ha
        cases hs
        exact clear_buf _
      · exact (discards_step hdiscards ha hs).1
    · exact buf_step (h.buf hold) hbrings hs
  · intro hemptied
    dsimp only [Record.next]
    rcases hwhy hemptied with hdiscards | ⟨hold, -⟩
    · rw [hdiscards, Bool.true_or]
    · rw [h.stale hold, hold, Bool.not_true, Bool.and_false, Bool.not_false, Bool.and_true,
        Bool.or_true]

theorem emptied_of_reachable (h : Reachable Record.step {} r) : Emptied r :=
  h.invariant ⟨Bool.noConfusion, Bool.noConfusion⟩ fun _ _ _ hr _ hstep => hr.step hstep

/-- A pending request survives a discard, and confirms what comes after it. -/
theorem Record.stale_of_discard (hdiscards : discards r.session a = true) (ha : a ≠ .degrades)
    (hwant : r.session.wantCommit = true) (hclosed : r.session.closed = false)
    (hnext : Reachable Record.step {} (r.next a s'))
    (hstep : SendBuffer.step r.session a = some s') :
    ∃ more r'', run Record.step (r.next a s') more = some r'' ∧
      ∃ c ∈ r''.commits, c.drain = false ∧ c.stale = true ∧ c.discarded = true := by
  obtain ⟨hbuf, hwant', hclosed'⟩ := discards_step hdiscards ha hstep
  have hstale : (r.next a s').stale = true := by
    dsimp only [Record.next]
    rw [hdiscards, Bool.true_or]
  have hdiscarded : (r.next a s').discarded = true := by
    dsimp only [Record.next]
    rw [hdiscards, Bool.true_or]
  obtain ⟨more, r'', hmore, c, hc, hdrain, hcstale, hcdiscarded⟩ :=
    Record.goes_stale hbuf (hwant'.trans hwant) (hclosed'.trans hclosed)
      (terminal_of_want hnext (hwant'.trans hwant)) hstale
  exact ⟨more, r'', hmore, c, hc, hdrain, hcstale, hcdiscarded hdiscarded⟩

/-- A request for audio that is gone confirms what comes after it. -/
theorem Record.stale_of_request (hrequests : requests r.session a = true)
    (hemptied : r.emptied = true) (hclosed : r.session.closed = false)
    (h : Reachable Record.step {} r) (hstep : SendBuffer.step r.session a = some s') :
    ∃ more r'', run Record.step (r.next a s') more = some r'' ∧
      ∃ c ∈ r''.commits, c.drain = false ∧ c.stale = true := by
  obtain ⟨hbuf, hstale⟩ := emptied_of_reachable h
  obtain ⟨rfl, hterminal, huncommitted⟩ := requests_cases hrequests
  have hs' : s' = { r.session with wantCommit := true } := by
    cases hstep
    rw [if_neg]
    rw [hclosed, hterminal, huncommitted]
    exact Bool.false_ne_true
  subst hs'
  have hmark : (r.next .sendEnd { r.session with wantCommit := true }).stale = true := by
    dsimp only [Record.next]
    rw [hstale hemptied, hemptied, Bool.not_true, Bool.and_false]
    rfl
  obtain ⟨more, r'', hmore, c, hc, hdrain, hcstale, -⟩ :=
    Record.goes_stale (r := r.next .sendEnd { r.session with wantCommit := true })
      (hbuf hemptied) rfl hclosed hterminal hmark
  exact ⟨more, r'', hmore, c, hc, hdrain, hcstale⟩

/-- In every run in which no discard but that of a terminal failure meets a pending request, and no
request is made for audio that was discarded, no commit outside a drain is for audio that came
after a discard; after any other step the session may go on to send such a commit, unless it is
closed. -/
theorem requests_answered (r r' : Record) (a : Action) :
    (Answered {} r → ∀ c ∈ r.commits, c.drain = false → c.stale = false ∧ c.discarded = false) ∧
    (Reachable Record.step {} r → r.step a = some r' → answered r a = false →
      r.session.closed = false → ∃ more r'', run Record.step r' more = some r'' ∧
        ∃ c ∈ r''.commits, c.drain = false ∧ c.stale = true ∧
          (discards r.session a = true → c.discarded = true)) := by
  refine ⟨fun h => (fresh_of_answered h).commits, ?_⟩
  intro h hstep hanswered hclosed
  obtain ⟨s', hs, rfl⟩ := Record.step_eq hstep
  have hnext : Reachable Record.step {} (r.next a s') := .next h trivial hstep
  rw [answered, Bool.not_eq_false', Bool.or_eq_true, Bool.and_eq_true, Bool.and_eq_true,
    Bool.and_eq_true, bne_iff_ne] at hanswered
  rcases hanswered with ⟨⟨hwant, hdiscards⟩, ha⟩ | ⟨hrequests, hemptied⟩
  · obtain ⟨more, r'', hmore, c, hc, hdrain, hstale, hdiscarded⟩ :=
      Record.stale_of_discard hdiscards ha hwant hclosed hnext hs
    exact ⟨more, r'', hmore, c, hc, hdrain, hstale, fun _ => hdiscarded⟩
  · obtain ⟨more, r'', hmore, c, hc, hdrain, hstale⟩ :=
      Record.stale_of_request hrequests hemptied hclosed h hs
    refine ⟨more, r'', hmore, c, hc, hdrain, hstale, fun hdiscards => ?_⟩
    -- a `send_end` discards nothing
    obtain ⟨rfl, -, -⟩ := requests_cases hrequests
    cases hdiscards

/-- Audio and `send_end`, before there is a connection. -/
def waiting : List Action :=
  [.sendAudio [(1, 2), (3, 4)] .opens, .tail, .sendEnd, .pump false]

/-- A connect that failed, and a word said during the cooldown that follows. -/
def cooling : List Action :=
  [.sendAudio [(1, 2)] .opens, .tail, .connectFails, .leaves, .sendAudio [(3, 4)] .cooling, .tail]

theorem requests_answered_word :
    (∃ r c, run (guarded Record.step answered) {} word = some r ∧ r.commits = [c] ∧
      c.drain = false ∧ c.stale = false ∧ c.discarded = false) ∧
    (∃ more r, run Record.step {} (waiting ++ [.connectFails] ++ more) = some r ∧
      ∃ c ∈ r.commits, c.drain = false ∧ c.discarded = true) ∧
    ∃ more r, run Record.step {} (cooling ++ [.sendEnd] ++ more) = some r ∧
      ∃ c ∈ r.commits, c.drain = false ∧ c.stale = true := by
  refine ⟨?_, ?_, ?_⟩
  · obtain ⟨r, hr, c, hc, hdrain⟩ : ∃ r, run (guarded Record.step answered) {} word = some r ∧
        ∃ c, r.commits = [c] ∧ c.drain = false := ⟨_, rfl, _, rfl, rfl⟩
    have hfresh := (requests_answered r r .tail).1 (reachableBy_of_run hr)
    exact ⟨r, c, hr, hc, hdrain, hfresh c (hc ▸ List.mem_singleton.2 rfl) hdrain⟩
  · obtain ⟨r, r', hr, hstep, hanswered, hclosed⟩ : ∃ r r',
        run Record.step {} waiting = some r ∧ r.step .connectFails = some r' ∧
          answered r .connectFails = false ∧ r.session.closed = false := ⟨_, _, rfl, rfl, rfl, rfl⟩
    obtain ⟨more, r'', hmore, c, hc, hdrain, -, hdiscarded⟩ :=
      (requests_answered r r' .connectFails).2 (reachable_of_run hr) hstep hanswered hclosed
    refine ⟨more, r'', run_append (run_append hr ?_) hmore, c, hc, hdrain, hdiscarded rfl⟩
    simp only [run, hstep, Option.bind_some]
  · obtain ⟨r, r', hr, hstep, hanswered, hclosed⟩ : ∃ r r',
        run Record.step {} cooling = some r ∧ r.step .sendEnd = some r' ∧
          answered r .sendEnd = false ∧ r.session.closed = false := ⟨_, _, rfl, rfl, rfl, rfl⟩
    obtain ⟨more, r'', hmore, c, hc, hdrain, hstale, -⟩ :=
      (requests_answered r r' .sendEnd).2 (reachable_of_run hr) hstep hanswered hclosed
    refine ⟨more, r'', run_append (run_append hr ?_) hmore, c, hc, hdrain, hstale⟩
    simp only [run, hstep, Option.bind_some]

/-- A first connect fails, and the request of the discarded sentence confirms the start of the
next one; so does the request for a word that the cooldown has discarded. -/
theorem next_sentence_cut :
    (∃ r, run Record.step {} (waiting ++ [.connectFails, .leaves,
        .sendAudio [(5, 6)] .opens, .tail, .connects 1, .started 1, .pump false]) = some r ∧
      ∃ c ∈ r.commits, c.drain = false ∧ c.discarded = true) ∧
    ∃ r, run Record.step {} (cooling ++ [.sendEnd, .pump false,
        .sendAudio [(5, 6)] .opens, .tail, .connects 1, .started 1, .pump false]) = some r ∧
      ∃ c ∈ r.commits, c.drain = false ∧ c.stale = true :=
  ⟨⟨_, rfl, _, List.mem_singleton.2 rfl, rfl, rfl⟩, ⟨_, rfl, _, List.mem_singleton.2 rfl, rfl, rfl⟩⟩

-- ---------------------------------------------------------------------------
-- Lost connections
-- ---------------------------------------------------------------------------

/-- What is to be sent and confirmed is the same. -/
structure Kept (s s' : Session) : Prop where
  buf : s'.audio.buf = s.audio.buf
  uncommitted : s'.uncommitted = s.uncommitted
  wantCommit : s'.wantCommit = s.wantCommit

/-- The end of the connection `u` is not of our doing. -/
structure Drops (s : Session) (u : UpId) : Prop where
  closed : s.closed = false
  terminal : s.terminal = false
  closing : (s.ups u).closing = false

theorem Drops.afterReader (h : Drops s u) : s.afterReader u .other =
    if s.uncommitted || !s.audio.buf.isEmpty then .reconnects else .idle := by
  rw [Session.afterReader, h.closed, h.terminal, h.closing]
  cases s.uncommitted || !s.audio.buf.isEmpty <;> rfl

/-- Audio or a confirmation is still to be sent, or the send of a commit chunk is under way or
has raised. -/
def Record.Owes (r : Record) : Prop :=
  r.session.audio.buf ≠ [] ∨ r.session.uncommitted = true ∨ r.session.wantCommit = true ∨
    r.undelivered = true

/-- No commit chunk is lost with its send, and what is said of the audio of a pending request is
not forgotten before it. -/
def delivered (r : Record) (a : Action) : Bool :=
  (a != .raises || r.session.audio.sending.all fun x => !x.chunk.commit) &&
    !(forgets a && r.session.wantCommit)

abbrev Delivered : Record → Record → Prop :=
  ReachableBy Record.step fun r a => delivered r a = true

theorem raises_eq (hstep : SendBuffer.step s .raises = some s') :
    s' = { s with audio := { s.audio with sending := none } } := by
  simp only [SendBuffer.step] at hstep
  split at hstep
  · exact (Option.some.inj hstep).symm
  · cases hstep

theorem raises_kept (hstep : SendBuffer.step s .raises = some s') : Kept s s' := by
  rw [raises_eq hstep]
  exact ⟨rfl, rfl, rfl⟩

/-- A send that raises leaves all as it was, if it is that of a plain chunk. The commit chunk has
taken all there was, and then a lost connection was at rest. -/
theorem goOn_raises {x : Sending} (hfree : s.audio.sending = none)
    (hx : (s.goOn drain u waits).audio.sending = some x)
    (hstep : SendBuffer.step (s.goOn drain u waits) .raises = some s') :
    (Kept s s' ↔ MIN_CHUNK_BYTES ≤ s.audio.buf.length) ∧
      (s.audio.buf.length < MIN_CHUNK_BYTES → ∀ v, Drops s' v →
        s'.afterReader v .other = .idle) := by
  have heq := raises_eq hstep
  obtain ⟨-, ⟨-, hlength, socket, hgoOn⟩ | ⟨-, hlength, hcommits, socket, hgoOn⟩⟩ :=
    goOn_started hfree hx
  · rw [hgoOn] at heq
    subst heq
    exact ⟨⟨fun _ => hlength, fun _ => ⟨rfl, rfl, rfl⟩⟩,
      fun hlt => absurd hlength (Nat.not_le_of_lt hlt)⟩
  · rw [hgoOn] at heq
    subst heq
    refine ⟨⟨?_, fun hle => absurd hlength (Nat.not_lt_of_le hle)⟩, ?_⟩
    · rintro ⟨hbuf, huncommitted, hwant⟩
      -- the fields that the commit has reset are those that have asked for it
      exfalso
      dsimp only [Buffer.sendCommit] at hbuf huncommitted hwant
      rw [Session.commits, ← hbuf, ← huncommitted, ← hwant] at hcommits
      cases drain <;> cases hcommits
    · intro _ v hdrop
      rw [hdrop.afterReader]
      rfl

theorem drop_sending (b : Buffer) (n : Nat) : (b.drop n).sending = b.sending := rfl

theorem trim_sending (b : Buffer) : b.trim.sending = b.sending := by
  unfold Buffer.trim
  split
  · exact drop_sending b _
  · rfl

/-- A send goes on until it returns or raises. -/
theorem sending_step {x : Sending} (hx : s.audio.sending = some x)
    (hstep : SendBuffer.step s a = some s') :
    s'.audio.sending = some x ∨ a = .raises ∨ ∃ waits, a = .returns waits := by
  have heffect := step_effect hstep
  generalize s'.audio = b at heffect ⊢
  cases heffect with
  | keeps | appends | appendsClears | clears => exact .inl hx
  | trims => exact .inl ((trim_sending s.audio).trans hx)
  | sends drain u waits hfree => cases hfree.symm.trans hx
  | returns y hy waits ha => exact .inr (.inr ⟨waits, ha⟩)
  | raises y hy ha => exact .inr (.inl ha)

/-- What is known of a session whose record shows no commit chunk lost. -/
structure Held (r : Record) : Prop where
  undelivered : r.undelivered = true →
    ∃ x, r.session.audio.sending = some x ∧ x.chunk.commit = true
  want : r.session.wantCommit = true → r.session.uncommitted = true

theorem Held.undelivered_step (h : Held r) (hok : delivered r a = true)
    (hstep : SendBuffer.step r.session a = some s') (hundelivered : (r.next a s').undelivered = true) :
    ∃ x, s'.audio.sending = some x ∧ x.chunk.commit = true := by
  dsimp only [Record.next] at hundelivered
  rw [Bool.or_eq_true, Bool.and_eq_true, Bool.not_eq_true'] at hundelivered
  rcases hundelivered with hstarted | ⟨hold, hdelivers⟩
  · obtain ⟨x, hx⟩ := Option.isSome_iff_exists.1 hstarted
    rw [Option.filter_eq_some_iff] at hx
    refine ⟨x, ?_, hx.2⟩
    cases a with
    | pump | returns | drains => exact hx.1
    | _ => cases hx.1
  · obtain ⟨x, hx, hcommit⟩ := h.undelivered hold
    rcases sending_step hx hstep with hsame | rfl | ⟨waits, rfl⟩
    · exact ⟨x, hsame, hcommit⟩
    · rw [delivered, Bool.and_eq_true, hx, Option.all_some, hcommit] at hok
      cases hok.1
    · rw [delivers, hx, Option.any_some, hcommit] at hdelivers
      cases hdelivers

theorem Held.want_step (h : Held r) (hok : delivered r a = true)
    (hstep : SendBuffer.step r.session a = some s') (hwant : s'.wantCommit = true) :
    s'.uncommitted = true := by
  have hpending := step_pending hstep hwant
  rcases hpending.since with hrequests | ⟨hold, -⟩
  · obtain ⟨rfl, -, hu⟩ := requests_cases hrequests
    exact hpending.uncommitted rfl hu
  · refine hpending.uncommitted ?_ (h.want hold)
    rw [delivered, hold, Bool.and_true, Bool.and_eq_true, Bool.not_eq_true'] at hok
    exact hok.2

theorem held_of_delivered (h : Delivered {} r) : Held r := by
  refine h.invariant ⟨nofun, nofun⟩ ?_
  intro r a r' hheld hok hstep
  obtain ⟨s', hs, rfl⟩ := Record.step_eq hstep
  exact ⟨hheld.undelivered_step hok hs, hheld.want_step hok hs⟩

/-- In every state a send that raises leaves the audio and the requests as they were exactly if
it is that of a plain chunk; the other one turns its lost connection into one at rest. Where no
commit chunk is lost, a connection is opened again for whatever is still to be sent. -/
theorem drop_reconnects (s s' : Session) (drain waits : Bool) (u v : UpId) (r : Record) :
    (∀ x, s.audio.sending = none → (s.goOn drain u waits).audio.sending = some x →
      SendBuffer.step (s.goOn drain u waits) .raises = some s' →
        (Kept s s' ↔ MIN_CHUNK_BYTES ≤ s.audio.buf.length) ∧
          (s.audio.buf.length < MIN_CHUNK_BYTES → Drops s' v →
            s'.afterReader v .other = .idle)) ∧
    (SendBuffer.step s .raises = some s' → Kept s s') ∧
    (Delivered {} r → (∀ x, r.session.audio.sending = some x → x.chunk.commit = false) →
      Drops r.session v → r.Owes → r.session.afterReader v .other = .reconnects) := by
  refine ⟨?_, raises_kept, ?_⟩
  · intro x hfree hx hstep
    obtain ⟨hkept, hidle⟩ := goOn_raises hfree hx hstep
    exact ⟨hkept, fun hlt => hidle hlt v⟩
  · intro h hplain hdrop howes
    have hheld := held_of_delivered h
    have hpending : (r.session.uncommitted || !r.session.audio.buf.isEmpty) = true := by
      rw [Bool.or_eq_true, Bool.not_eq_true', List.isEmpty_eq_false_iff]
      rcases howes with hbuf | hu | hwant | hundelivered
      · exact .inr hbuf
      · exact .inl hu
      · exact .inl (hheld.want hwant)
      · obtain ⟨x, hx, hcommit⟩ := hheld.undelivered hundelivered
        cases (hplain x hx).symm.trans hcommit
    rw [hdrop.afterReader, if_pos hpending]

theorem drop_reconnects_word :
    (∃ s x s', run SendBuffer.step {} word.dropLast = some s ∧
      (s.goOn false 0 false).audio.sending = some x ∧
        SendBuffer.step (s.goOn false 0 false) .raises = some s' ∧ ¬ Kept s s' ∧
          s'.afterReader 0 .other = .idle) ∧
    ∃ r, run (guarded Record.step delivered) {} (word.dropLast ++ [.dropped 0]) = some r ∧
      r.session.afterReader 0 .other = .reconnects := by
  constructor
  · obtain ⟨s, x, s', hs, hfree, hx, hstep, hlength, hdrop⟩ : ∃ s x s',
        run SendBuffer.step {} word.dropLast = some s ∧ s.audio.sending = none ∧
          (s.goOn false 0 false).audio.sending = some x ∧
            SendBuffer.step (s.goOn false 0 false) .raises = some s' ∧
              s.audio.buf.length = 4 ∧ Drops s' 0 :=
      ⟨_, _, _, rfl, rfl, rfl, rfl, rfl, rfl, rfl, rfl⟩
    have hlt : s.audio.buf.length < MIN_CHUNK_BYTES := by
      rw [hlength]
      decide
    obtain ⟨hkept, hidle⟩ := (drop_reconnects s s' false false 0 0 {}).1 x hfree hx hstep
    exact ⟨s, x, s', hs, hx, hstep, fun h => absurd (hkept.1 h) (Nat.not_le_of_lt hlt),
      hidle hlt hdrop⟩
  · obtain ⟨r, hr, hfree, hdrop, howes⟩ : ∃ r,
        run (guarded Record.step delivered) {} (word.dropLast ++ [.dropped 0]) = some r ∧
          r.session.audio.sending = none ∧ Drops r.session 0 ∧ r.session.uncommitted = true :=
      ⟨_, rfl, rfl, ⟨rfl, rfl, rfl⟩, rfl⟩
    refine ⟨r, hr, (drop_reconnects {} {} false false 0 0 r).2.2 (reachableBy_of_run hr) ?_ hdrop
      (.inr (.inl howes))⟩
    intro x hx
    cases hfree.symm.trans hx

/-- The send of a commit chunk raises with its connection, and what the user has said is neither
sent nor to be sent. -/
theorem commit_lost : ∃ s, run SendBuffer.step {} (word ++ [.raises, .dropped 0]) = some s ∧
    s.audio.received = [1, 2, 3, 4] ∧ s.audio.sent = [] ∧ s.audio.dropped = [] ∧
      s.audio.buf = [] ∧ s.uncommitted = false ∧ s.wantCommit = false ∧ Drops s 0 ∧
        s.afterReader 0 .other = .idle :=
  ⟨_, rfl, rfl, rfl, rfl, rfl, rfl, rfl, ⟨rfl, rfl, rfl⟩, rfl⟩

end ElevenLabs.SendBuffer
