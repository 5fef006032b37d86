-- SUMMARY: `ReconnectingTranscriberClient` over `TranscriberClient`: sends, the listen loop and the supervisor racing to notice a lost connection.
import JotaGateway.Base.Transition
import JotaGateway.Services.Reconnection
import Mathlib.Logic.Function.Basic

/-!
# The jota transcriber session

The client input loop sends while `run()` listens, and both learn on their own
that the connection has ended. An action takes one of these tasks from a
suspension to the next; `drops` is the network.
-/

namespace Transcriber

open Transition

abbrev ConnId := Nat

/-- `e.rcvd.code`: the close code received, if a close frame was. -/
abbrev CloseCode := Option Nat

/-- `async for` ends without an exception. -/
def silent (code : CloseCode) : Bool := code = some 1000 || code = some 1001

/-- `clean_close`. -/
def clean (code : CloseCode) : Bool := code = some 1000

/-- Where the owner of the session is: the bridge calls `start()` and then spawns `run()`. -/
inductive Phase where
  | created
  /-- in `start()`, and whether `websockets.connect` has returned -/
  | starting (opened : Bool)
  | started
  /-- in `_reconnect_loop`, in an attempt or between two -/
  | reconnecting (opened : Bool)
  | listening (c : ConnId)
  | returned
  /-- `close()` cancelled `run()` -/
  | cancelled
  deriving DecidableEq, Repr

structure Session where
  health : ServiceHealth := { state := .degraded }
  closed : Bool := false
  isReady : Bool := false
  droppedUnexpectedly : Bool := false
  ws : Option ConnId := none
  phase : Phase := .created
  /-- the calls of `send_audio` and `send_end` inside `ws.send`, by connection -/
  sends : List ConnId := []
  /-- the close code of each connection that has ended -/
  ended : ConnId → Option CloseCode := fun _ => none
  opened : Nat := 0

namespace Session

/-- `TranscriberClient.connect` up to the open socket. -/
def connectOpens (s : Session) : Session := { s with ws := some s.opened, opened := s.opened + 1 }

/-- `TranscriberClient.connect` on the `ready` frame. -/
def connectReady (s : Session) : Session := { s with isReady := true }

/-- `TranscriberClient.connect` raises: the socket, this one or an earlier one, is dropped. -/
def connectFails (s : Session) : Session := { s with ws := none }

/-- `run()` calls `listen_loop`, which returns at once without a socket. -/
def listen (s : Session) : Session :=
  let s := { s with droppedUnexpectedly := false }
  match s.ws with
  | some c => { s with phase := .listening c }
  | none => { s with phase := .returned }

/-- `run()` from the head of its loop. -/
def loop (s : Session) : Session :=
  if s.closed then
    { s with phase := .returned }
  else if s.health.state = .connected then
    s.listen
  else
    { s with phase := .reconnecting false }

/-- `run()` once `listen_loop` has returned. -/
def afterListening (s : Session) : Session :=
  if s.closed then
    { s with phase := .returned }
  else if s.droppedUnexpectedly then
    loop { s with health := s.health.setState .reconnecting }
  else
    { s with phase := .returned }

/-- `listen_loop` learns that its connection ended with `code`. -/
def learns (s : Session) (code : CloseCode) : Session :=
  if silent code then
    s.afterListening
  else
    afterListening { s with
      droppedUnexpectedly := s.droppedUnexpectedly || (s.isReady && !clean code)
      isReady := false }

end Session

inductive Action where
  | startCalled
  | connectOpens
  | connectReady
  | connectFails
  /-- an attempt fails and `max_duration` has passed -/
  | reconnectExhausted
  | runCalled
  /-- the network: connection `c` ends -/
  | drops (c : ConnId) (code : CloseCode)
  /-- `listen_loop` has read every message and learns of the end -/
  | learns
  /-- a callback of `listen_loop` raises -/
  | crashes
  /-- `send_audio` or `send_end` is called -/
  | sendCalled
  | sendReturns (c : ConnId)
  /-- `ws.send` raises `ConnectionClosed` -/
  | sendRaises (c : ConnId)
  | closeCalled
  /-- the step of `close()` that cancels `run()` -/
  | runCancelled
  /-- `TranscriberClient.close` -/
  | clientCloses

open Session

/-- What an action does, and `none` where it cannot happen. -/
def step (s : Session) : Action → Option Session
  | .startCalled =>
    if s.phase = .created then
      some (if s.closed then { s with phase := .started } else { s with phase := .starting false })
    else
      none
  | .connectOpens =>
    match s.phase with
    | .starting false => some { s.connectOpens with phase := .starting true }
    | .reconnecting false => some { s.connectOpens with phase := .reconnecting true }
    | _ => none
  | .connectReady =>
    match s.phase with
    | .starting true =>
      let s := { s.connectReady with health := s.health.markConnected, phase := .started }
      -- `start()` closes a socket that a `close()` meanwhile has left without an owner
      some (if s.closed then { s with isReady := false } else s)
    | .reconnecting true => some (listen { s.connectReady with health := s.health.markConnected })
    | _ => none
  | .connectFails =>
    match s.phase with
    | .starting _ =>
      let s := { s.connectFails with
        health := s.health.setState .reconnecting, phase := .started }
      some (if s.closed then { s with isReady := false } else s)
    | .reconnecting _ => some { s.connectFails with phase := .reconnecting false }
    | _ => none
  | .reconnectExhausted =>
    match s.phase with
    | .reconnecting _ =>
      some { s.connectFails with health := s.health.setState .degraded, phase := .returned }
    | _ => none
  | .runCalled => if s.phase = .started then some s.loop else none
  | .drops c code =>
    if c < s.opened ∧ (s.ended c).isNone then
      some { s with ended := Function.update s.ended c (some code) }
    else
      none
  | .learns =>
    match s.phase with
    | .listening c => (s.ended c).map s.learns
    | _ => none
  | .crashes =>
    match s.phase with
    | .listening _ =>
      some { s with health := s.health.setState .degraded, phase := .returned }
    | _ => none
  | .sendCalled =>
    match s.ws with
    | some c => some (if s.isReady then { s with sends := c :: s.sends } else s)
    | none => some s
  | .sendReturns c => if c ∈ s.sends then some { s with sends := s.sends.erase c } else none
  | .sendRaises c =>
    if c ∈ s.sends ∧ (s.ended c).isSome then
      some { s with sends := s.sends.erase c, isReady := false }
    else
      none
  | .closeCalled => some { s with closed := true }
  | .runCancelled =>
    if s.closed then
      match s.phase with
      | .reconnecting _ => some { s.connectFails with phase := .cancelled }
      | .listening _ => some { s with phase := .cancelled }
      | _ => none
    else
      none
  | .clientCloses => if s.closed then some { s with isReady := false } else none

-- ---------------------------------------------------------------------------
-- What a step does
-- ---------------------------------------------------------------------------

variable {s s' : Session} {a : Action}

inductive Effect (s : Session) : Action → Session → Prop where
  | startsClosed (hclosed : s.closed = true) :
      Effect s .startCalled { s with phase := .started }
  | starts (hphase : s.phase = .created) : Effect s .startCalled { s with phase := .starting false }
  | opensFirst (hphase : s.phase = .starting false) :
      Effect s .connectOpens { s.connectOpens with phase := .starting true }
  | opensAgain (hphase : s.phase = .reconnecting false) :
      Effect s .connectOpens { s.connectOpens with phase := .reconnecting true }
  | readyClosed (hclosed : s.closed = true) :
      Effect s .connectReady { s with
        health := s.health.markConnected, phase := .started, isReady := false }
  | readyFirst (hphase : s.phase = .starting true) :
      Effect s .connectReady { s.connectReady with
        health := s.health.markConnected, phase := .started }
  | readyAgain (hphase : s.phase = .reconnecting true) :
      Effect s .connectReady (listen { s.connectReady with health := s.health.markConnected })
  | failsFirst (ready : Bool) :
      Effect s .connectFails { s.connectFails with
        health := s.health.setState .reconnecting, phase := .started, isReady := ready }
  | failsAgain (opened : Bool) (hphase : s.phase = .reconnecting opened) :
      Effect s .connectFails { s.connectFails with phase := .reconnecting false }
  | exhausted : Effect s .reconnectExhausted { s.connectFails with
      health := s.health.setState .degraded, phase := .returned }
  | runs (hphase : s.phase = .started) : Effect s .runCalled s.loop
  | drops (c : ConnId) (code : CloseCode) (hlive : s.ended c = none) :
      Effect s (.drops c code) { s with ended := Function.update s.ended c (some code) }
  | learns (c : ConnId) (code : CloseCode) (hphase : s.phase = .listening c)
      (hended : s.ended c = some code) : Effect s .learns (s.learns code)
  | crashes : Effect s .crashes { s with
      health := s.health.setState .degraded, phase := .returned }
  | sendCalled (sends : List ConnId) : Effect s .sendCalled { s with sends }
  | sendReturns (c : ConnId) (sends : List ConnId) : Effect s (.sendReturns c) { s with sends }
  | sendRaises (c : ConnId) (sends : List ConnId) :
      Effect s (.sendRaises c) { s with sends, isReady := false }
  | closes : Effect s .closeCalled { s with closed := true }
  | cancels (ws : Option ConnId) (hclosed : s.closed = true) :
      Effect s .runCancelled { s with ws, phase := .cancelled }
  | clientCloses : Effect s .clientCloses { s with isReady := false }

theorem step_effect (hstep : step s a = some s') : Effect s a s' := by
  cases a with
  | startCalled =>
    simp only [step] at hstep
    split at hstep
    · cases hstep
      split
      · exact .startsClosed ‹_›
      · exact .starts ‹_›
    · cases hstep
  | connectOpens =>
    simp only [step] at hstep
    split at hstep
    · cases hstep
      exact .opensFirst ‹_›
    · cases hstep
      exact .opensAgain ‹_›
    · cases hstep
  | connectReady =>
    simp only [step] at hstep
    split at hstep
    · cases hstep
      split
      · exact .readyClosed ‹_›
      · exact .readyFirst ‹_›
    · cases hstep
      exact .readyAgain ‹_›
    · cases hstep
  | connectFails =>
    simp only [step] at hstep
    split at hstep
    · cases hstep
      split
      · exact .failsFirst false
      · exact .failsFirst s.isReady
    · cases hstep
      exact .failsAgain _ ‹_›
    · cases hstep
  | reconnectExhausted =>
    simp only [step] at hstep
    split at hstep
    · cases hstep
      exact .exhausted
    · cases hstep
  | runCalled =>
    simp only [step] at hstep
    split at hstep
    · cases hstep
      exact .runs ‹_›
    · cases hstep
  | drops c code =>
    simp only [step] at hstep
    split at hstep
    · rename_i hguard
      cases hstep
      exact .drops c code (Option.isNone_iff_eq_none.1 hguard.2)
    · cases hstep
  | learns =>
    simp only [step] at hstep
    split at hstep
    · rename_i c hphase
      obtain ⟨code, hended, rfl⟩ := Option.map_eq_some_iff.1 hstep
      exact .learns c code hphase hended
    · cases hstep
  | crashes =>
    simp only [step] at hstep
    split at hstep
    · cases hstep
      exact .crashes
    · cases hstep
  | sendCalled =>
    simp only [step] at hstep
    split at hstep
    · cases hstep
      split
      · exact .sendCalled _
      · exact .sendCalled s.sends
    · cases hstep
      exact .sendCalled s.sends
  | sendReturns c =>
    simp only [step] at hstep
    split at hstep
    · cases hstep
      exact .sendReturns c _
    · cases hstep
  | sendRaises c =>
    simp only [step] at hstep
    split at hstep
    · cases hstep
      exact .sendRaises c _
    · cases hstep
  | closeCalled =>
    cases hstep
    exact .closes
  | runCancelled =>
    simp only [step] at hstep
    split at hstep
    · split at hstep
      · cases hstep
        exact .cancels none ‹_›
      · cases hstep
        exact .cancels s.ws ‹_›
      · cases hstep
    · cases hstep
  | clientCloses =>
    simp only [step] at hstep
    split at hstep
    · cases hstep
      exact .clientCloses
    · cases hstep

-- ---------------------------------------------------------------------------
-- Supervision
-- ---------------------------------------------------------------------------

/-- The connection in `ws` has ended otherwise than by a clean close. -/
def Session.lost (s : Session) : Bool :=
  match s.ws.bind s.ended with
  | some code => !clean code
  | none => false

/-- While nobody has called `close()`, `run()` listens on the current connection, or
retries, or has given up and says so, or its connection ended with a clean close. -/
def Supervised (s : Session) : Prop :=
  s.closed = false →
    match s.phase with
    | .created => s.health.state = .degraded
    | .starting opened => s.health.state = .degraded ∧ (opened = true → s.ws.isSome = true)
    | .started =>
      s.health.state = .connected ∧ s.ws.isSome = true ∨ s.health.state = .reconnecting
    | .reconnecting opened =>
      s.health.state = .reconnecting ∧ (opened = true → s.ws.isSome = true)
    | .listening c => s.health.state = .connected ∧ s.ws = some c
    | .returned =>
      s.health.state = .connected → ∃ c, s.ws = some c ∧ s.ended c = some (some 1000)
    | .cancelled => False

/-- What the outcome turns on: when the listen loop learns that its connection was lost, no
send has cleared `_is_ready`, and the close code is not 1001. -/
def Noticed (s : Session) : Prop :=
  s.isReady = true ∧ s.ws.bind s.ended ≠ some (some 1001)

/-- Every loss the listen loop learns of is one it can notice. -/
def ok (s : Session) : Action → Prop
  | .learns => s.closed = false → s.lost = true → Noticed s
  | _ => True

/-- What holds while the loop listens, in every run. -/
def Listening (s : Session) : Prop :=
  ∀ c, s.phase = .listening c →
    s.ws = some c ∧ s.health.state = .connected ∧ s.droppedUnexpectedly = false

theorem listen_listening (s : Session) (hconnected : s.health.state = .connected) :
    Listening s.listen := by
  unfold Session.listen
  dsimp only
  intro c hc
  split at hc
  · rename_i c' hws
    cases hc
    exact ⟨hws, hconnected, rfl⟩
  · cases hc

theorem listen_closed (s : Session) : s.listen.closed = s.closed := by
  unfold Session.listen
  dsimp only
  split
  · rfl
  · rfl

theorem loop_listening (s : Session) : Listening s.loop := by
  unfold Session.loop
  split
  · exact nofun
  · split
    · exact listen_listening s ‹_›
    · exact nofun

theorem afterListening_listening (s : Session) : Listening s.afterListening := by
  unfold Session.afterListening
  split
  · exact nofun
  · split
    · exact loop_listening _
    · exact nofun

theorem step_listening (h : Listening s) (hstep : step s a = some s') : Listening s' := by
  cases step_effect hstep with
  | startsClosed => exact nofun
  | starts => exact nofun
  | opensFirst => exact nofun
  | opensAgain => exact nofun
  | readyClosed => exact nofun
  | readyFirst => exact nofun
  | readyAgain => exact listen_listening _ (by simp)
  | failsFirst => exact nofun
  | failsAgain => exact nofun
  | exhausted => exact nofun
  | runs => exact loop_listening s
  | drops c code => exact h
  | learns c code =>
    unfold Session.learns
    split
    · exact afterListening_listening _
    · exact afterListening_listening _
  | crashes => exact nofun
  | sendCalled => exact h
  | sendReturns => exact h
  | sendRaises => exact h
  | closes => exact h
  | cancels => exact nofun
  | clientCloses => exact h

theorem listening_of_reachable (h : Reachable step {} s) : Listening s :=
  h.invariant nofun fun _ _ _ hinv _ hstep => step_listening hinv hstep

-- ---------------------------------------------------------------------------
-- Noticing the end
-- ---------------------------------------------------------------------------

theorem lost_eq {c : ConnId} {code : CloseCode} (hws : s.ws = some c)
    (hended : s.ended c = some code) : s.lost = !clean code := by
  simp [Session.lost, hws, hended]

/-- A lost connection is one whose end the loop is told of, or that ended with 1001. -/
theorem silent_of_lost {code : CloseCode} (hlost : clean code = false) :
    silent code = true ↔ code = some 1001 := by
  unfold clean at hlost
  unfold silent
  simp [hlost]

/-- A loss the loop notices sends the session to `_reconnect_loop`. -/
theorem learns_noticed {c : ConnId} {code : CloseCode} (hlistening : Listening s)
    (hphase : s.phase = .listening c) (hended : s.ended c = some code) (hclosed : s.closed = false)
    (hlost : s.lost = true) (hnoticed : Noticed s) :
    (s.learns code).health.state = .reconnecting ∧
      (s.learns code).phase = .reconnecting false := by
  obtain ⟨hws, -, -⟩ := hlistening c hphase
  have hclean : clean code = false := by simpa [lost_eq hws hended] using hlost
  have hcode : code ≠ some 1001 := by simpa [hws, hended] using hnoticed.2
  have hsilent : silent code = false := by
    rw [← Bool.not_eq_true, silent_of_lost hclean]
    exact hcode
  simp [Session.learns, hsilent, Session.afterListening, hclosed, hnoticed.1, hclean, Session.loop]

/-- A loss it does not notice ends `run()`, which leaves the session CONNECTED. -/
theorem learns_unnoticed {c : ConnId} {code : CloseCode} (hlistening : Listening s)
    (hphase : s.phase = .listening c) (hended : s.ended c = some code) (hclosed : s.closed = false)
    (hlost : s.lost = true) (hnoticed : ¬ Noticed s) :
    (s.learns code).health.state = .connected ∧ (s.learns code).phase = .returned ∧
      (s.learns code).lost = true := by
  obtain ⟨hws, hconnected, hdropped⟩ := hlistening c hphase
  have hclean : clean code = false := by simpa [lost_eq hws hended] using hlost
  cases hsilent : silent code with
  | true =>
    simp only [Session.learns, hsilent, Session.afterListening, hclosed, hdropped, if_true,
      Bool.false_eq_true, if_false]
    exact ⟨hconnected, trivial, hlost⟩
  | false =>
    have hready : s.isReady = false := by
      by_contra hready
      refine hnoticed ⟨eq_true_of_ne_false hready, ?_⟩
      intro hcode
      have hcode : code = some 1001 := by simpa [hws, hended] using hcode
      rw [(silent_of_lost hclean).2 hcode] at hsilent
      cases hsilent
    simp only [Session.learns, hsilent, Session.afterListening, hclosed, hdropped, hready,
      Bool.false_and, Bool.or_self, Bool.false_eq_true, if_false]
    exact ⟨hconnected, trivial, hlost⟩

theorem loop_supervised (hclosed : s.closed = false)
    (h : s.health.state = .connected ∧ s.ws.isSome = true ∨ s.health.state = .reconnecting) :
    Supervised s.loop := by
  intro _
  rcases h with ⟨hconnected, hws⟩ | hreconnecting
  · obtain ⟨c, hc⟩ := Option.isSome_iff_exists.1 hws
    simp [Session.loop, Session.listen, hclosed, hconnected, hc]
  · simp [Session.loop, hclosed, hreconnecting]

theorem learns_supervised {c : ConnId} {code : CloseCode} (hlistening : Listening s)
    (hphase : s.phase = .listening c) (hended : s.ended c = some code)
    (hok : s.closed = false → s.lost = true → Noticed s) : Supervised (s.learns code) := by
  obtain ⟨hws, hconnected, hdropped⟩ := hlistening c hphase
  cases hclosed : s.closed with
  | true =>
    intro hopen
    unfold Session.learns at hopen
    split at hopen <;> simp [Session.afterListening, hclosed] at hopen
  | false =>
    intro _
    cases hclean : clean code with
    | false =>
      have hlost : s.lost = true := by simp [lost_eq hws hended, hclean]
      obtain ⟨hstate, hphase'⟩ :=
        learns_noticed hlistening hphase hended hclosed hlost (hok hclosed hlost)
      rw [hphase']
      exact ⟨hstate, nofun⟩
    | true =>
      have hcode : code = some 1000 := by simpa [clean] using hclean
      subst hcode
      simp only [Session.learns, silent, Session.afterListening, hclosed, hdropped]
      exact fun _ => ⟨c, hws, hended⟩

theorem drops_supervised {c : ConnId} {code : CloseCode} (h : Supervised s)
    (hlive : s.ended c = none) :
    Supervised { s with ended := Function.update s.ended c (some code) } := by
  intro hopen
  have hs := h hopen
  cases hphase : s.phase with
  | returned =>
    rw [hphase] at hs
    intro hconnected
    obtain ⟨c', hws, hended⟩ := hs hconnected
    refine ⟨c', hws, ?_⟩
    have hne : c' ≠ c := by
      intro heq
      rw [heq, hlive] at hended
      cases hended
    dsimp only
    rwa [Function.update_of_ne hne]
  | created => rwa [hphase] at hs
  | starting opened => rwa [hphase] at hs
  | started => rwa [hphase] at hs
  | reconnecting opened => rwa [hphase] at hs
  | listening c' => rwa [hphase] at hs
  | cancelled => rwa [hphase] at hs

theorem step_supervised (h : Supervised s) (hlistening : Listening s) (hok : ok s a)
    (hstep : step s a = some s') : Supervised s' := by
  cases step_effect hstep with
  | startsClosed hclosed => exact fun hopen => absurd (hclosed.symm.trans hopen) nofun
  | starts hphase =>
    intro hopen
    have hcreated := h hopen
    rw [hphase] at hcreated
    exact ⟨hcreated, nofun⟩
  | opensFirst hphase =>
    intro hopen
    have hstarting := h hopen
    rw [hphase] at hstarting
    exact ⟨hstarting.1, fun _ => rfl⟩
  | opensAgain hphase =>
    intro hopen
    have hreconnecting := h hopen
    rw [hphase] at hreconnecting
    exact ⟨hreconnecting.1, fun _ => rfl⟩
  | readyClosed hclosed => exact fun hopen => absurd (hclosed.symm.trans hopen) nofun
  | readyFirst hphase =>
    intro hopen
    have hstarting := h hopen
    rw [hphase] at hstarting
    exact .inl ⟨by simp, hstarting.2 rfl⟩
  | readyAgain hphase =>
    intro hopen
    rw [listen_closed] at hopen
    have hreconnecting := h hopen
    rw [hphase] at hreconnecting
    obtain ⟨c, hc⟩ := Option.isSome_iff_exists.1 (hreconnecting.2 rfl)
    simp [Session.listen, Session.connectReady, hc]
  | failsFirst => exact fun _ => .inr (by simp)
  | failsAgain opened hphase =>
    intro hopen
    have hreconnecting := h hopen
    rw [hphase] at hreconnecting
    exact ⟨hreconnecting.1, nofun⟩
  | exhausted =>
    intro _ hconnected
    simp at hconnected
  | runs hphase =>
    cases hclosed : s.closed with
    | true =>
      intro hopen
      simp [Session.loop, hclosed] at hopen
    | false =>
      have hstarted := h hclosed
      rw [hphase] at hstarted
      exact loop_supervised hclosed hstarted
  | drops c code hlive => exact drops_supervised h hlive
  | learns c code hphase hended => exact learns_supervised hlistening hphase hended hok
  | crashes =>
    intro _ hconnected
    simp at hconnected
  | sendCalled => exact h
  | sendReturns => exact h
  | sendRaises => exact h
  | closes => exact fun hopen => nomatch hopen
  | cancels ws hclosed => exact fun hopen => absurd (hclosed.symm.trans hopen) nofun
  | clientCloses => exact h

theorem supervised_of_reachable (h : ReachableBy step ok {} s) : Supervised s := by
  refine And.left (b := Listening s) ?_
  induction h with
  | start => exact ⟨fun _ => rfl, nofun⟩
  | next _ hok hstep ih => exact ⟨step_supervised ih.1 ih.2 hok hstep, step_listening ih.2 hstep⟩

/-- A session whose loop notices every loss stays supervised; and whenever the loop learns
of a loss before `close()`, noticing it is what sends the session to `_reconnect_loop`. -/
theorem supervision (s s' : Session) :
    (ReachableBy step ok {} s → Supervised s) ∧
      (Reachable step {} s → step s .learns = some s' → s.closed = false → s.lost = true →
        (s'.health.state = .reconnecting ∧ s'.phase = .reconnecting false ↔ Noticed s)) := by
  refine ⟨supervised_of_reachable, ?_⟩
  intro hs hstep hclosed hlost
  have hlistening := listening_of_reachable hs
  cases step_effect hstep with
  | learns c code hphase hended =>
    refine ⟨?_, learns_noticed hlistening hphase hended hclosed hlost⟩
    intro hretries
    by_contra hnoticed
    obtain ⟨-, hreturned, -⟩ :=
      learns_unnoticed hlistening hphase hended hclosed hlost hnoticed
    rw [hreturned] at hretries
    exact nomatch hretries.2

/-- A run up to the listen loop. -/
def listened : List Action := [.startCalled, .connectOpens, .connectReady, .runCalled]

/-- The connection of a session drops, and its loop notices. -/
theorem supervision_dropped :
    ∃ s s', run step {} (listened ++ [.drops 0 (some 1011)]) = some s ∧
      step s .learns = some s' ∧ s'.phase = .reconnecting false ∧ Supervised s' ∧
        (s'.health.state = .reconnecting ∧ s'.phase = .reconnecting false ↔ Noticed s) := by
  obtain ⟨s, hs⟩ : ∃ s, run step {} (listened ++ [.drops 0 (some 1011)]) = some s := ⟨_, rfl⟩
  have hreachable := reachable_of_run hs
  cases hs
  have hlistened : ReachableBy step ok {} _ := .next (a := .runCalled) (.next (a := .connectReady)
    (.next (a := .connectOpens) (.next (a := .startCalled) .start trivial rfl) trivial rfl)
    trivial rfl) trivial rfl
  have hdropped : ReachableBy step ok {} _ :=
    .next (a := .drops 0 (some 1011)) hlistened trivial rfl
  have hnoticed : ReachableBy step ok {} _ :=
    .next (a := .learns) hdropped (fun _ _ => ⟨rfl, by decide⟩) rfl
  exact ⟨_, _, rfl, rfl, rfl, (supervision _ {}).1 hnoticed, (supervision _ _).2 hreachable rfl rfl rfl⟩

/-- A run in which `send_audio` or `send_end` learns of the loss first. -/
def sendFirst : List Action :=
  listened ++ [.sendCalled, .drops 0 none, .sendRaises 0, .learns]

/-- A run in which nothing is sent and the server goes away with code 1001. -/
def goingAway : List Action := listened ++ [.drops 0 (some 1001), .learns]

/-- Either leaves the session CONNECTED over a dead connection, with nobody listening. -/
theorem deaf_session :
    (¬ ∀ s, Reachable step {} s → s.closed = false → s.phase = .returned →
      s.health.state = .connected → s.lost = false) ∧
      ∀ actions ∈ [sendFirst, goingAway], ∃ s, run step {} actions = some s ∧
        s.closed = false ∧ s.phase = .returned ∧ s.health.state = .connected ∧ s.lost = true := by
  have hdeaf : ∀ actions ∈ [sendFirst, goingAway], ∃ s, run step {} actions = some s ∧
      s.closed = false ∧ s.phase = .returned ∧ s.health.state = .connected ∧ s.lost = true := by
    intro actions hmem
    simp only [List.mem_cons, List.not_mem_nil, or_false] at hmem
    rcases hmem with rfl | rfl
    · exact ⟨_, rfl, rfl, rfl, rfl, rfl⟩
    · exact ⟨_, rfl, rfl, rfl, rfl, rfl⟩
  refine ⟨?_, hdeaf⟩
  intro hclaim
  obtain ⟨s, hs, hclosed, hreturned, hconnected, hlost⟩ := hdeaf sendFirst List.mem_cons_self
  have hkept := hclaim s (reachable_of_run hs) hclosed hreturned hconnected
  rw [hlost] at hkept
  cases hkept

end Transcriber
