-- SUMMARY: What a turn tells its client of an error, over the three ways a turn is served: a code, and the same one whatever texts were raised or reported.
import JotaGateway.Api.Completions
import JotaGateway.Bridge.Turn
import JotaGateway.OpenClaw.TurnStream

/-!
# Relaying errors

A turn is the stream of the orchestrator and one consumer: the turn task of a
WebSocket session, the plain handler of `/v1/chat/completions`, or its streamed
response. The connection, the stream and the consumer move in any order, and
whatever is raised or reported comes with its text.
-/

open Transition CallOrchestrator

-- ---------------------------------------------------------------------------
-- Exceptions and their texts
-- ---------------------------------------------------------------------------

namespace Exn

/-- `str(e)`. -/
def str : Exn → PyStr
  | .orchestratorError content => content
  | .clientGone => py "cliente no disponible"
  | .runtimeError text => text
  | .exception text => text
  | .base => []

/-- `isinstance(e, OrchestratorError)`. -/
def isOrchestratorError : Exn → Bool
  | .orchestratorError _ => true
  | _ => false

/-- `OrchestratorError` is raised in one place, with the content of an event; other texts go. -/
def scrub : Exn → Exn
  | .runtimeError _ => .runtimeError []
  | .exception _ => .exception []
  | e => e

/-- The `code` of `pipe_tokens`. -/
def code (e : Exn) : PyStr := if e.isOrchestratorError then e.str else py "internal_error"

/-- The exception as the handlers of a turn task tell it apart. -/
def exc : Exn → Bridge.Exc
  | .clientGone => .clientGone
  -- `except RuntimeError` sends the code
  | .orchestratorError content => .orchestrator (Exn.orchestratorError content).code
  | .runtimeError text => .orchestrator (Exn.runtimeError text).code
  | .exception _ => .other
  | .base => .cancelled

@[simp] theorem exc_scrub (e : Exn) : e.scrub.exc = e.exc := by
  cases e <;> rfl

end Exn

namespace CallOrchestrator

def Phase.scrub : Phase → Phase
  | .closing e => .closing e.scrub
  | .raised e => .raised e.scrub
  | phase => phase

def StreamMove.scrub : StreamMove → StreamMove
  | .raises e => .raises e.scrub
  | .closeRaises e => .closeRaises e.scrub
  | move => move

end CallOrchestrator

@[simp] theorem TurnStream.Seen.move_scrub (seen : TurnStream.Seen) :
    seen.move.scrub = seen.move := by
  cases seen <;> rfl

/-- What a client may be told of an error. -/
def turnCodes : List PyStr := py "internal_error" :: orchestratorCodes

namespace ErrorRelay

-- ---------------------------------------------------------------------------
-- The stream and its consumer
-- ---------------------------------------------------------------------------

variable {σ β : Type}

/-- A consumer of the stream of a turn. -/
structure Consumer (σ β : Type) where
  /-- it is at `async for event in stream` -/
  pulls : σ → Bool
  /-- `aclosing` waits for the stream -/
  closes : σ → Bool
  take : σ → StreamMove → Option σ
  /-- its own steps, and what else happens to it -/
  own : σ → β → Option σ

structure System (σ : Type) where
  stream : TurnStream.State
  user : σ

inductive Action (β : Type) where
  | conn (a : TurnStream.ConnAction)
  | stream (a : TurnStream.Action)
  /-- `call_orchestrator` raises before it has a stream -/
  | callRaises (e : Exn)
  | own (b : β)

namespace Consumer

/-- The stream runs on where its consumer awaits it. -/
def admits (c : Consumer σ β) (user : σ) : TurnStream.Action → Bool
  | .pull => c.pulls user
  | .close => c.closes user
  | _ => true

def see (c : Consumer σ β) (user : σ) : Option TurnStream.Seen → Option σ
  | none => some user
  | some seen => c.take user seen.move

def step (turn : StreamResponse.Turn) (c : Consumer σ β) (s : System σ) :
    Action β → Option (System σ)
  | .conn a => some { s with stream := s.stream.act a }
  | .stream a =>
    if c.admits s.user a then
      (TurnStream.step turn s.stream a).bind fun p =>
        (c.see s.user p.2).map fun user => { stream := p.1, user }
    else none
  | .callRaises e =>
    match s.stream.outer with
    | .unstarted =>
      if c.pulls s.user && !e.isOrchestratorError then
        (c.take s.user (.raises e)).map fun user => { s with user }
      else none
    | _ => none
  | .own b => (c.own s.user b).map fun user => { s with user }

end Consumer

/-- The gateway starts; the turn comes later. -/
def start (maxQueueSize : Nat) (ws : Bool) (health : ConnectionState) (user : σ) : System σ :=
  { stream := { conn := { registry := { maxQueueSize }, ws }, health }, user }

-- ---------------------------------------------------------------------------
-- A WebSocket turn
-- ---------------------------------------------------------------------------

def Msg.error? : Bridge.Msg → Option PyStr
  | .turnError _ message => some message
  | _ => none

/-- A turn task, with what the session has of it. -/
structure WsTurn where
  running : Bridge.Running
  /-- `_turn_end_sent_at_close` -/
  endSent : Option Nat := none

inductive WsAction where
  /-- the task goes on; `text` is that of an exception of the TTS -/
  | turn (a : Bridge.TurnAct) (text : PyStr)
  | cancelTask
  /-- the other tasks of the session; they send no TURN_ERROR -/
  | session (f : Bridge.Output → Bridge.Output) (activeTurnId endSent : Option Nat)
    (said : List Bridge.Msg)

namespace WsTurn

/-- `_start_turn` has created the task; `out` is the session as it finds it. -/
def created (out : Bridge.Output) (activeTurnId : Option Nat) : WsTurn :=
  { running := { out := { out with wire := [] }, activeTurnId, task := { pc := .created } } }

def pulls (u : WsTurn) : Bool :=
  match u.running.task.pc with
  | .next => true
  | _ => false

def closes (u : WsTurn) : Bool :=
  match u.running.task.pc with
  | .aclose _ => true
  | _ => false

def resume (cfg : Bridge.Config) (u : WsTurn) (a : Bridge.TurnAct) : Option WsTurn :=
  (u.running.step cfg u.endSent a).map fun running => { u with running }

/-- `e` leaves `call_orchestrator`. -/
def raise (u : WsTurn) (e : Exn) : Option WsTurn :=
  if (u.pulls || u.closes) && !u.running.task.cancelReq then
    some { u with running := u.running.leaveTokens u.endSent (some e.exc) }
  else none

def take (cfg : Bridge.Config) (u : WsTurn) : StreamMove → Option WsTurn
  | .event (.token text) => u.resume cfg (.token text)
  | .event (.toolCall call) => u.resume cfg (.toolCall call)
  | .event (.error content) => u.resume cfg (.streamError content)
  | .event (.status _) => if u.pulls then some u else none
  | .exhausted => u.resume cfg .streamEnds
  | .closed => if u.closes then u.resume cfg .returns else none
  | .raises .base | .closeRaises .base => u.resume cfg .cancelled
  | .raises e | .closeRaises e => u.raise e

def own (cfg : Bridge.Config) (u : WsTurn) : WsAction → Option WsTurn
  | .turn a _ => if u.pulls || u.closes then none else u.resume cfg a
  | .cancelTask => some { u with running.task.cancelReq := true }
  | .session f activeTurnId endSent said =>
    if said.all fun m => (Msg.error? m).isNone then
      some { running := { u.running with
               out := { f u.running.out with wire := u.running.out.wire ++ said }
               activeTurnId }
             endSent }
    else none

/-- What the client was sent. -/
def messages (u : WsTurn) : List Bridge.Msg := u.running.out.wire

/-- The `message` of every TURN_ERROR. -/
def errors (u : WsTurn) : List PyStr := u.messages.filterMap Msg.error?

end WsTurn

def webSocket (cfg : Bridge.Config) : Consumer WsTurn WsAction where
  pulls := WsTurn.pulls
  closes := WsTurn.closes
  take := WsTurn.take cfg
  own := WsTurn.own cfg

-- ---------------------------------------------------------------------------
-- /v1/chat/completions
-- ---------------------------------------------------------------------------

def callPulls : CallOrchestrator.Phase → Bool
  | .streaming => true
  | _ => false

def callCloses : CallOrchestrator.Phase → Bool
  | .closing _ => true
  | _ => false

def plain : Consumer Completions.Turn Empty where
  pulls u := callPulls u.phase
  closes u := callCloses u.phase
  take := Completions.Turn.advance
  own _ b := nomatch b

/-- The response, once the call is over. -/
def plainResponse (u : Completions.Turn) : Option Completions.Response :=
  if u.phase.ended then some u.response else none

def plainErrors (u : Completions.Turn) : List PyStr :=
  match plainResponse u with
  | some (.failure _ error) => [error]
  | _ => []

def streamed : Consumer Completions.Stream Completions.Action where
  pulls u := u.task.any fun turn => callPulls turn.phase
  closes u := u.task.any fun turn => callCloses turn.phase
  take u move := u.step (.run move)
  own u b :=
    match b with
    | .run _ => none
    | b => u.step b

def Chunk.error? : Completions.Chunk → Option PyStr
  | .error message => some message
  | _ => none

def streamedErrors (u : Completions.Stream) : List PyStr := u.sent.filterMap Chunk.error?

-- ---------------------------------------------------------------------------
-- The contract
-- ---------------------------------------------------------------------------

/-- An own step without the texts of its exceptions. -/
def WsAction.scrub : WsAction → WsAction
  | .turn a _ => .turn a []
  | a => a

/-- An action without the texts of exceptions and of error frames. -/
def Action.scrub (scrubOwn : β → β) : Action β → Action β
  | .conn a => .conn a.scrub
  | .stream a => .stream a.scrub
  | .callRaises e => .callRaises e.scrub
  | .own b => .own (scrubOwn b)

/-- Two runs that differ only in texts put out the same. -/
def Blind {γ : Type} (turn : StreamResponse.Turn) (c : Consumer σ β) (scrubOwn : β → β)
    (output : σ → γ) (s : System σ) : Prop :=
  ∀ actions actions' : List (Action β),
    actions.map (Action.scrub scrubOwn) = actions'.map (Action.scrub scrubOwn) →
    (run (c.step turn) s actions).map (fun s => output s.user) =
      (run (c.step turn) s actions').map (fun s => output s.user)

/-- Whatever the run, every error that is put out is a code. -/
def RelaysCodes (turn : StreamResponse.Turn) (c : Consumer σ β) (errors : σ → List PyStr)
    (s : System σ) : Prop :=
  ∀ s', Reachable (c.step turn) s s' → ∀ message ∈ errors s'.user, message ∈ turnCodes

-- ---------------------------------------------------------------------------
-- The texts make no difference
-- ---------------------------------------------------------------------------

/-- What commutes with every move of the consumer. -/
structure Consumer.Scrubs (c : Consumer σ β) (scrub : σ → σ) (scrubOwn : β → β) : Prop where
  pulls : ∀ user, c.pulls (scrub user) = c.pulls user
  closes : ∀ user, c.closes (scrub user) = c.closes user
  take : ∀ user move, c.take (scrub user) move.scrub = (c.take user move).map scrub
  own : ∀ user b, c.own (scrub user) (scrubOwn b) = (c.own user b).map scrub

def System.scrub (scrub : σ → σ) (s : System σ) : System σ :=
  { stream := s.stream.scrub, user := scrub s.user }

namespace Consumer.Scrubs

variable {c : Consumer σ β} {scrub : σ → σ} {scrubOwn : β → β}

theorem admits (h : c.Scrubs scrub scrubOwn) (user : σ) (a : TurnStream.Action) :
    c.admits (scrub user) a.scrub = c.admits user a := by
  cases a with
  | pull => exact h.pulls user
  | close => exact h.closes user
  | _ => rfl

theorem see (h : c.Scrubs scrub scrubOwn) (user : σ) (seen? : Option TurnStream.Seen) :
    c.see (scrub user) seen? = (c.see user seen?).map scrub := by
  cases seen? with
  | none => rfl
  | some seen =>
    have htake := h.take user seen.move
    rw [seen.move_scrub] at htake
    exact htake

/-- The step lemma: a turn takes the same step without the texts. -/
theorem step (h : c.Scrubs scrub scrubOwn) (turn : StreamResponse.Turn) (s : System σ)
    (a : Action β) :
    c.step turn (s.scrub scrub) (a.scrub scrubOwn) = (c.step turn s a).map (System.scrub scrub) := by
  cases a with
  | conn a =>
    have hact := s.stream.scrub_act a
    exact congrArg (fun stream => some ({ stream, user := scrub s.user } : System σ)) hact
  | stream a =>
    have hadmits := h.admits s.user a
    have hstep := TurnStream.scrub_step turn s.stream a
    simp only [Action.scrub, Consumer.step, System.scrub, hadmits, hstep]
    split
    · cases TurnStream.step turn s.stream a with
      | none => rfl
      | some p =>
        have hsee := h.see s.user p.2
        simp only [Option.map_some, Option.bind_some, hsee]
        cases c.see s.user p.2 with
        | none => rfl
        | some user => rfl
    · rfl
  | callRaises e =>
    have hpulls := h.pulls s.user
    have htake := h.take s.user (.raises e)
    have herror : e.scrub.isOrchestratorError = e.isOrchestratorError := by cases e <;> rfl
    have houter : s.stream.scrub.outer = s.stream.outer := rfl
    simp only [Action.scrub, Consumer.step, System.scrub, hpulls, herror, houter]
    split
    · split
      · rw [show StreamMove.raises e.scrub = (StreamMove.raises e).scrub from rfl, htake]
        cases c.take s.user (.raises e) with
        | none => rfl
        | some user => rfl
      · rfl
    · rfl
  | own b =>
    have hown := h.own s.user b
    simp only [Action.scrub, Consumer.step, System.scrub, hown]
    cases c.own s.user b with
    | none => rfl
    | some user => rfl

theorem blind {γ : Type} {output : σ → γ} (h : c.Scrubs scrub scrubOwn)
    (houtput : ∀ user, output (scrub user) = output user) (turn : StreamResponse.Turn)
    (s : System σ) : Blind turn c scrubOwn output s := by
  intro actions actions' heq
  have hsame : ∀ actions, (run (c.step turn) s actions).map (fun s => output s.user) =
      (run (c.step turn) (s.scrub scrub) (actions.map (Action.scrub scrubOwn))).map
        (fun s => output s.user) := by
    intro actions
    rw [run_map (fun s a => h.step turn s a) s actions, Option.map_map]
    congr 1
    funext s
    exact (houtput s.user).symm
  rw [hsame actions, hsame actions', heq]

end Consumer.Scrubs

-- ---------------------------------------------------------------------------
-- The texts and the consumers
-- ---------------------------------------------------------------------------

theorem webSocket_scrubs (cfg : Bridge.Config) :
    (webSocket cfg).Scrubs (fun u => u) WsAction.scrub where
  pulls _ := rfl
  closes _ := rfl
  take u move := by
    simp only [webSocket, Option.map_id']
    cases move with
    | event | exhausted | closed => rfl
    | raises e =>
      cases e with
      | orchestratorError | clientGone | base => rfl
      | runtimeError text | exception text => rfl
    | closeRaises e =>
      cases e with
      | orchestratorError | clientGone | base => rfl
      | runtimeError text | exception text => rfl
  own u b := by
    simp only [webSocket, Option.map_id']
    cases b <;> rfl

theorem scrub_advance (toolCalls : Bool) (phase : CallOrchestrator.Phase) (move : StreamMove) :
    phase.scrub.advance toolCalls move.scrub = (phase.advance toolCalls move).map Phase.scrub := by
  cases phase with
  | streaming =>
    cases move with
    | event e =>
      cases e with
      | toolCall call => cases toolCalls <;> rfl
      | token | status | error => rfl
    | exhausted | raises | closed | closeRaises => rfl
  | onToken | onToolCall | returned | raised => cases move <;> rfl
  | closing e => cases move <;> rfl

def scrubTurn (u : Completions.Turn) : Completions.Turn := { u with phase := u.phase.scrub }

theorem scrub_turn_advance (u : Completions.Turn) (move : StreamMove) :
    (scrubTurn u).advance move.scrub = (u.advance move).map scrubTurn := by
  have hadvance := scrub_advance false u.phase move
  unfold Completions.Turn.advance
  simp only [scrubTurn, hadvance]
  cases u.phase.advance false move with
  | none => rfl
  | some phase => cases phase <;> rfl

@[simp] theorem ended_scrub (phase : CallOrchestrator.Phase) : phase.scrub.ended = phase.ended := by
  cases phase <;> rfl

@[simp] theorem completed_scrub (phase : CallOrchestrator.Phase) :
    phase.scrub.completed = phase.completed := by
  cases phase <;> rfl

/-- The handlers of `/v1` relay no text but that of an `OrchestratorError`. -/
@[simp] theorem caught_scrub (phase : CallOrchestrator.Phase) :
    Completions.caught phase.scrub = Completions.caught phase := by
  cases phase with
  | raised e => cases e <;> rfl
  | _ => rfl

theorem response_scrub (u : Completions.Turn) : (scrubTurn u).response = u.response := by
  obtain ⟨phase, tokens⟩ := u
  cases phase with
  | raised e => cases e <;> rfl
  | _ => rfl

theorem plain_scrubs : plain.Scrubs scrubTurn (fun b => b) where
  pulls u := by
    obtain ⟨phase, tokens⟩ := u
    cases phase <;> rfl
  closes u := by
    obtain ⟨phase, tokens⟩ := u
    cases phase <;> rfl
  take := scrub_turn_advance
  own _ b := nomatch b

def scrubStream (u : Completions.Stream) : Completions.Stream :=
  { u with task := u.task.map scrubTurn }

theorem scrub_runTask (u : Completions.Stream) (turn : Completions.Turn) (move : StreamMove) :
    (scrubStream u).runTask (scrubTurn turn) move.scrub =
      (u.runTask turn move).map scrubStream := by
  have hadvance := scrub_turn_advance turn move
  unfold Completions.Stream.runTask
  rw [hadvance]
  cases turn.advance move with
  | none => rfl
  | some turn' =>
    have hended : (scrubTurn turn').phase.ended = turn'.phase.ended := ended_scrub turn'.phase
    simp only [Option.map_some, hended]
    split
    · have hcaught : Completions.caught (scrubTurn turn').phase = Completions.caught turn'.phase :=
        caught_scrub turn'.phase
      have hstatus : (scrubTurn turn').status = turn'.status := by
        simp [Completions.Turn.status, scrubTurn]
      rw [hcaught, hstatus]
      rfl
    · rfl

theorem taskOver_scrub (u : Completions.Stream) : (scrubStream u).taskOver = u.taskOver := by
  obtain ⟨gen, task, queue, error, sent, closes⟩ := u
  cases task with
  | none => rfl
  | some turn => exact ended_scrub turn.phase

theorem streamed_scrubs : streamed.Scrubs scrubStream (fun b => b) where
  pulls u := by
    obtain ⟨gen, task, queue, error, sent, closes⟩ := u
    cases task with
    | none => rfl
    | some turn => exact plain_scrubs.pulls turn
  closes u := by
    obtain ⟨gen, task, queue, error, sent, closes⟩ := u
    cases task with
    | none => rfl
    | some turn => exact plain_scrubs.closes turn
  take u move := by
    obtain ⟨gen, task, queue, error, sent, closes⟩ := u
    cases task with
    | none => rfl
    | some turn =>
      exact scrub_runTask { gen, task := some turn, queue, error, sent, closes } turn move
  own u b := by
    have hover := taskOver_scrub u
    obtain ⟨gen, task, queue, error, sent, closes⟩ := u
    cases b with
    | run move => rfl
    | pull =>
      cases gen with
      | tail rest => cases rest <;> rfl
      | _ => rfl
    | take =>
      cases gen with
      | reading =>
        cases queue with
        | nil => rfl
        | cons chunk? queue =>
          cases chunk? with
          | some chunk => rfl
          | none =>
            cases error with
            | none => rfl
            | some message => rfl
      | _ => rfl
    | close =>
      cases gen with
      | reading | yielded =>
        simp only [streamed, Completions.Stream.step]
        rw [hover]
        rfl
      | _ => rfl
    | waited =>
      cases gen with
      | stopping =>
        simp only [streamed, Completions.Stream.step, hover]
        cases Completions.Stream.taskOver { gen := .stopping, task, queue, error, sent, closes } with
        | true => rfl
        | false => rfl
      | _ => rfl

-- ---------------------------------------------------------------------------
-- Every error is a code
-- ---------------------------------------------------------------------------

/-- An error that may be relayed is a code. -/
def CodedMove : StreamMove → Prop
  | .event (.error content) => content ∈ turnCodes
  | .raises (.orchestratorError content) => content ∈ turnCodes
  | .closeRaises (.orchestratorError content) => content ∈ turnCodes
  | _ => True

theorem coded_seen {seen : TurnStream.Seen} (h : TurnStream.CodedSeen (some seen)) :
    CodedMove seen.move := by
  cases seen with
  | event e =>
    cases e with
    | error content => exact List.mem_cons_of_mem _ (h content rfl)
    | token | status | toolCall => trivial
  | exhausted | cancelled | closed | cancelledInClose => trivial

/-- What every move of the consumer keeps, as long as the stream gives it codes. -/
structure Consumer.Keeps (c : Consumer σ β) (Ok : σ → Prop) : Prop where
  take : ∀ user move user', Ok user → CodedMove move → c.take user move = some user' → Ok user'
  own : ∀ user b user', Ok user → c.own user b = some user' → Ok user'

namespace Consumer.Keeps

variable {c : Consumer σ β} {Ok : σ → Prop}

theorem step (h : c.Keeps Ok) {turn : StreamResponse.Turn} {s s' : System σ} {a : Action β}
    (hstream : TurnStream.Coded s.stream) (huser : Ok s.user)
    (hstep : c.step turn s a = some s') : TurnStream.Coded s'.stream ∧ Ok s'.user := by
  cases a with
  | conn a =>
    cases hstep
    exact ⟨hstream.act a, huser⟩
  | stream a =>
    simp only [Consumer.step] at hstep
    split at hstep
    · obtain ⟨p, hmove, hsee⟩ := Option.bind_eq_some_iff.mp hstep
      obtain ⟨user, htake, rfl⟩ := Option.map_eq_some_iff.mp hsee
      obtain ⟨hstream', hseen⟩ := TurnStream.step_coded hstream hmove
      refine ⟨hstream', ?_⟩
      cases hp : p.2 with
      | none =>
        rw [hp] at htake
        cases htake
        exact huser
      | some seen =>
        rw [hp] at htake hseen
        exact h.take _ _ _ huser (coded_seen hseen) htake
    · cases hstep
  | callRaises e =>
    simp only [Consumer.step] at hstep
    split at hstep
    · split at hstep
      · rename_i hguard
        obtain ⟨user, htake, rfl⟩ := Option.map_eq_some_iff.mp hstep
        have hcoded : CodedMove (.raises e) := by
          cases e with
          | orchestratorError content => simp [Exn.isOrchestratorError] at hguard
          | clientGone | runtimeError | exception | base => trivial
        exact ⟨hstream, h.take _ _ _ huser hcoded htake⟩
      · cases hstep
    · cases hstep
  | own b =>
    obtain ⟨user, hown, rfl⟩ := Option.map_eq_some_iff.mp hstep
    exact ⟨hstream, h.own _ _ _ huser hown⟩

theorem relaysCodes (h : c.Keeps Ok) {errors : σ → List PyStr}
    (herrors : ∀ user, Ok user → ∀ message ∈ errors user, message ∈ turnCodes)
    (turn : StreamResponse.Turn) (maxQueueSize : Nat) (ws : Bool) (health : ConnectionState)
    {user : σ} (huser : Ok user) :
    RelaysCodes turn c errors (start maxQueueSize ws health user) := by
  intro s' hrun
  have hstart : TurnStream.Coded (start maxQueueSize ws health user).stream ∧
      Ok (start maxQueueSize ws health user).user := by
    refine ⟨⟨?_, nofun⟩, huser⟩
    intro q message hmem
    cases hmem
  have hend : TurnStream.Coded s'.stream ∧ Ok s'.user :=
    hrun.invariant hstart fun s a s' hs _ hstep => h.step hs.1 hs.2 hstep
  exact herrors s'.user hend.2

end Consumer.Keeps

-- ---------------------------------------------------------------------------
-- The codes of /v1
-- ---------------------------------------------------------------------------

/-- The exception on its way out of the call holds no text but a code. -/
def CodedTurn (u : Completions.Turn) : Prop :=
  match u.phase with
  | .closing (.orchestratorError content) | .raised (.orchestratorError content) =>
    content ∈ turnCodes
  | _ => True

theorem codedTurn_advance {u u' : Completions.Turn} {move : StreamMove} (h : CodedTurn u)
    (hmove : CodedMove move) (hstep : u.advance move = some u') : CodedTurn u' := by
  obtain ⟨phase, tokens⟩ := u
  simp only [Completions.Turn.advance, Option.bind_eq_some_iff] at hstep
  obtain ⟨next, hnext, hstep⟩ := hstep
  cases phase with
  | streaming =>
    cases move with
    | event e =>
      cases e with
      | error content =>
        cases hnext
        cases hstep
        exact hmove
      | token | status | toolCall =>
        cases hnext
        cases hstep
        trivial
    | exhausted =>
      cases hnext
      cases hstep
      trivial
    | raises e =>
      cases hnext
      cases hstep
      cases e with
      | orchestratorError content => exact hmove
      | clientGone | runtimeError | exception | base => trivial
    | closed | closeRaises => cases hnext
  | closing e =>
    cases move with
    | closed =>
      cases hnext
      cases hstep
      cases e with
      | orchestratorError content => exact h
      | clientGone | runtimeError | exception | base => trivial
    | closeRaises e =>
      cases hnext
      cases hstep
      cases e with
      | orchestratorError content => exact hmove
      | clientGone | runtimeError | exception | base => trivial
    | event | exhausted | raises => cases hnext
  | onToken | onToolCall | returned | raised => cases move <;> cases hnext

theorem codedTurn_caught {u : Completions.Turn} (h : CodedTurn u) {message : PyStr}
    (hcaught : Completions.caught u.phase = some message) : message ∈ turnCodes := by
  obtain ⟨phase, tokens⟩ := u
  cases phase with
  | raised e =>
    cases e with
    | orchestratorError content =>
      cases hcaught
      exact h
    | clientGone | runtimeError | exception =>
      cases hcaught
      exact List.mem_cons_self
    | base => cases hcaught
  | streaming | onToken | onToolCall | closing | returned => cases hcaught

theorem plain_keeps : plain.Keeps CodedTurn where
  take _ _ _ := codedTurn_advance
  own _ b := nomatch b

/-- What a plain response fails with is the message of the exception. -/
theorem caught_of_failure {u : Completions.Turn} {statusCode : Nat} {error : PyStr}
    (h : u.response = .failure statusCode error) : Completions.caught u.phase = some error := by
  simp only [Completions.Turn.response, Completions.jsonResponse] at h
  split at h
  · cases h
  · split at h
    · rename_i message hcaught
      split at h
      · cases h
        exact hcaught
      · cases h
    · split at h
      · cases h
      · cases h

theorem caught_of_plainErrors {u : Completions.Turn} {message : PyStr}
    (hmem : message ∈ plainErrors u) : Completions.caught u.phase = some message := by
  unfold plainErrors plainResponse at hmem
  split at hmem
  · rename_i statusCode error hresponse
    obtain ⟨-, hfailure⟩ := Option.ite_none_right_eq_some.mp hresponse
    obtain rfl := List.mem_singleton.mp hmem
    exact caught_of_failure (Option.some.inj hfailure)
  · cases hmem

/-- The streamed response holds no text but codes, sent or still to be sent. -/
structure CodedStream (u : Completions.Stream) : Prop where
  task : ∀ turn, u.task = some turn → CodedTurn turn
  error : ∀ message, u.error = some message → message ∈ turnCodes
  queue : ∀ message, some (Completions.Chunk.error message) ∈ u.queue → message ∈ turnCodes
  tail : ∀ rest, u.gen = .tail rest →
    ∀ message, Completions.Chunk.error message ∈ rest → message ∈ turnCodes
  sent : ∀ message, Completions.Chunk.error message ∈ u.sent → message ∈ turnCodes

theorem codedStream_emitTail {u : Completions.Stream} (h : CodedStream u)
    {rest : List Completions.Chunk}
    (hrest : ∀ message, Completions.Chunk.error message ∈ rest → message ∈ turnCodes) :
    CodedStream (u.emitTail rest) := by
  cases rest with
  | nil => exact { h with tail := nofun }
  | cons chunk rest =>
    refine { h with tail := ?_, sent := ?_ }
    · intro rest' hgen message hmem
      cases hgen
      exact hrest message (List.mem_cons_of_mem _ hmem)
    · intro message hmem
      cases List.mem_append.mp hmem with
      | inl hsent => exact h.sent message hsent
      | inr hchunk => exact hrest message (List.mem_cons.mpr (Or.inl (List.mem_singleton.mp hchunk)))

theorem codedStream_runTask {u u' : Completions.Stream} (h : CodedStream u)
    {turn : Completions.Turn} (hturn : CodedTurn turn) {move : StreamMove} (hmove : CodedMove move)
    (hstep : u.runTask turn move = some u') : CodedStream u' := by
  obtain ⟨turn', hadvance, rfl⟩ := Option.map_eq_some_iff.mp hstep
  have hturn' : CodedTurn turn' := codedTurn_advance hturn hmove hadvance
  have htask : ∀ t, some turn' = some t → CodedTurn t := by
    intro t ht
    cases ht
    exact hturn'
  have hput : ∀ message, some (Completions.Chunk.error message) ∈
      (turn'.tokens.drop turn.tokens.length).map (fun text => some (Completions.Chunk.delta text)) →
      message ∈ turnCodes := by
    intro message hmem
    obtain ⟨text, _, htext⟩ := List.mem_map.mp hmem
    cases htext
  split
  · refine { h with task := htask, error := fun _ => codedTurn_caught hturn', queue := ?_ }
    intro message hmem
    simp only [List.mem_append, List.mem_singleton] at hmem
    obtain (hold | hnew) | hend := hmem
    · exact h.queue message hold
    · exact hput message hnew
    · cases hend
  · refine { h with task := htask, queue := ?_ }
    intro message hmem
    cases List.mem_append.mp hmem with
    | inl hold => exact h.queue message hold
    | inr hnew => exact hput message hnew

theorem closingChunks_coded {error : Option PyStr}
    (h : ∀ message, error = some message → message ∈ turnCodes) {message : PyStr}
    (hmem : Completions.Chunk.error message ∈ Completions.closingChunks error) :
    message ∈ turnCodes := by
  cases error with
  | none => simp [Completions.closingChunks] at hmem
  | some m =>
    have heq : message = m := by simpa [Completions.closingChunks] using hmem
    exact h message (congrArg some heq.symm)

theorem streamed_keeps : streamed.Keeps CodedStream where
  take u move u' h hmove hstep := by
    obtain ⟨gen, task, queue, error, sent, closes⟩ := u
    cases task with
    | none => cases hstep
    | some turn => exact codedStream_runTask h (h.task turn rfl) hmove hstep
  own u b u' h hstep := by
    obtain ⟨gen, task, queue, error, sent, closes⟩ := u
    cases b with
    | run move => cases hstep
    | pull =>
      cases gen with
      | unstarted =>
        cases hstep
        refine { h with task := ?_, tail := (fun _ hgen => by cases hgen) }
        intro turn hturn
        cases hturn
        trivial
      | yielded =>
        cases hstep
        exact { h with tail := (fun _ hgen => by cases hgen) }
      | tail rest =>
        cases hstep
        exact codedStream_emitTail h (h.tail rest rfl)
      | reading | stopping | finished | closed => cases hstep
    | take =>
      cases gen with
      | reading =>
        cases queue with
        | nil => cases hstep
        | cons chunk? queue =>
          have hqueue : ∀ message, some (Completions.Chunk.error message) ∈ queue →
              message ∈ turnCodes := fun message hmem => h.queue message (List.mem_cons_of_mem _ hmem)
          cases chunk? with
          | some chunk =>
            cases hstep
            refine { h with queue := hqueue, tail := (fun _ hgen => by cases hgen), sent := ?_ }
            intro message hmem
            cases List.mem_append.mp hmem with
            | inl hsent => exact h.sent message hsent
            | inr hchunk =>
              cases List.mem_singleton.mp hchunk
              exact h.queue message List.mem_cons_self
          | none =>
            cases hstep
            have hcoded : CodedStream { gen := .reading, task, queue, error, sent, closes } :=
              { h with queue := hqueue }
            exact codedStream_emitTail hcoded fun message hmem => closingChunks_coded h.error hmem
      | unstarted | yielded | stopping | tail | finished | closed => cases hstep
    | close =>
      cases gen with
      | unstarted | stopping | tail =>
        cases hstep
        exact { h with tail := (fun _ hgen => by cases hgen) }
      | reading | yielded =>
        cases hstep
        refine { h with tail := ?_ }
        intro rest hgen
        dsimp only at hgen
        split at hgen
        · cases hgen
        · cases hgen
      | finished | closed => cases hstep
    | waited =>
      cases gen with
      | stopping =>
        simp only [streamed, Completions.Stream.step] at hstep
        split at hstep
        · cases hstep
          exact { h with tail := fun _ hgen => by cases hgen }
        · cases hstep
      | unstarted | reading | yielded | tail | finished | closed => cases hstep

theorem streamedErrors_coded {u : Completions.Stream} (h : CodedStream u) {message : PyStr}
    (hmem : message ∈ streamedErrors u) : message ∈ turnCodes := by
  obtain ⟨chunk, hchunk, herror⟩ := List.mem_filterMap.mp hmem
  cases chunk with
  | error m =>
    cases herror
    exact h.sent message hchunk
  | delta | finish | done => cases herror

-- ---------------------------------------------------------------------------
-- The codes of a WebSocket turn
-- ---------------------------------------------------------------------------

/-- What was sent holds no text but codes. -/
def CodedWire (r : Bridge.Running) : Prop :=
  ∀ n message, .turnError n message ∈ r.out.wire → message ∈ turnCodes

/-- The exception on its way holds none either. -/
def CodedExc (e : Option Bridge.Exc) : Prop :=
  ∀ code, e = some (.orchestrator code) → code ∈ turnCodes

structure CodedRunning (r : Bridge.Running) : Prop where
  wire : CodedWire r
  exc : CodedExc r.task.pc.exc

section Running

open Bridge

variable {cfg : Bridge.Config} {endSent : Option Nat} {r : Running} {e : Option Exc}

theorem CodedWire.goto (h : CodedWire r) {pc : TurnPc} (hpc : CodedExc pc.exc) :
    CodedRunning (r.goto pc) := ⟨h, hpc⟩

theorem CodedWire.send (h : CodedWire r) {m : Bridge.Msg}
    (hm : ∀ n message, m = .turnError n message → message ∈ turnCodes) : CodedWire (r.send m) := by
  intro n message hmem
  simp only [Running.send, Output.send] at hmem
  split at hmem
  · cases List.mem_append.mp hmem with
    | inl hold => exact h n message hold
    | inr hnew => exact hm n message (List.mem_singleton.mp hnew).symm
  · exact h n message hmem

theorem CodedWire.leave (h : CodedWire r) : CodedRunning (r.leave endSent) := by
  refine ⟨?_, nofun⟩
  have hsend : CodedWire (r.send (.turnEnd r.task.id)) := h.send nofun
  intro n message hmem
  simp only [Running.leave] at hmem
  split at hmem
  · exact h n message hmem
  · exact hsend n message hmem

theorem CodedWire.finish (h : CodedWire r) : CodedRunning (r.finish endSent e) := by
  unfold Running.finish
  split
  · exact h.leave
  · exact h.leave
  · exact h.leave
  · apply CodedWire.leave
    apply h.send
    intro n message hm
    cases hm
    exact List.mem_cons_self

theorem CodedWire.closeTts (h : CodedWire r) (he : CodedExc e) :
    CodedRunning (r.closeTts endSent e) := by
  unfold Running.closeTts
  split
  · exact h.finish
  · exact ⟨h, he⟩

theorem CodedWire.reap (h : CodedWire r) (he : CodedExc e) : CodedRunning (r.reap endSent e) := by
  unfold Running.reap
  split
  · exact h.finish
  · split
    · exact ⟨h, he⟩
    · exact h.closeTts he

theorem CodedWire.drain (h : CodedWire r) : CodedRunning (r.drain endSent) := by
  unfold Running.drain
  split
  · exact h.finish
  · rename_i a _
    have hrest : ∀ r : Running, CodedWire r → CodedRunning
        (if (r.out.audios a).running then r.goto .drain else r.reap endSent none) := by
      intro r h
      split
      · exact h.goto nofun
      · exact h.reap nofun
    apply hrest
    split
    · exact h
    · exact h

theorem CodedWire.afterTokens (h : CodedWire r) (he : CodedExc e) :
    CodedRunning (r.afterTokens endSent e) := by
  cases e with
  | none => exact h.drain
  | some e => exact h.reap he

theorem CodedWire.endTokens (h : CodedWire r) (he : CodedExc e) :
    CodedRunning (r.endTokens endSent e) := by
  unfold Running.endTokens
  split
  · exact h.goto he
  · exact h.afterTokens he

/-- The one place where the text of an exception is sent. -/
theorem CodedWire.leaveTokens (h : CodedWire r) (he : CodedExc e) :
    CodedRunning (r.leaveTokens endSent e) := by
  unfold Running.leaveTokens
  split
  · exact h.endTokens nofun
  · rename_i code
    refine CodedWire.endTokens (h.send ?_) nofun
    intro n message hm
    cases hm
    exact he code rfl
  · refine CodedWire.endTokens (h.send ?_) nofun
    intro n message hm
    cases hm
    exact List.mem_cons_self
  · exact h.endTokens he

theorem CodedWire.dropTts (h : CodedWire r) {wait : TurnPc} {k : Running → Running}
    (hwait : CodedExc wait.exc) (hk : ∀ r, CodedWire r → CodedRunning (k r)) :
    CodedRunning (r.dropTts wait k) := by
  unfold Running.dropTts
  split
  · dsimp only
    split
    · exact ⟨h, hwait⟩
    · exact hk _ h
  · exact hk _ h

theorem CodedWire.raiseGone (h : CodedWire r) : CodedRunning r.raiseGone := ⟨h, nofun⟩

theorem CodedWire.sendContent (h : CodedWire r) {m : Bridge.Msg} {k : Running → Running}
    (hm : ∀ n message, m ≠ .turnError n message) (hk : ∀ r, CodedWire r → CodedRunning (k r)) :
    CodedRunning (r.sendContent m k) := by
  unfold Running.sendContent
  split
  · apply hk
    apply h.send
    intro n message heq
    exact absurd heq (hm n message)
  · exact h.raiseGone

theorem CodedWire.onToken (h : CodedWire r) (text : PyStr) : CodedRunning (r.onToken cfg text) := by
  have hchunk : ∀ r, CodedWire r →
      CodedRunning (r.goto (if r.task.ttsLive then .sendChunk else .next)) := by
    intro r h
    apply h.goto
    split
    · exact nofun
    · exact nofun
  unfold Running.onToken
  dsimp only
  split
  · exact h.raiseGone
  · split
    · exact h.sendContent nofun hchunk
    · exact hchunk r h

theorem CodedWire.onToolCall (h : CodedWire r) (call : ToolCallEvent) :
    CodedRunning (r.onToolCall cfg call) := by
  unfold Running.onToolCall
  split
  · exact h.raiseGone
  · split
    · exact h.sendContent nofun fun r h => h.goto nofun
    · exact h.goto nofun

theorem CodedWire.start (h : CodedWire r) : CodedRunning (r.start cfg) := by
  unfold Running.start
  dsimp only
  split
  · have hsend : CodedWire (r.send (.turnStart (r.out.turnSeq + 1) (turnSeq16 (r.out.turnSeq + 1)))) :=
      h.send nofun
    refine ⟨hsend, ?_⟩
    dsimp only
    split
    · exact nofun
    · exact nofun
  · exact ⟨h, nofun⟩

theorem CodedRunning.onCancelled (h : CodedRunning r) {r' : Running}
    (hstep : r.onCancelled endSent = some r') : CodedRunning r' := by
  unfold Running.onCancelled at hstep
  split at hstep
  · cases hstep
    exact h.wire.goto nofun
  · cases hstep
    exact h.wire.finish
  · cases hstep
    exact h.wire.goto nofun
  · cases hstep
    exact h.wire.goto nofun
  · cases hstep
    exact h.wire.goto nofun
  · cases hstep
    exact h.wire.leaveTokens nofun
  · cases hstep
    exact h.wire.afterTokens nofun
  · cases hstep
    exact h.wire.afterTokens nofun
  · cases hstep
    exact h.wire.reap nofun
  · cases hstep
    exact h.wire.reap nofun
  · cases hstep
    exact h.wire.finish
  · cases hstep
    exact h.wire.finish
  · cases hstep

/-- What `resume` does where the stream gives it codes. -/
theorem CodedRunning.resume (h : CodedRunning r) {a : TurnAct} {r' : Running}
    (ha : ∀ code, a = .streamError code → r.task.pc = .next → code ∈ turnCodes)
    (hstep : r.resume cfg endSent a = some r') : CodedRunning r' := by
  have hexc := h.exc
  unfold Running.resume at hstep
  split at hstep
  · cases hstep
    exact h.wire.start
  · cases hstep
    exact ⟨h.wire, nofun⟩
  · cases hstep
    exact h.wire.goto nofun
  · cases hstep
    exact h.wire.finish
  · cases hstep
    exact h.wire.onToken _
  · cases hstep
    exact h.wire.onToolCall _
  · cases hstep
    exact h.wire.leaveTokens nofun
  · rename_i code hpc
    cases hstep
    apply h.wire.goto
    intro code' hcode
    cases hcode
    exact ha code rfl hpc
  · cases hstep
    apply h.wire.leaveTokens
    intro code hcode
    split at hcode
    · cases hcode
    · cases hcode
  · cases hstep
    exact h.wire.goto nofun
  · cases hstep
    exact h.wire.dropTts nofun fun r h => h.goto nofun
  · cases hstep
    exact h.wire.goto nofun
  · rename_i hpc
    cases hstep
    rw [hpc] at hexc
    exact h.wire.leaveTokens hexc
  · rename_i hpc
    cases hstep
    rw [hpc] at hexc
    exact h.wire.afterTokens hexc
  · rename_i hpc
    cases hstep
    rw [hpc] at hexc
    exact h.wire.dropTts hexc fun r h => h.afterTokens hexc
  · rename_i hpc
    cases hstep
    rw [hpc] at hexc
    exact h.wire.afterTokens hexc
  · split at hstep
    · split at hstep
      · cases hstep
      · cases hstep
        exact h.wire.reap nofun
    · cases hstep
  · cases hstep
    exact h.wire.dropTts nofun fun r h => h.reap nofun
  · cases hstep
    exact h.wire.reap nofun
  · rename_i hpc
    cases hstep
    rw [hpc] at hexc
    exact h.wire.closeTts hexc
  · cases hstep
    exact h.wire.finish
  · cases hstep
    exact h.wire.finish
  · cases hstep

theorem CodedRunning.step (h : CodedRunning r) {a : TurnAct} {r' : Running}
    (ha : ∀ code, a = .streamError code → r.task.pc = .next → code ∈ turnCodes)
    (hstep : r.step cfg endSent a = some r') : CodedRunning r' := by
  unfold Running.step at hstep
  split at hstep
  · split at hstep
    · have hcleared : CodedRunning { r with task := { r.task with cancelReq := false } } :=
        ⟨h.wire, h.exc⟩
      exact hcleared.onCancelled hstep
    · cases hstep
  · split at hstep
    · cases hstep
    · exact h.resume ha hstep

end Running

theorem coded_resume {cfg : Bridge.Config} {u u' : WsTurn} {a : Bridge.TurnAct}
    (h : CodedRunning u.running) (hstep : u.resume cfg a = some u')
    (ha : ∀ code, a = .streamError code → u.running.task.pc = .next → code ∈ turnCodes) :
    CodedRunning u'.running := by
  obtain ⟨running, hrunning, rfl⟩ := Option.map_eq_some_iff.mp hstep
  exact h.step ha hrunning

theorem coded_raise {u u' : WsTurn} {e : Exn} (h : CodedRunning u.running)
    (hstep : u.raise e = some u') (he : CodedMove (.raises e)) : CodedRunning u'.running := by
  unfold WsTurn.raise at hstep
  split at hstep
  · cases hstep
    apply h.wire.leaveTokens
    intro code hcode
    cases e with
    | orchestratorError content =>
      cases hcode
      exact he
    | runtimeError text =>
      cases hcode
      exact List.mem_cons_self
    | clientGone | exception | base => cases hcode
  · cases hstep

theorem webSocket_keeps (cfg : Bridge.Config) :
    (webSocket cfg).Keeps fun u => CodedRunning u.running where
  take u move u' h hmove hstep := by
    cases move with
    | event e =>
      cases e with
      | token | toolCall => exact coded_resume h hstep nofun
      | error content =>
        apply coded_resume h hstep
        intro code hcode _
        cases hcode
        exact hmove
      | status content =>
        simp only [webSocket, WsTurn.take] at hstep
        split at hstep
        · cases hstep
          exact h
        · cases hstep
    | exhausted => exact coded_resume h hstep nofun
    | closed =>
      simp only [webSocket, WsTurn.take] at hstep
      split at hstep
      · exact coded_resume h hstep nofun
      · cases hstep
    | raises e =>
      cases e with
      | base => exact coded_resume h hstep nofun
      | orchestratorError | clientGone | runtimeError | exception =>
        exact coded_raise h hstep hmove
    | closeRaises e =>
      cases e with
      | base => exact coded_resume h hstep nofun
      | orchestratorError | clientGone | runtimeError | exception =>
        exact coded_raise h hstep hmove
  own u b u' h hstep := by
    cases b with
    | turn a text =>
      simp only [webSocket, WsTurn.own] at hstep
      split at hstep
      · cases hstep
      · rename_i haway
        apply coded_resume h hstep
        intro code _ hpc
        simp [WsTurn.pulls, hpc] at haway
    | cancelTask =>
      cases hstep
      exact ⟨h.wire, h.exc⟩
    | session f activeTurnId endSent said =>
      simp only [webSocket, WsTurn.own] at hstep
      split at hstep
      · rename_i hsaid
        cases hstep
        refine ⟨?_, h.exc⟩
        intro n message hmem
        cases List.mem_append.mp hmem with
        | inl hold => exact h.wire n message hold
        | inr hnew =>
          have hnone := List.all_eq_true.mp hsaid _ hnew
          cases hnone
      · cases hstep

theorem errors_coded {u : WsTurn} (h : CodedRunning u.running) {message : PyStr}
    (hmem : message ∈ u.errors) : message ∈ turnCodes := by
  obtain ⟨m, hm, herror⟩ := List.mem_filterMap.mp hmem
  cases m with
  | turnError n message' =>
    cases herror
    exact h.wire n message hm
  | turnStart | turnEnd | token | toolCall | audio | interrupted | transcription
    | transcriptionPartial => cases herror

/-- What a client is sent in a turn, over the WebSocket or by `/v1`, streamed or not, does not
depend on the texts of exceptions and of OpenClaw's error frames; and every error in it is a
code. -/
theorem turn_errors_contract (turn : StreamResponse.Turn) (maxQueueSize : Nat) (ws : Bool)
    (health : ConnectionState) :
    (∀ (cfg : Bridge.Config) (out : Bridge.Output) (activeTurnId : Option Nat),
      Blind turn (webSocket cfg) WsAction.scrub WsTurn.messages
        (start maxQueueSize ws health (.created out activeTurnId)) ∧
      RelaysCodes turn (webSocket cfg) WsTurn.errors
        (start maxQueueSize ws health (.created out activeTurnId))) ∧
    (Blind turn plain (fun b => b) plainResponse (start maxQueueSize ws health {}) ∧
      RelaysCodes turn plain plainErrors (start maxQueueSize ws health {})) ∧
    (Blind turn streamed (fun b => b) Completions.Stream.sent (start maxQueueSize ws health {}) ∧
      RelaysCodes turn streamed streamedErrors (start maxQueueSize ws health {})) := by
  refine ⟨?_, ⟨?_, ?_⟩, ?_, ?_⟩
  · intro cfg out activeTurnId
    have hcreated : CodedRunning (WsTurn.created out activeTurnId).running := by
      refine ⟨?_, nofun⟩
      intro n message hmem
      cases hmem
    exact ⟨(webSocket_scrubs cfg).blind (fun _ => rfl) turn _,
      (webSocket_keeps cfg).relaysCodes (fun _ h _ => errors_coded h) turn maxQueueSize ws health
        hcreated⟩
  · apply plain_scrubs.blind
    intro u
    have hended : (scrubTurn u).phase.ended = u.phase.ended := ended_scrub u.phase
    unfold plainResponse
    rw [hended, response_scrub]
  · exact plain_keeps.relaysCodes
      (fun _ h _ hmem => codedTurn_caught h (caught_of_plainErrors hmem)) turn maxQueueSize ws health
      trivial
  · exact streamed_scrubs.blind (fun _ => rfl) turn _
  · exact streamed_keeps.relaysCodes (fun _ h _ => streamedErrors_coded h) turn maxQueueSize ws
      health ⟨nofun, nofun, nofun, nofun, nofun⟩

/-- The agent of the turn fails, and says why in `text`. -/
def agentFails (text : String) : PyDict :=
  [(py "type", .str (py "event")), (py "event", .str (py "chat")),
    (py "payload", .obj [(py "sessionKey", .str (py "agent:main:ha")), (py "state", .str (py "error")),
      (py "errorMessage", .str (py text))])]

/-- A turn whose agent fails. -/
def failedTurn (text : String) : List (Action Empty) :=
  [.stream .pull, .stream .sendReturns, .conn (.frame {} 0 (.ofRequest (py "r1")) (agentFails text)),
    .stream (.get []), .stream .close]

example : (run (plain.step { reqId := py "r1", sessionKey := py "agent:main:ha" })
    (start 10 true .connected {}) (failedTurn "sk-123")).map (fun s => plainErrors s.user) =
      some [py "orchestrator_error"] := by
  decide

end ErrorRelay
