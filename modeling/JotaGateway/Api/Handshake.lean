-- SUMMARY: The handshake of `/ws/stream`: what a first message may raise, and what the endpoint does about it.
import JotaGateway.Python.JsonLoads

/-!
# The handshake of gateway_websocket

The first message goes through `receive_text`, `json.loads`, the keyword expansion
and the validation of `Handshake`. Each raises errors of its own; those that no
`except` names leave the endpoint.
-/

namespace ClientHandshake

open JsonLoads

-- ---------------------------------------------------------------------------
-- Handshake
-- ---------------------------------------------------------------------------

inductive InputMode where
  | audio
  | text
  deriving DecidableEq, Repr

inductive OutputMode where
  | audio
  | text
  | status
  deriving DecidableEq, Repr

structure Handshake where
  clientKey : PyStr
  inputMode : InputMode
  outputMode : List OutputMode
  /-- `none` is the default of the gateway -/
  agent : Option PyStr
  deriving DecidableEq, Repr

def InputMode.ofJson? (v : Json) : Option InputMode :=
  if v.isStr "audio" then some .audio
  else if v.isStr "text" then some .text
  else none

def OutputMode.ofJson? (v : Json) : Option OutputMode :=
  if v.isStr "audio" then some .audio
  else if v.isStr "text" then some .text
  else if v.isStr "status" then some .status
  else none

def outputModes? : Json → Option (List OutputMode)
  | .arr items => items.mapM OutputMode.ofJson?
  | _ => none

def agent? : Json → Option (Option PyStr)
  | .null => some none
  | .str agent => some (some agent)
  | _ => none

/-- The fields of `Handshake` as they are declared; other keys are allowed. -/
def Handshake.ofDict (d : PyDict) : Option Handshake :=
  (d.get "client_key").str?.bind fun clientKey =>
    (InputMode.ofJson? (d.get "input_mode")).bind fun inputMode =>
      (outputModes? (d.get "output_mode")).bind fun outputMode =>
        (agent? (d.get "agent")).map fun agent => { clientKey, inputMode, outputMode, agent }

-- ---------------------------------------------------------------------------
-- The endpoint
-- ---------------------------------------------------------------------------

/-- What comes first on the socket. -/
inductive First where
  | text (s : PyStr)
  | bytes
  | disconnect
  /-- no message within `HANDSHAKE_TIMEOUT_S` -/
  | nothing

inductive Exc where
  | jsonDecodeError
  | validationError
  | timeoutError
  | keyError
  | webSocketDisconnect
  | typeError
  | recursionError
  | valueError
  deriving DecidableEq, Repr

/-- The settings, the interpreter, and `pydantic`. -/
structure Env where
  HANDSHAKE_MAX_BYTES : Nat := 4096
  limits : Limits
  /-- `Handshake(**d)`; `none` is a `ValidationError` -/
  construct : PyDict → Option Handshake

/-- `websocket.receive_text()` under `wait_for` -/
def receiveText : First → Except Exc PyStr
  | .text s => .ok s
  | .bytes => .error .keyError
  | .disconnect => .error .webSocketDisconnect
  | .nothing => .error .timeoutError

def Exc.ofLoads : LoadsError → Exc
  | .decodeError => .jsonDecodeError
  | .recursionError => .recursionError
  | .valueError => .valueError

/-- `Handshake(**msg_data)` -/
def Env.expand (env : Env) (msgData : Json) : Except Exc Handshake :=
  match msgData.dict? with
  | none => .error .typeError
  | some d =>
    match env.construct d with
    | none => .error .validationError
    | some handshake => .ok handshake

/-- What the endpoint did when it has the handshake, returns or raises. -/
structure Reply where
  /-- the reasons of `handshake_rejected` -/
  rejected : List String := []
  /-- the codes and reasons of `websocket.close` -/
  closes : List (Nat × String) := []
  /-- `none` is a `return` -/
  result : Except Exc (Option Handshake)

def reject (label reason : String) : Reply where
  rejected := [label]
  closes := [(1008, reason)]
  result := .ok none

/-- The handlers of the `try`. -/
def handle : Exc → Reply
  | .jsonDecodeError | .validationError =>
    reject "invalid" "Handshake invalido. Se esperaba JSON de configuración."
  | .timeoutError => reject "timeout" "Handshake timeout"
  | .keyError => reject "not_text" "Handshake invalido. Se esperaba texto."
  | .webSocketDisconnect => { result := .ok none }
  | e => { result := .error e }

/-- The `try` of `gateway_websocket`. -/
def gatewayWebsocket (env : Env) (first : First) : Reply :=
  match receiveText first with
  | .error e => handle e
  | .ok rawMsg =>
    if env.HANDSHAKE_MAX_BYTES < rawMsg.length then reject "too_large" "Handshake too large"
    else
      match loads env.limits rawMsg with
      | .error e => handle (.ofLoads e)
      | .ok msgData =>
        match env.expand msgData with
        | .error e => handle e
        | .ok handshake => { result := .ok (some handshake) }

/-- What `_client_input_loop` makes of a later text. -/
inductive Later where
  /-- it is not JSON -/
  | unparsed
  | invalidMessage
  | message (d : PyDict)

def clientInput (limits : Limits) (textData : PyStr) : Later :=
  match loads limits textData with
  | .error _ => .unparsed
  | .ok jsonMsg =>
    match jsonMsg.dict? with
    | none => .invalidMessage
    | some d => .message d

-- ---------------------------------------------------------------------------
-- The contract
-- ---------------------------------------------------------------------------

/-- The socket is closed with 1008, and one rejection is counted. -/
def Reply.Rejected (r : Reply) : Prop := ∃ label reason, r = reject label reason

/-- The session goes on with the handshake that the text says. -/
def Reply.GoesOn (r : Reply) (text : PyStr) : Prop :=
  ∃ d handshake, read text = some (.obj d) ∧ Handshake.ofDict d = some handshake ∧
    r = { result := .ok (some handshake) }

def Handled : First → Reply → Prop
  | .text s, r => r.GoesOn s ∨ r.Rejected
  | .disconnect, r => r = { result := .ok none }
  | .bytes, r | .nothing, r => r.Rejected

/-- A text that is not too long for the endpoint, but too much for the parser, or JSON text that
is no object. -/
def Escapes (env : Env) (text : PyStr) : Prop :=
  text.length ≤ env.HANDSHAKE_MAX_BYTES ∧
    (TooMuch env.limits text ∨ (read text).isSome = true ∧ opensObject text = false)

variable {env : Env} {text : PyStr}

/-- What was handled did not raise. -/
theorem handled_returns {first : First} {r : Reply} (h : Handled first r) :
    r.result.toOption.isSome = true := by
  cases first with
  | text s =>
    rcases h with ⟨d, handshake, -, -, rfl⟩ | ⟨label, reason, rfl⟩
    · rfl
    · rfl
  | disconnect =>
    obtain rfl := h
    rfl
  | bytes | nothing =>
    obtain ⟨label, reason, rfl⟩ := h
    rfl

theorem not_handled_error {e : Exc} (first : First) : ¬ Handled first { result := .error e } := by
  intro h
  cases handled_returns h

theorem dict?_eq_some {v : Json} {d : PyDict} (h : v.dict? = some d) : v = .obj d := by
  cases v with
  | obj fields => exact congrArg Json.obj (Option.some.inj h)
  | _ => cases h

/-- What `Handshake(**msg_data)` gives is what was declared, or it is a validation error. -/
theorem expand_dict (hconstruct : ∀ d h, env.construct d = some h → Handshake.ofDict d = some h)
    (d : PyDict) :
    env.expand (.obj d) = .error .validationError ∨
      ∃ handshake, env.expand (.obj d) = .ok handshake ∧ Handshake.ofDict d = some handshake := by
  simp only [Env.expand, Json.dict?]
  cases hd : env.construct d with
  | none => exact .inl rfl
  | some handshake => exact .inr ⟨handshake, rfl, hconstruct d handshake hd⟩

/-- A text that the parser cannot read is rejected. -/
theorem handled_decodeError (hloads : loads env.limits text = .error .decodeError) :
    ¬ Escapes env text := by
  obtain ⟨hread, hwithin⟩ := loads_eq_decodeError.1 hloads
  rintro ⟨-, hmuch | ⟨hsome, -⟩⟩
  · exact hwithin hmuch
  · rw [hread] at hsome
    cases hsome

/-- A text is handled exactly if it does not escape. -/
theorem handled_text (hconstruct : ∀ d h, env.construct d = some h → Handshake.ofDict d = some h)
    (text : PyStr) :
    Handled (.text text) (gatewayWebsocket env (.text text)) ↔ ¬ Escapes env text := by
  by_cases hlength : env.HANDSHAKE_MAX_BYTES < text.length
  · simp only [gatewayWebsocket, receiveText, if_pos hlength]
    exact ⟨fun _ h => Nat.not_le_of_lt hlength h.1, fun _ => .inr ⟨_, _, rfl⟩⟩
  simp only [gatewayWebsocket, receiveText, if_neg hlength]
  have hfits := Nat.le_of_not_lt hlength
  cases hloads : loads env.limits text with
  | error e =>
    have hmuch : e ≠ .decodeError → Escapes env text :=
      fun hne => ⟨hfits, .inl (loads_eq_limit.1 ⟨e, hne, hloads⟩)⟩
    cases e with
    | decodeError => exact ⟨fun _ => handled_decodeError hloads, fun _ => .inr ⟨_, _, rfl⟩⟩
    | recursionError =>
      exact ⟨fun h => absurd h (not_handled_error _), fun h => absurd (hmuch nofun) h⟩
    | valueError =>
      exact ⟨fun h => absurd h (not_handled_error _), fun h => absurd (hmuch nofun) h⟩
  | ok v =>
    obtain ⟨hread, hwithin⟩ := loads_eq_ok.1 hloads
    have hobject := read_object hread
    cases hdict : v.dict? with
    | none =>
      rw [hdict] at hobject
      simp only [Env.expand, hdict]
      exact ⟨fun h => absurd h (not_handled_error _),
        fun h => absurd ⟨hfits, .inr ⟨by rw [hread]; rfl, hobject.symm⟩⟩ h⟩
    | some d =>
      obtain rfl := dict?_eq_some hdict
      have hcontained : ¬ Escapes env text := by
        rintro ⟨-, hmuch | ⟨-, hother⟩⟩
        · exact hwithin hmuch
        · cases hobject.trans hother
      refine ⟨fun _ => hcontained, fun _ => ?_⟩
      dsimp only
      rcases expand_dict hconstruct d with hinvalid | ⟨handshake, hok, hdeclared⟩
      · rw [hinvalid]
        exact .inr ⟨_, _, rfl⟩
      · rw [hok]
        exact .inl ⟨d, handshake, hread, hdeclared, rfl⟩

/-- Every first message is handled, but for the texts that escape: those on which `json.loads`
meets a limit of the interpreter, and JSON that is no object. -/
theorem handshake_contract (env : Env)
    (hconstruct : ∀ d h, env.construct d = some h → Handshake.ofDict d = some h) (first : First) :
    Handled first (gatewayWebsocket env first) ↔
      ∀ text, first = .text text → ¬ Escapes env text := by
  cases first with
  | text s =>
    rw [handled_text hconstruct]
    constructor
    · intro h text heq
      cases heq
      exact h
    · intro h
      exact h s rfl
  | disconnect => exact ⟨nofun, fun _ => rfl⟩
  | bytes | nothing => exact ⟨nofun, fun _ => ⟨_, _, rfl⟩⟩

/-- Where the longest text that is parsed meets no limit, only JSON that is no object escapes. -/
theorem escapes_of_short (hdepth : env.HANDSHAKE_MAX_BYTES ≤ env.limits.depth)
    (hdigits : ∀ most, env.limits.digits = some most → env.HANDSHAKE_MAX_BYTES ≤ most)
    (text : PyStr) :
    Escapes env text ↔ text.length ≤ env.HANDSHAKE_MAX_BYTES ∧ (read text).isSome = true ∧
      opensObject text = false := by
  refine and_congr_right fun hfits => ⟨?_, .inr⟩
  rintro (hmuch | hother)
  · rcases hmuch.longer with hlt | ⟨most, hmost, hlt⟩
    · omega
    · have hmax := hdigits most hmost
      omega
  · exact hother

/-- Of every text that escapes here, `_client_input_loop` says that it is no message. -/
theorem clientInput_of_escapes (h : Escapes env text) :
    clientInput env.limits text = .unparsed ∨ clientInput env.limits text = .invalidMessage := by
  unfold clientInput
  cases hloads : loads env.limits text with
  | error e => exact .inl rfl
  | ok v =>
    obtain ⟨hread, hwithin⟩ := loads_eq_ok.1 hloads
    obtain ⟨-, hmuch | ⟨-, hother⟩⟩ := h
    · exact absurd hmuch hwithin
    · have hobject := read_object hread
      cases hdict : v.dict? with
      | none =>
        dsimp only
        rw [hdict]
        exact .inr rfl
      | some d =>
        rw [hdict, hother] at hobject
        cases hobject

/-- The default of `HANDSHAKE_MAX_BYTES`, and limits as an interpreter has them. -/
def deployed : Env where
  limits := { depth := 1000, digits := some 4300 }
  construct := Handshake.ofDict

def hello : PyStr :=
  py "\x7b\"client_key\": \"k\", \"input_mode\": \"text\", \"output_mode\": [\"text\"]\x7d"

theorem handshake_contract_hello :
    (gatewayWebsocket deployed (.text hello)).result.toOption = some (some {
      clientKey := py "k", inputMode := .text, outputMode := [.text], agent := none }) ∧
    Handled (.text hello) (gatewayWebsocket deployed (.text hello)) := by
  have hopens : opensObject hello = true := by
    decide +kernel
  have hloads : (loads deployed.limits hello).toOption.isSome = true := by
    decide +kernel
  refine ⟨by decide +kernel, (handshake_contract deployed (fun _ _ h => h) (.text hello)).2 ?_⟩
  intro text heq hescapes
  cases heq
  cases hv : loads deployed.limits hello with
  | error e =>
    rw [hv] at hloads
    cases hloads
  | ok v =>
    obtain ⟨-, hmuch | ⟨-, hother⟩⟩ := hescapes
    · exact (loads_eq_ok.1 hv).2 hmuch
    · cases hopens.symm.trans hother

/-- JSON that is no object raises a `TypeError` out of the endpoint, and brackets that are too
deep a `RecursionError`. -/
theorem first_message_raises :
    ¬ Handled (.text (py "null")) (gatewayWebsocket deployed (.text (py "null"))) ∧
      ¬ Handled (.text (List.replicate 1001 0x5B))
        (gatewayWebsocket deployed (.text (List.replicate 1001 0x5B))) := by
  constructor
  · intro h
    have hraises : (gatewayWebsocket deployed (.text (py "null"))).result.toOption.isSome = false := by
      decide +kernel
    rw [handled_returns h] at hraises
    cases hraises
  · rw [handled_text fun _ _ h => h, not_not]
    refine ⟨?_, .inl (brackets_tooMuch deployed.limits)⟩
    rw [List.length_replicate]
    decide

end ClientHandshake
