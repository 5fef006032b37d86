-- SUMMARY: `admin_routes.py`, `db_client.py` and `agent_policy.py`: the agents a client may use, from the admin request to the agent of a session.
import JotaGateway.Python.JsonText
import JotaGateway.Base.Alignment

/-!
# Agents of a client

A client row keeps its agents in two columns: `default_agent`, and
`allowed_agents` as JSON text. The admin API writes them, `DbClient` reads
them and `resolve_agent` applies them. The other columns are left out: a
request only fails or not on account of them.
-/

namespace Admin

-- ---------------------------------------------------------------------------
-- Requests
-- ---------------------------------------------------------------------------

/-- A field of a request body. -/
inductive Field (α : Type*) where
  | absent
  | null
  | value (a : α)

namespace Field

/-- The field of a body in which a missing field is `None`. -/
def toOption {α : Type*} : Field α → Option α
  | .value a => some a
  | _ => none

/-- The field, validated; the outer `none` is a 422. -/
def validate {α β : Type*} (check : α → Option β) : Field α → Option (Field β)
  | .absent => some .absent
  | .null => some .null
  | .value a => (check a).map .value

def isSet {α : Type*} : Field α → Bool
  | .absent => false
  | _ => true

/-- `patch.get(field, stored)` -/
def getD {α : Type*} (stored : Option α) : Field α → Option α
  | .absent => stored
  | .null => none
  | .value a => some a

def map {α β : Type*} (f : α → β) : Field α → Field β
  | .absent => .absent
  | .null => .null
  | .value a => .value (f a)

end Field

/-- Removes the blank characters at both ends. -/
def strip (blank : Nat → Bool) (s : PyStr) : PyStr := (s.dropWhile blank).rdropWhile blank

/-- `AgentName`: a valid string, stripped, of 1 to 200 characters. `blank` is what the
validator strips. -/
def agentName? (blank : Nat → Bool) (raw : PyStr) : Option PyStr :=
  let name := strip blank raw
  if raw.all JsonText.isScalar && 1 ≤ name.length && name.length ≤ 200 then some name else none

/-- `list[AgentName]` -/
def agentNames? (blank : Nat → Bool) (raw : List PyStr) : Option (List PyStr) :=
  raw.mapM (agentName? blank)

/-- The agents a body carries, as they come. `others` says whether the rest of the body is
valid. -/
structure Body where
  defaultAgent : Field PyStr := .absent
  allowedAgents : Field (List PyStr) := .absent
  others : Bool := true

/-- A body that was validated. -/
structure Agents where
  defaultAgent : Field PyStr
  allowedAgents : Field (List PyStr)

def Body.validate (blank : Nat → Bool) (body : Body) : Option Agents :=
  if body.others then
    (body.defaultAgent.validate (agentName? blank)).bind fun defaultAgent =>
      (body.allowedAgents.validate (agentNames? blank)).map fun allowedAgents =>
        { defaultAgent, allowedAgents }
  else none

-- ---------------------------------------------------------------------------
-- Rows
-- ---------------------------------------------------------------------------

structure ClientRecord where
  id : PyStr
  clientKey : PyStr
  isActive : Bool := true
  defaultAgent : Option PyStr
  /-- JSON text -/
  allowedAgents : Option PyStr
  /-- the list of the last accepted request that carried one: nothing in the gateway reads it -/
  sent : Option (List PyStr)

abbrev Database := List ClientRecord

/-- What a request is answered with. -/
inductive Reply where
  | ok (client : ClientRecord)
  | noContent
  | notFound
  | conflict
  | unprocessable

/-- `_check_agent_consistency`: whether it lets the two columns pass. -/
def agentConsistency (defaultAgent : Option PyStr) (allowedAgents : Option (List PyStr)) : Bool :=
  match defaultAgent, allowedAgents with
  | some agent, some agents => agents.contains agent
  | _, _ => true

/-- `json.loads(rec.allowed_agents) if rec.allowed_agents else None` -/
def storedAgents (rec_ : ClientRecord) : Option (List PyStr) :=
  match rec_.allowedAgents with
  | none => none
  | some text => if text.isEmpty then none else JsonText.loads text

namespace Database

def find (db : Database) (id : PyStr) : Option ClientRecord :=
  List.find? (fun rec_ => rec_.id == id) db

/-- A commit that would leave two rows with one key, or one id, raises `IntegrityError`. -/
def clashes (db : Database) (id clientKey : PyStr) : Bool :=
  List.any db fun rec_ => rec_.id == id || rec_.clientKey == clientKey

def replace (db : Database) (rec_ : ClientRecord) : Database :=
  List.map (fun other => if other.id == rec_.id then rec_ else other) db

/-- `create_client`; `id` and `token` are what `uuid4` and `token_urlsafe` give. -/
def createClient (blank : Nat → Bool) (db : Database) (body : Body) (importedKey : Option PyStr)
    (id token : PyStr) : Database × Reply :=
  match body.validate blank with
  | none => (db, .unprocessable)
  | some agents =>
    let defaultAgent := agents.defaultAgent.toOption
    let allowedAgents := agents.allowedAgents.toOption
    if agentConsistency defaultAgent allowedAgents then
      let rec_ : ClientRecord := {
        id
        clientKey := importedKey.getD token
        defaultAgent
        allowedAgents := allowedAgents.map JsonText.dumps
        sent := body.allowedAgents.toOption }
      if db.clashes rec_.id rec_.clientKey then (db, .conflict) else (db ++ [rec_], .ok rec_)
    else (db, .unprocessable)

/-- `update_client`; `isActive` is the column of that name, where the body carries it. -/
def updateClient (blank : Nat → Bool) (db : Database) (id : PyStr) (body : Body)
    (isActive : Option Bool) : Database × Reply :=
  match body.validate blank with
  | none => (db, .unprocessable)
  | some patch =>
    match db.find id with
    | none => (db, .notFound)
    | some rec_ =>
      let defaultAgent := patch.defaultAgent.getD rec_.defaultAgent
      let allowedAgents := patch.allowedAgents.getD (storedAgents rec_)
      -- a patch that touches neither field is not checked
      if (patch.defaultAgent.isSet || patch.allowedAgents.isSet) &&
          !agentConsistency defaultAgent allowedAgents then
        (db, .unprocessable)
      else
        let rec_ := { rec_ with
          defaultAgent
          allowedAgents := (patch.allowedAgents.map JsonText.dumps).getD rec_.allowedAgents
          isActive := isActive.getD rec_.isActive
          sent := body.allowedAgents.getD rec_.sent }
        (db.replace rec_, .ok rec_)

def deleteClient (db : Database) (id : PyStr) : Database × Reply :=
  match db.find id with
  | none => (db, .notFound)
  | some _ => (List.filter (fun rec_ => rec_.id != id) db, .noContent)

/-- `_ROTATE_KEY_ATTEMPTS` -/
def rotateKeyAttempts : Nat := 3

/-- `rotate_client_key`; `tokens` are what `token_urlsafe` gives, one for each attempt. -/
def rotateClientKey (db : Database) (id : PyStr) (tokens : List PyStr) : Database × Reply :=
  match db.find id with
  | none => (db, .notFound)
  | some rec_ =>
    let free := fun token => !List.any db fun other => other.id != id && other.clientKey == token
    match (tokens.take rotateKeyAttempts).find? free with
    | none => (db, .conflict)
    | some token => (db.replace { rec_ with clientKey := token }, .ok { rec_ with clientKey := token })

end Database

inductive Request where
  | create (body : Body) (importedKey : Option PyStr) (id token : PyStr)
  | patch (id : PyStr) (body : Body) (isActive : Option Bool)
  | delete (id : PyStr)
  | rotateKey (id : PyStr) (tokens : List PyStr)

def Database.handle (blank : Nat → Bool) (db : Database) : Request → Database × Reply
  | .create body importedKey id token => db.createClient blank body importedKey id token
  | .patch id body isActive => db.updateClient blank id body isActive
  | .delete id => db.deleteClient id
  | .rotateKey id tokens => db.rotateClientKey id tokens

/-- The database after a sequence of requests, from an empty one. -/
def serve (blank : Nat → Bool) (requests : List Request) : Database :=
  requests.foldl (fun db request => (db.handle blank request).1) []

-- ---------------------------------------------------------------------------
-- DbClient
-- ---------------------------------------------------------------------------

/-- `_parse_allowed_agents`; the outer `none` is a `ValueError`. -/
def parseAllowedAgents (raw : Option PyStr) : Option (Option (List PyStr)) :=
  match raw with
  | none => some none
  | some raw =>
    if raw = [] ∨ raw = py "null" then some none
    else (JsonText.loads raw).map some

/-- `ClientConfig`, its agents. -/
structure ClientConfig where
  defaultAgent : Option PyStr
  allowedAgents : Option (List PyStr)

inductive LookupError where
  | clientNotFound
  | clientInactive
  | valueError

/-- `DbClient._lookup` -/
def Database.lookup (db : Database) (clientKey : PyStr) :
    Except LookupError (ClientRecord × ClientConfig) :=
  match List.find? (fun rec_ => rec_.clientKey == clientKey) db with
  | none => .error .clientNotFound
  | some rec_ =>
    if rec_.isActive then
      match parseAllowedAgents rec_.allowedAgents with
      | none => .error .valueError
      | some allowedAgents => .ok (rec_, { defaultAgent := rec_.defaultAgent, allowedAgents })
    else .error .clientInactive

-- ---------------------------------------------------------------------------
-- resolve_agent
-- ---------------------------------------------------------------------------

structure GatewayInfo where
  defaultAgentId : PyStr
  agents : List PyStr

inductive AgentPolicyError where
  | notPermitted (agent : PyStr)
  | notAvailable (agent : PyStr)
deriving DecidableEq

/-- A string that is not empty. -/
def nonEmpty (s : PyStr) : Option PyStr := if s.isEmpty then none else some s

/-- `(requested or "").strip() or None` -/
def normalized (requested : Option PyStr) : Option PyStr :=
  nonEmpty (strip isSpace (requested.getD []))

def resolveAgent (requested : Option PyStr) (clientConfig : Option ClientConfig)
    (gatewayInfo : Option GatewayInfo) : Except AgentPolicyError PyStr :=
  let requested := normalized requested
  let effective :=
    ((requested.or ((clientConfig.bind fun config => config.defaultAgent).bind nonEmpty)).or
      (gatewayInfo.bind fun info => nonEmpty info.defaultAgentId)).getD (py "main")
  if (clientConfig.bind fun config => config.allowedAgents).any fun agents =>
      !agents.contains effective then
    .error (.notPermitted effective)
  else if requested.isSome && gatewayInfo.any fun info => !info.agents.contains effective then
    .error (.notAvailable effective)
  else
    .ok effective

-- ---------------------------------------------------------------------------
-- Validated names
-- ---------------------------------------------------------------------------

variable {blank : Nat → Bool}

theorem strip_sublist (s : PyStr) : (strip blank s).Sublist s :=
  ((List.rdropWhile_prefix blank _).sublist).trans (List.dropWhile_sublist blank)

/-- A validated name is its raw form, stripped; it is valid text and not empty. -/
theorem agentName?_eq {raw name : PyStr} (h : agentName? blank raw = some name) :
    name = strip blank raw ∧ name ≠ [] ∧ ∀ c ∈ name, JsonText.isScalar c = true := by
  simp only [agentName?] at h
  split at h
  · rename_i hvalid
    cases h
    simp only [Bool.and_eq_true, decide_eq_true_eq] at hvalid
    refine ⟨rfl, ?_, ?_⟩
    · intro hnil
      rw [hnil] at hvalid
      simp at hvalid
    · intro c hc
      exact List.all_eq_true.mp hvalid.1.1 c ((strip_sublist raw).subset hc)
  · cases h

theorem agentNames?_eq {raw names : List PyStr} (h : agentNames? blank raw = some names) :
    names = raw.map (strip blank) ∧ ∀ name ∈ names, ∀ c ∈ name, JsonText.isScalar c = true := by
  unfold agentNames? at h
  induction raw generalizing names with
  | nil =>
    cases h
    exact ⟨rfl, by simp⟩
  | cons name raw ih =>
    simp only [List.mapM_cons, Option.bind_eq_bind, Option.bind_eq_some_iff, Option.pure_def,
      Option.some.injEq] at h
    obtain ⟨stripped, hname, rest, hrest, rfl⟩ := h
    obtain ⟨rfl, -, hscalar⟩ := agentName?_eq hname
    obtain ⟨rfl, hscalars⟩ := ih hrest
    refine ⟨rfl, ?_⟩
    intro other hother
    cases List.mem_cons.mp hother with
    | inl heq =>
      rw [heq]
      exact hscalar
    | inr hmem => exact hscalars other hmem

/-- What a valid body says about the agents: nothing, that there is no list, or the sent list
with its names stripped. -/
theorem Body.validate_allowed {body : Body} {agents : Agents}
    (h : body.validate blank = some agents) :
    (body.allowedAgents = .absent ∧ agents.allowedAgents = .absent) ∨
    (body.allowedAgents = .null ∧ agents.allowedAgents = .null) ∨
    ∃ raw, body.allowedAgents = .value raw ∧
      agents.allowedAgents = .value (raw.map (strip blank)) ∧
      ∀ name ∈ raw.map (strip blank), ∀ c ∈ name, JsonText.isScalar c = true := by
  unfold Body.validate at h
  split at h
  · simp only [Option.bind_eq_some_iff, Option.map_eq_some_iff] at h
    obtain ⟨defaultAgent, -, allowedAgents, hallowed, rfl⟩ := h
    cases hbody : body.allowedAgents with
    | absent =>
      rw [hbody] at hallowed
      cases hallowed
      exact .inl ⟨rfl, rfl⟩
    | null =>
      rw [hbody] at hallowed
      cases hallowed
      exact .inr (.inl ⟨rfl, rfl⟩)
    | value raw =>
      rw [hbody] at hallowed
      simp only [Field.validate, Option.map_eq_some_iff] at hallowed
      obtain ⟨names, hnames, rfl⟩ := hallowed
      obtain ⟨rfl, hscalar⟩ := agentNames?_eq hnames
      exact .inr (.inr ⟨raw, rfl, rfl, hscalar⟩)
  · cases h

-- ---------------------------------------------------------------------------
-- Every stored row
-- ---------------------------------------------------------------------------

/-- The list that was sent, its names stripped. -/
def ClientRecord.agents (blank : Nat → Bool) (rec_ : ClientRecord) : Option (List PyStr) :=
  rec_.sent.map (List.map (strip blank))

/-- The two columns of a row agree with what was sent. -/
structure ClientRecord.Kept (blank : Nat → Bool) (rec_ : ClientRecord) : Prop where
  written : rec_.allowedAgents = (rec_.agents blank).map JsonText.dumps
  scalar : ∀ agents, rec_.agents blank = some agents →
    ∀ name ∈ agents, ∀ c ∈ name, JsonText.isScalar c = true
  consistent : agentConsistency rec_.defaultAgent (rec_.agents blank) = true

namespace ClientRecord.Kept

variable {rec_ : ClientRecord}

/-- `json.loads` gives the list back. -/
theorem stored (h : rec_.Kept blank) : storedAgents rec_ = rec_.agents blank := by
  unfold storedAgents
  rw [h.written]
  cases hagents : rec_.agents blank with
  | none => rfl
  | some agents =>
    have hne : (JsonText.dumps agents).isEmpty = false := rfl
    simp only [Option.map_some, hne, Bool.false_eq_true, if_false]
    exact JsonText.loads_dumps (h.scalar agents hagents)

/-- `_parse_allowed_agents` gives the list back, and never raises. -/
theorem parsed (h : rec_.Kept blank) :
    parseAllowedAgents rec_.allowedAgents = some (rec_.agents blank) := by
  rw [h.written]
  cases hagents : rec_.agents blank with
  | none => rfl
  | some agents =>
    obtain ⟨hempty, hnull⟩ := JsonText.dumps_ne agents
    have hloads := JsonText.loads_dumps (h.scalar agents hagents)
    simp only [parseAllowedAgents, Option.map_some, hempty, hnull, or_self, if_false, hloads]

theorem default_mem (h : rec_.Kept blank) {agent : PyStr} {agents : List PyStr}
    (hdefault : rec_.defaultAgent = some agent) (hagents : rec_.agents blank = some agents) :
    agent ∈ agents := by
  have hconsistent := h.consistent
  rw [hdefault, hagents] at hconsistent
  exact List.contains_iff_mem.mp hconsistent

end ClientRecord.Kept

namespace Database

variable {db : Database}

/-- Every row of a database is kept. -/
def Kept (blank : Nat → Bool) (db : Database) : Prop := ∀ rec_ ∈ db, rec_.Kept blank

theorem Kept.find (h : db.Kept blank) {id : PyStr} {rec_ : ClientRecord}
    (hfind : db.find id = some rec_) : rec_.Kept blank :=
  h rec_ (List.mem_of_find?_eq_some hfind)

theorem Kept.replace (h : db.Kept blank) {rec_ : ClientRecord} (hrec : rec_.Kept blank) :
    (db.replace rec_).Kept blank := by
  intro other hother
  obtain ⟨row, hrow, rfl⟩ := List.mem_map.mp hother
  split
  · exact hrec
  · exact h row hrow

theorem Kept.createClient (h : db.Kept blank) (body : Body) (importedKey : Option PyStr)
    (id token : PyStr) : (db.createClient blank body importedKey id token).1.Kept blank := by
  unfold Database.createClient
  cases hbody : body.validate blank with
  | none => exact h
  | some agents =>
    simp only
    split
    · rename_i hconsistent
      split
      · exact h
      · intro rec_ hrec
        cases List.mem_append.mp hrec with
        | inl hold => exact h rec_ hold
        | inr hnew =>
          cases List.mem_singleton.mp hnew
          obtain ⟨hsent, hagents⟩ | ⟨hsent, hagents⟩ | ⟨raw, hsent, hagents, hscalar⟩ :=
            Body.validate_allowed hbody
          all_goals rw [hagents] at hconsistent
          all_goals rw [hsent, hagents]
          · exact ⟨rfl, by rintro _ ⟨⟩, hconsistent⟩
          · exact ⟨rfl, by rintro _ ⟨⟩, hconsistent⟩
          · refine ⟨rfl, ?_, hconsistent⟩
            rintro agents ⟨⟩
            exact hscalar
    · exact h

/-- A patch that carries one of the two fields is checked against the stored value of the
other. -/
theorem Kept.updateClient (h : db.Kept blank) (id : PyStr) (body : Body)
    (isActive : Option Bool) : (db.updateClient blank id body isActive).1.Kept blank := by
  unfold Database.updateClient
  cases hbody : body.validate blank with
  | none => exact h
  | some patch =>
    cases hfind : db.find id with
    | none => exact h
    | some rec_ =>
      have hrec := h.find hfind
      simp only
      split
      · exact h
      · rename_i hchecked
        apply h.replace
        simp only [Bool.and_eq_true, Bool.not_eq_true', not_and, Bool.not_eq_false,
          hrec.stored] at hchecked
        obtain ⟨hsent, hagents⟩ | ⟨hsent, hagents⟩ | ⟨raw, hsent, hagents, hscalar⟩ :=
          Body.validate_allowed hbody
        all_goals rw [hagents] at hchecked
        all_goals rw [hsent, hagents]
        · refine ⟨hrec.written, hrec.scalar, ?_⟩
          cases hdefault : patch.defaultAgent with
          | absent => exact hrec.consistent
          | null => rfl
          | value agent =>
            rw [hdefault] at hchecked
            exact hchecked rfl
        · exact ⟨rfl, by rintro _ ⟨⟩, hchecked (Bool.or_true _)⟩
        · refine ⟨rfl, ?_, hchecked (Bool.or_true _)⟩
          rintro agents ⟨⟩
          exact hscalar

theorem Kept.deleteClient (h : db.Kept blank) (id : PyStr) :
    (db.deleteClient id).1.Kept blank := by
  unfold Database.deleteClient
  cases db.find id with
  | none => exact h
  | some rec_ => exact fun other hother => h other (List.mem_of_mem_filter hother)

theorem Kept.rotateClientKey (h : db.Kept blank) (id : PyStr) (tokens : List PyStr) :
    (db.rotateClientKey id tokens).1.Kept blank := by
  unfold Database.rotateClientKey
  cases hfind : db.find id with
  | none => exact h
  | some rec_ =>
    simp only
    split
    · exact h
    · have hrec := h.find hfind
      exact h.replace ⟨hrec.written, hrec.scalar, hrec.consistent⟩

theorem Kept.handle (h : db.Kept blank) (request : Request) :
    (db.handle blank request).1.Kept blank := by
  cases request with
  | create body importedKey id token => exact h.createClient body importedKey id token
  | patch id body isActive => exact h.updateClient id body isActive
  | delete id => exact h.deleteClient id
  | rotateKey id tokens => exact h.rotateClientKey id tokens

end Database

/-- Every row stored by a sequence of requests agrees with what was sent. -/
theorem serve_kept (blank : Nat → Bool) (requests : List Request) :
    (serve blank requests).Kept blank := by
  unfold serve
  have hempty : Database.Kept blank [] := by
    intro rec_ hrec
    cases hrec
  generalize ([] : Database) = db at hempty
  induction requests generalizing db with
  | nil => exact hempty
  | cons request requests ih => exact ih _ (hempty.handle request)

-- ---------------------------------------------------------------------------
-- What DbClient and resolve_agent make of a row
-- ---------------------------------------------------------------------------

theorem Database.lookup_ok {db : Database} (h : db.Kept blank) {clientKey : PyStr}
    {rec_ : ClientRecord} {config : ClientConfig}
    (hlookup : db.lookup clientKey = .ok (rec_, config)) :
    rec_ ∈ db ∧ config = { defaultAgent := rec_.defaultAgent, allowedAgents := rec_.agents blank } := by
  unfold Database.lookup at hlookup
  split at hlookup
  · cases hlookup
  · rename_i found hfind
    have hmem := List.mem_of_find?_eq_some hfind
    split at hlookup
    · rw [(h found hmem).parsed] at hlookup
      cases hlookup
      exact ⟨hmem, rfl⟩
    · cases hlookup

/-- With no agent requested, the default of the client is the agent of the session. -/
theorem resolveAgent_default {requested : Option PyStr} (hrequested : normalized requested = none)
    {config : ClientConfig} {agent : PyStr} (hdefault : config.defaultAgent = some agent)
    (hne : agent ≠ []) (hallowed : ∀ agents, config.allowedAgents = some agents → agent ∈ agents)
    (gatewayInfo : Option GatewayInfo) :
    resolveAgent requested (some config) gatewayInfo = .ok agent := by
  have hagent : nonEmpty agent = some agent := by
    unfold nonEmpty
    rw [if_neg (by rwa [List.isEmpty_iff])]
  have hpermitted : ((some config).bind fun config => config.allowedAgents).any
      (fun agents => !agents.contains agent) = false := by
    cases hagents : config.allowedAgents with
    | none => simp [hagents]
    | some agents => simp [hagents, hallowed agents hagents]
  simp only [resolveAgent, hrequested, Option.bind_some, hdefault, hagent, Option.none_or,
    Option.some_or, Option.getD_some]
  simp only [Option.bind_some] at hpermitted
  simp only [hpermitted, Option.isSome_none, Bool.false_and, Bool.false_eq_true, if_false]

/-- A row that nobody is locked out by: its default agent is in its list, where it has both. -/
def ClientRecord.Consistent (rec_ : ClientRecord) : Prop :=
  rec_.defaultAgent = none ∨ rec_.allowedAgents = none ∨
    ∃ agent agents, rec_.defaultAgent = some agent ∧ storedAgents rec_ = some agents ∧
      agent ∈ agents

/-- Whatever the admin requests, every stored row is consistent and both decoders read the list
that was sent, its names stripped; a client with a default agent always gets that agent when a
session requests none. -/
theorem stored_agents (blank : Nat → Bool) (requests : List Request) :
    (∀ rec_ ∈ serve blank requests, rec_.Consistent ∧
      parseAllowedAgents rec_.allowedAgents = some (rec_.agents blank) ∧
      storedAgents rec_ = rec_.agents blank) ∧
    ∀ clientKey rec_ config, (serve blank requests).lookup clientKey = .ok (rec_, config) →
      config.allowedAgents = rec_.agents blank ∧
      ∀ agent, config.defaultAgent = some agent → agent ≠ [] →
        ∀ requested gatewayInfo, normalized requested = none →
          resolveAgent requested (some config) gatewayInfo = .ok agent := by
  have hkept := serve_kept blank requests
  constructor
  · intro rec_ hrec
    have hrow := hkept rec_ hrec
    refine ⟨?_, hrow.parsed, hrow.stored⟩
    cases hdefault : rec_.defaultAgent with
    | none => exact .inl hdefault
    | some agent =>
      cases hagents : rec_.agents blank with
      | none =>
        refine .inr (.inl ?_)
        rw [hrow.written, hagents]
        rfl
      | some agents =>
        refine .inr (.inr ⟨agent, agents, hdefault, ?_, hrow.default_mem hdefault hagents⟩)
        rw [hrow.stored, hagents]
  · intro clientKey rec_ config hlookup
    obtain ⟨hmem, rfl⟩ := Database.lookup_ok hkept hlookup
    refine ⟨rfl, ?_⟩
    intro agent hdefault hne requested gatewayInfo hrequested
    exact resolveAgent_default hrequested hdefault hne
      (fun agents hagents => (hkept rec_ hmem).default_mem hdefault hagents) gatewayInfo

/-- A client is created with a list, and then patched with a default that is in it. -/
def patchedClient : List Request :=
  [.create { allowedAgents := .value [py "main", py "jota"] } none (py "1") (py "token"),
   .patch (py "1") { defaultAgent := .value (py "jota") } none]

theorem stored_agents_patched :
    resolveAgent none
      (some { defaultAgent := some (py "jota"), allowedAgents := some [py "main", py "jota"] })
      none = .ok (py "jota") := by
  let row : ClientRecord := {
    id := py "1"
    clientKey := py "token"
    defaultAgent := some (py "jota")
    allowedAgents := some (JsonText.dumps [py "main", py "jota"])
    sent := some [py "main", py "jota"] }
  have hserve : serve isSpace patchedClient = [row] := by rfl
  have hlookup : (serve isSpace patchedClient).lookup (py "token") =
      .ok (row, { defaultAgent := row.defaultAgent, allowedAgents := some [py "main", py "jota"] }) := by
    rw [hserve]
    rfl
  exact ((stored_agents isSpace patchedClient).2 _ _ _ hlookup).2 _ rfl (by decide) none none rfl

/-- A client whose one allowed agent was sent with blanks around it. -/
def paddedAgent : List Request :=
  [.create { allowedAgents := .value [py " jota "] } none (py "1") (py "token")]

theorem stored_agents_padded :
    ¬ ∀ requests, ∀ rec_ ∈ serve isSpace requests,
      parseAllowedAgents rec_.allowedAgents = some rec_.sent := by
  intro h
  have hserve : serve isSpace paddedAgent =
      [{ id := py "1", clientKey := py "token", defaultAgent := none,
         allowedAgents := some (JsonText.dumps [py "jota"]),
         sent := some [py " jota "] }] := by
    rfl
  have hrow := h paddedAgent _ (hserve ▸ List.mem_singleton_self _)
  exact absurd hrow (by decide)

end Admin
