-- SUMMARY: What each connection of the gateway keeps: its stage, its session, and the close of both.
import JotaGateway.Api.Gateway
import JotaGateway.Bridge.Callers

/-!
# The route of a connection

A connection is rejected, built by half, or serves a session. Its session takes
the steps of a session and no others, whatever else goes on in the gateway, so
what holds of every run of a session holds of it.
-/

namespace Gateway

open Bridge (Session CloserRef CloseReason CloseSite CloseStep RunEnd)
open Bridge.Session
open Admin (ClientRecord ClientConfig resolveAgent)
open Transition

-- ---------------------------------------------------------------------------
-- Stages
-- ---------------------------------------------------------------------------

namespace Pc

/-- Nothing is made yet. -/
def early : Pc → Bool
  | .idle | .handshake | .resolving _ _ => true
  | _ => false

/-- The bridge is there, and nobody has called `close_all`. -/
def setup : Pc → Bool
  | .connecting | .refusing | .healthCheck | .flushing | .ready => true
  | _ => false

/-- Up to the end of `close_all`. -/
def serves : Pc → Bool
  | .run | .closeAll => true
  | pc => pc.setup

/-- The sender is closed, and then the socket. -/
def ends : Pc → Bool
  | .draining | .hangUp | .left _ => true
  | _ => false

def isLeft : Pc → Bool
  | .left _ => true
  | _ => false

end Pc

namespace Conn

/-- No bridge, and no sender. -/
structure Blank (conn : Conn) : Prop where
  bridge : conn.bridge = none
  session : conn.session = {}
  sender : conn.sender = false
  acloses : conn.acloses = 0
  counted : conn.counted = false
  record : conn.record = none
  ran : conn.ran = false
  routeCloses : conn.routeCloses = false
  current : conn.current = none

/-- A bridge, and a sender that was closed so often. -/
structure Serves (conn : Conn) (acloses : Nat) : Prop where
  bridge : conn.bridge.isSome = true
  sender : conn.sender = true
  acloses : conn.acloses = acloses
  rejected : conn.rejected = []
  counted : conn.counted = true

/-- How far a connection is. -/
inductive Stage (conn : Conn) : Prop where
  | early (hpc : conn.pc.early = true) (blank : conn.Blank) (hrejected : conn.rejected = [])
      (hcloses : conn.closes = [])
  | rejected (hpc : conn.pc = .rejecting ∨ conn.pc.isLeft = true) (blank : conn.Blank)
      (hrejected : conn.rejected.length = 1) (hcloses : conn.closes = [1008])
  /-- the client left, or the endpoint -/
  | gone (hpc : conn.pc.isLeft = true) (blank : conn.Blank) (hrejected : conn.rejected = [])
      (hcloses : conn.closes = [])
  | aborted (hpc : conn.pc = .abortSender ∧ conn.closes = [] ∨
        (conn.pc = .abortSocket ∨ conn.pc.isLeft = true) ∧ conn.closes = [1011])
      (hbridge : conn.bridge = none) (hsender : conn.sender = true) (hacloses : conn.acloses = 1)
      (hrejected : conn.rejected = []) (hrecord : conn.record ≠ some .active)
      (hran : conn.ran = false) (hroute : conn.routeCloses = false) (hcurrent : conn.current = none)
  | serving (hpc : conn.pc.serves = true) (serves : conn.Serves 0)
      (hran : conn.pc.setup = true → conn.ran = false) (hrun : conn.pc = .run → conn.ran = true)
      (hroute : conn.pc ≠ .closeAll → conn.routeCloses = false)
  | closed (hpc : conn.pc.ends = true) (serves : conn.Serves 1)
      (hclosed : conn.session.close.closed = true) (hroute : conn.routeCloses = true)

/-- What a connection keeps. -/
structure Ok (conn : Conn) : Prop where
  stage : conn.Stage
  reach : ∀ tenant, conn.bridge = some tenant → Reachable (Session.step tenant.cfg) {} conn.session
  uncalled : conn.ran = false → conn.routeCloses = false → conn.session.Uncalled
  waits : conn.routeCloses = true → conn.session.Waits routeCloser
  current : conn.current.isSome = true → conn.ran = true
  outcome : ∀ o, conn.pc = .left o → o = conn.outcome

variable {conn conn' : Conn} {tenant : Tenant} {s' : Session} {a : Bridge.Act}

theorem Ok.session (h : conn.Ok) (hbridge : conn.bridge = some tenant) : conn.session.Ok :=
  ok_of_reachable (h.reach tenant hbridge)

-- ---------------------------------------------------------------------------
-- Steps of the session
-- ---------------------------------------------------------------------------

/-- The session takes a step that is not the route's. -/
theorem Ok.step (h : conn.Ok) (hbridge : conn.bridge = some tenant)
    (hstep : conn.session.step tenant.cfg a = some s')
    (hcalls : conn.ran = false → ∀ k site, a ≠ .call k site) (hasks : a ≠ .cancelCloser routeCloser) :
    { conn with session := s' }.Ok := by
  have hsession := h.session hbridge
  have hsome : conn.bridge ≠ none := by
    rw [hbridge]
    exact Option.some_ne_none tenant
  refine ⟨?_, fun tenant' htenant => ?_, fun hran hroute => ?_, fun hroute => ?_, h.current, h.outcome⟩
  · cases h.stage with
    | early _ blank | rejected _ blank | gone _ blank => exact absurd blank.bridge hsome
    | aborted _ hnone => exact absurd hnone hsome
    | serving hpc serves hran hrun hroute => exact .serving hpc { serves with } hran hrun hroute
    | closed hpc serves hclosed hroute =>
      exact .closed hpc { serves with } (step_closed hsession hclosed hstep) hroute
  · obtain rfl : tenant = tenant' := Option.some.inj (hbridge.symm.trans htenant)
    exact .next (h.reach tenant hbridge) trivial hstep
  · exact step_uncalled hsession (h.uncalled hran hroute) (hcalls hran) hstep
  · exact step_waits hsession (h.waits hroute) hasks hstep

-- ---------------------------------------------------------------------------
-- Steps of the route
-- ---------------------------------------------------------------------------

/-- The route is cancelled, or an exception is on its way out of it. -/
theorem Ok.flags (h : conn.Ok) (hpc : conn.pc.isLeft = false) (cancelling raising : Bool) :
    { conn with cancelling := cancelling, raising := raising }.Ok := by
  refine ⟨?_, h.reach, h.uncalled, h.waits, h.current, fun o ho => ?_⟩
  · cases h.stage with
    | early hpc blank => exact .early hpc { blank with } ‹_› ‹_›
    | rejected hpc blank => exact .rejected hpc { blank with } ‹_› ‹_›
    | gone hpc blank => exact .gone hpc { blank with } ‹_› ‹_›
    | aborted hpc => exact .aborted hpc ‹_› ‹_› ‹_› ‹_› ‹_› ‹_› ‹_› ‹_›
    | serving hpc serves hran hrun hroute => exact .serving hpc { serves with } hran hrun hroute
    | closed hpc serves hclosed hroute => exact .closed hpc { serves with } hclosed hroute
  · rw [show conn.pc = .left o from ho] at hpc
    cases hpc

/-- The route returns, or raises: it has nothing left to close. -/
theorem Ok.leave (h : conn.Ok) (hserves : conn.pc.serves = false) (hsender : conn.pc ≠ .abortSender) :
    conn.leave.Ok := by
  refine ⟨?_, h.reach, h.uncalled, h.waits, h.current, fun o ho => ?_⟩
  · cases h.stage with
    | early hpc blank => exact .gone rfl { blank with } ‹_› ‹_›
    | rejected hpc blank => exact .rejected (.inr rfl) { blank with } ‹_› ‹_›
    | gone hpc blank => exact .gone rfl { blank with } ‹_› ‹_›
    | aborted hpc =>
      have hcloses : conn.closes = [1011] := by
        rcases hpc with ⟨hpc, -⟩ | ⟨-, hcloses⟩
        · exact absurd hpc hsender
        · exact hcloses
      exact .aborted (.inr ⟨.inr rfl, hcloses⟩) ‹_› ‹_› ‹_› ‹_› ‹_› ‹_› ‹_› ‹_›
    | serving hpc =>
      rw [hserves] at hpc
      cases hpc
    | closed hpc serves hclosed hroute => exact .closed rfl { serves with } hclosed hroute
  · cases ho
    rfl

/-- A connection that serves a session. -/
theorem Ok.serves (h : conn.Ok) (hpc : conn.pc.serves = true) :
    conn.Serves 0 ∧ (conn.pc.setup = true → conn.ran = false) ∧
      (conn.pc = .run → conn.ran = true) ∧ (conn.pc ≠ .closeAll → conn.routeCloses = false) := by
  cases h.stage with
  | serving _ serves hran hrun hroute => exact ⟨serves, hran, hrun, hroute⟩
  | early hcase | rejected hcase | gone hcase | aborted hcase | closed hcase =>
    cases heq : conn.pc <;>
      simp [heq, Pc.early, Pc.isLeft, Pc.serves, Pc.setup, Pc.ends] at hpc hcase

/-- A connection whose sender is closed. -/
theorem Ok.drains (h : conn.Ok) (hpc : conn.pc = .draining) :
    conn.Serves 1 ∧ conn.session.close.closed = true ∧ conn.routeCloses = true := by
  cases h.stage with
  | closed _ serves hclosed hroute => exact ⟨serves, hclosed, hroute⟩
  | early hcase | rejected hcase | gone hcase | aborted hcase | serving hcase =>
    simp [hpc, Pc.early, Pc.isLeft, Pc.serves, Pc.setup] at hcase

/-- A connection with nothing made for it. -/
theorem Ok.blank (h : conn.Ok) (hpc : conn.pc.early = true) :
    conn.Blank ∧ conn.rejected = [] ∧ conn.closes = [] := by
  cases h.stage with
  | early _ blank hrejected hcloses => exact ⟨blank, hrejected, hcloses⟩
  | rejected hcase | gone hcase | aborted hcase | serving hcase | closed hcase =>
    cases heq : conn.pc <;>
      simp [heq, Pc.early, Pc.isLeft, Pc.serves, Pc.setup, Pc.ends] at hpc hcase

/-- From one `await` of the setup to another, or to the `finally`. -/
theorem Ok.goes (h : conn.Ok) {pc : Pc} {closes : List Nat} (hpc : conn.pc.serves = true)
    (hcloses : conn.pc ≠ .closeAll) (hnext : pc = .closeAll ∨ conn.pc.setup = true ∧ pc.setup = true) :
    { conn with pc := pc, closes := closes }.Ok := by
  obtain ⟨hserves, hran, -, hroute⟩ := h.serves hpc
  have hserves' : { conn with pc := pc, closes := closes }.Serves 0 := { hserves with }
  refine ⟨?_, h.reach, h.uncalled, h.waits, h.current, fun o ho => ?_⟩
  · rcases hnext with rfl | ⟨hsetup, hnext⟩
    · exact .serving rfl hserves' Bool.noConfusion Pc.noConfusion fun hne => absurd rfl hne
    · refine .serving ?_ hserves' (fun _ => hran hsetup) (fun hrun => ?_) fun _ => hroute hcloses
      · unfold Pc.serves
        split
        · rfl
        · rfl
        · exact hnext
      · rw [show pc = .run from hrun] at hnext
        cases hnext
  · rcases hnext with rfl | ⟨-, hnext⟩
    · exact Pc.noConfusion ho
    · rw [show pc = .left o from ho] at hnext
      cases hnext

theorem Ok.tearDown (h : conn.Ok) (hpc : conn.pc.serves = true) (hcloses : conn.pc ≠ .closeAll) :
    conn.tearDown.Ok := h.goes hpc hcloses (.inl rfl)

/-- `run` begins. -/
theorem Ok.runs (h : conn.Ok) (hpc : conn.pc = .ready) : { conn with pc := .run, ran := true }.Ok := by
  obtain ⟨hserves, -, -, hroute⟩ := h.serves (by rw [hpc]; rfl)
  have hnot : conn.routeCloses = false := hroute (by rw [hpc]; exact Pc.noConfusion)
  exact ⟨.serving rfl { hserves with } Bool.noConfusion (fun _ => rfl) fun _ => hnot, h.reach,
    Bool.noConfusion, h.waits, fun _ => rfl, fun o ho => Pc.noConfusion ho⟩

/-- A step of the session that the route takes by itself. -/
theorem Ok.notes (h : conn.Ok) (hpc : conn.pc.serves = true)
    (hstep : ∀ cfg, conn.session.step cfg a = some s') (hcalls : ∀ k site, a ≠ .call k site)
    (hasks : a ≠ .cancelCloser routeCloser) : { conn with session := s' }.Ok := by
  obtain ⟨hserves, -⟩ := h.serves hpc
  obtain ⟨tenant, htenant⟩ := Option.isSome_iff_exists.mp hserves.bridge
  exact h.step htenant (hstep tenant.cfg) (fun _ => hcalls) hasks

theorem Ok.noteCloseReason {reason : CloseReason} (h : conn.Ok) (hpc : conn.pc.serves = true)
    (hreason : reason ≠ .revoked) : (conn.noteCloseReason reason).Ok :=
  h.notes (a := .note reason) hpc (fun _ => if_neg hreason) (fun _ _ => Bridge.Act.noConfusion)
    Bridge.Act.noConfusion

/-- The route's `close_all` is through, and the sender is closed after it. -/
theorem Ok.aclose (h : conn.Ok) (hpc : conn.pc = .closeAll)
    (hdone : closerDone conn conn.routeCloses routeCloser = true) : (conn.aclose .draining).Ok := by
  obtain ⟨hserves, -⟩ := h.serves (by rw [hpc]; rfl)
  obtain ⟨hroute, hidle⟩ := Bool.and_eq_true_iff.mp hdone
  have hclosed := (h.waits hroute).closed (beq_iff_eq.mp hidle)
  have hsender := h.notes (a := .senderCloses) (by rw [hpc]; rfl) (fun _ => rfl)
    (fun _ _ => Bridge.Act.noConfusion) Bridge.Act.noConfusion
  refine ⟨.closed rfl { hserves with acloses := congrArg (· + 1) hserves.acloses } hclosed hroute,
    hsender.reach, hsender.uncalled, hsender.waits, h.current, fun o ho => Pc.noConfusion ho⟩

/-- After the sender is closed, the socket is. -/
theorem Ok.hangUp (h : conn.Ok) (hpc : conn.pc = .draining) : (conn.close 1000 .hangUp).Ok := by
  obtain ⟨hserves, hclosed, hroute⟩ := h.drains hpc
  exact ⟨.closed rfl { hserves with } hclosed hroute, h.reach, h.uncalled, h.waits, h.current,
    fun o ho => Pc.noConfusion ho⟩

/-- A session that was built by half: its sender is closed, and then the socket. -/
theorem Ok.abortSocket (h : conn.Ok) (hpc : conn.pc = .abortSender) :
    (conn.close 1011 .abortSocket).Ok := by
  refine ⟨?_, h.reach, h.uncalled, h.waits, h.current, fun o ho => Pc.noConfusion ho⟩
  cases h.stage with
  | aborted hcase =>
    have hcloses : conn.closes ++ [1011] = [1011] := by
      rcases hcase with ⟨-, hcloses⟩ | ⟨hcase, -⟩
      · rw [hcloses]
        rfl
      · simp [hpc, Pc.isLeft] at hcase
    exact .aborted (.inr ⟨.inl rfl, hcloses⟩) ‹_› ‹_› ‹_› ‹_› ‹_› ‹_› ‹_› ‹_›
  | early hcase | rejected hcase | gone hcase | serving hcase | closed hcase =>
    simp [hpc, Pc.early, Pc.isLeft, Pc.serves, Pc.setup, Pc.ends] at hcase

/-- The thread of `get_session` has read the row. -/
theorem Ok.early (h : conn.Ok) {pc : Pc} (hpc : conn.pc.early = true) (hnext : pc.early = true) :
    { conn with pc := pc }.Ok := by
  obtain ⟨hblank, hrejected, hcloses⟩ := h.blank hpc
  refine ⟨.early hnext { hblank with } hrejected hcloses, h.reach, h.uncalled, h.waits, h.current,
    fun o ho => ?_⟩
  rw [show pc = .left o from ho] at hnext
  cases hnext

/-- `run`, or the route itself, comes to its `close_all`. -/
theorem Ok.runCloses (h : conn.Ok) (closes : Bool) : { conn with runCloses := closes }.Ok := by
  refine ⟨?_, h.reach, h.uncalled, h.waits, h.current, h.outcome⟩
  cases h.stage with
  | early hpc blank => exact .early hpc { blank with } ‹_› ‹_›
  | rejected hpc blank => exact .rejected hpc { blank with } ‹_› ‹_›
  | gone hpc blank => exact .gone hpc { blank with } ‹_› ‹_›
  | aborted hpc => exact .aborted hpc ‹_› ‹_› ‹_› ‹_› ‹_› ‹_› ‹_› ‹_›
  | serving hpc serves hran hrun hroute => exact .serving hpc { serves with } hran hrun hroute
  | closed hpc serves hclosed hroute => exact .closed hpc { serves with } hclosed hroute

theorem Ok.begins (h : conn.Ok) (hpc : conn.pc = .closeAll)
    (hcall : conn.session.call routeCloser .route = some s') :
    { conn with routeCloses := true, session := s' }.Ok := by
  obtain ⟨hserves, -⟩ := h.serves (by rw [hpc]; rfl)
  obtain ⟨tenant, htenant⟩ := Option.isSome_iff_exists.mp hserves.bridge
  have hwaits := call_waits (h.session htenant) rfl hcall
  refine ⟨.serving ?_ { hserves with } ?_ ?_ fun hne => absurd hpc hne, fun tenant' htenant' => ?_,
    fun _ => Bool.noConfusion, fun _ => hwaits, h.current, h.outcome⟩
  · exact (congrArg Pc.serves hpc).trans rfl
  · exact fun hsetup => Bool.noConfusion (hsetup.symm.trans (congrArg Pc.setup hpc))
  · exact fun hrun => Pc.noConfusion (hpc.symm.trans hrun)
  · obtain rfl : tenant = tenant' := Option.some.inj (htenant.symm.trans htenant')
    exact .next (a := .call routeCloser .route) (h.reach tenant htenant) trivial hcall

-- ---------------------------------------------------------------------------
-- The handshake
-- ---------------------------------------------------------------------------

/-- It rejects the connection, or neither counts nor closes anything. -/
def Decided (reply : ClientHandshake.Reply) : Prop :=
  reply.Rejected ∨ reply.rejected = [] ∧ reply.closes = []

theorem decided_reject (label reason : String) : Decided (ClientHandshake.reject label reason) :=
  .inl ⟨label, reason, rfl⟩

theorem decided_handle (e : ClientHandshake.Exc) : Decided (ClientHandshake.handle e) := by
  unfold ClientHandshake.handle
  split
  case h_5 | h_6 => exact .inr ⟨rfl, rfl⟩
  all_goals exact decided_reject _ _

theorem decided_gatewayWebsocket (env : ClientHandshake.Env) (first : ClientHandshake.First) :
    Decided (ClientHandshake.gatewayWebsocket env first) := by
  unfold ClientHandshake.gatewayWebsocket
  split
  · exact decided_handle _
  · split
    · exact decided_reject _ _
    · split
      · exact decided_handle _
      · split
        · exact decided_handle _
        · exact .inr ⟨rfl, rfl⟩

/-- A reply to the handshake makes nothing. -/
theorem replied_same (conn : Conn) (reply : ClientHandshake.Reply) :
    ∃ closes pc raising, conn.replied reply = { conn with
      rejected := conn.rejected ++ reply.rejected, closes := closes, pc := pc, raising := raising } ∧
        ∀ handshake found, pc = .resolving handshake found →
          found = none ∧ reply.result = .ok (some handshake) := by
  unfold Conn.replied
  dsimp only
  split
  · exact ⟨_, _, _, rfl, fun _ _ => Pc.noConfusion⟩
  · rename_i hresult
    refine ⟨_, _, _, rfl, fun _ _ heq => ?_⟩
    cases heq
    exact ⟨rfl, hresult⟩
  · split
    · exact ⟨_, _, _, rfl, fun _ _ => Pc.noConfusion⟩
    · exact ⟨_, _, _, rfl, fun _ _ => Pc.noConfusion⟩

theorem Ok.replied {reply : ClientHandshake.Reply} (h : conn.Ok) (hpc : conn.pc.early = true)
    (hreply : Decided reply) : (conn.replied reply).Ok := by
  obtain ⟨hblank, hrejected, hcloses⟩ := h.blank hpc
  have hleft : conn.pc.isLeft = false ∧ conn.pc.serves = false ∧ conn.pc ≠ .abortSender := by
    cases heq : conn.pc with
    | idle | handshake | resolving => exact ⟨rfl, rfl, Pc.noConfusion⟩
    | _ =>
      rw [heq] at hpc
      cases hpc
  rcases hreply with ⟨label, reason, rfl⟩ | ⟨hnone, hopen⟩
  · refine ⟨.rejected (.inl rfl) { hblank with } ?_ ?_, h.reach, h.uncalled, h.waits, h.current,
      fun o ho => Pc.noConfusion ho⟩
    · exact (congrArg List.length (congrArg (· ++ [label]) hrejected)).trans rfl
    · exact (congrArg (· ++ [1008]) hcloses).trans rfl
  · have hsame : { conn with
        rejected := conn.rejected ++ reply.rejected
        closes := conn.closes ++ reply.closes.map Prod.fst } = conn := by
      rw [hnone, hopen, List.map_nil, List.append_nil, List.append_nil]
    unfold Conn.replied
    rw [hsame]
    dsimp only
    split
    · exact (h.flags hleft.1 _ _).leave hleft.2.1 hleft.2.2
    · exact h.early hpc rfl
    · split
      · exact h.leave hleft.2.1 hleft.2.2
      · rename_i hclosed
        rw [hopen] at hclosed
        exact absurd rfl hclosed

/-- A bridge is made, and the connection goes on with the setup. -/
theorem Ok.built (h : conn.Ok) (hpc : conn.pc.early = true) {pc : Pc} (hnext : pc.setup = true) :
    { conn with bridge := some tenant, sender := true, counted := true, pc := pc }.Ok := by
  obtain ⟨hblank, hrejected, -⟩ := h.blank hpc
  refine ⟨.serving ?_ ⟨rfl, rfl, hblank.acloses, hrejected, rfl⟩ (fun _ => hblank.ran) (fun hrun => ?_)
    fun _ => hblank.routeCloses, fun tenant' _ => ?_, h.uncalled, h.waits, h.current, fun o ho => ?_⟩
  · unfold Pc.serves
    split
    · rfl
    · rfl
    · exact hnext
  · rw [show pc = .run from hrun] at hnext
    cases hnext
  · rw [show conn.session = {} from hblank.session]
    exact .start
  · rw [show pc = .left o from ho] at hnext
    cases hnext

/-- The construction raises: the sender is closed again. -/
theorem Ok.abortSender (h : conn.Ok) (hpc : conn.pc.early = true) {counted : Bool}
    {record : Option Bridge.SessionStatus} :
    ({ conn with sender := true, counted := counted, record := record }.recordError.aclose
      .abortSender).Ok := by
  obtain ⟨hblank, hrejected, hcloses⟩ := h.blank hpc
  refine ⟨.aborted (.inl ⟨rfl, hcloses⟩) hblank.bridge rfl (congrArg (· + 1) hblank.acloses) hrejected ?_
    hblank.ran hblank.routeCloses hblank.current, fun tenant htenant => ?_, fun _ _ => ?_, fun hroute => ?_,
    h.current, fun o ho => Pc.noConfusion ho⟩
  · show record.map (fun _ => Bridge.SessionStatus.error) ≠ some .active
    intro hactive
    obtain ⟨status, -, herror⟩ := Option.map_eq_some_iff.mp hactive
    cases herror
  · exact absurd (hblank.bridge.symm.trans htenant) (Option.some_ne_none tenant).symm
  · exact h.uncalled hblank.ran hblank.routeCloses
  · exact Bool.noConfusion (hblank.routeCloses.symm.trans hroute)

end Conn

-- ---------------------------------------------------------------------------
-- What a step of the gateway does
-- ---------------------------------------------------------------------------

variable {env : Env} {g g' : Gateway} {c : ConnRef} {act : Act}

/-- The route goes on by itself: nothing that is shared or counted changes. -/
structure Quiet (g : Gateway) (conn conn' : Conn) : Prop where
  bridge : conn'.bridge = conn.bridge
  counted : conn'.counted = conn.counted
  rejected : conn'.rejected = conn.rejected
  closers : conn'.session.closers = conn.session.closers
  close : ∃ reason, reason ≠ some CloseReason.revoked ∧ conn'.session.close =
    { conn.session.close with reason := conn.session.close.reason.or reason }
  resolving : ∀ handshake found, conn'.pc = .resolving handshake found →
    conn.pc = .resolving handshake found ∨
      conn.pc = .resolving handshake none ∧ found = some (g.db.lookup handshake.clientKey)
  current : ∀ found, conn'.current = some found → conn.current = some found ∨
    ∃ tenant, conn.bridge = some tenant ∧ found = g.db.lookup tenant.client.clientKey

/-- The connection but for its session and for where the route is. -/
structure Conn.Same (conn conn' : Conn) : Prop where
  bridge : conn'.bridge = conn.bridge
  counted : conn'.counted = conn.counted
  rejected : conn'.rejected = conn.rejected
  session : conn'.session = conn.session
  pc : conn'.pc = conn.pc
  current : ∀ found, conn'.current = some found → conn.current = some found

/-- What action `act` does to the gateway. -/
inductive Change (env : Env) (g : Gateway) (act : Act) : Gateway → Prop where
  /-- a push for no client that is there -/
  | drops : Change env g act g
  | admin (request : Admin.Request) :
    Change env g act { g with db := (g.db.handle env.blank request).1 }
  | accept : Change env g act
    ({ g with count := g.count + 1 }.setConn g.count { g.conns g.count with pc := .handshake })
  | quiet (c : ConnRef) (conn' : Conn) (hlive : (g.conns c).pc ≠ .idle) (hok : conn'.Ok)
      (hquiet : Quiet g (g.conns c) conn') : Change env g act (g.setConn c conn')
  | replies (c : ConnRef) (reply : ClientHandshake.Reply) (hlive : (g.conns c).pc ≠ .idle)
      (hpc : (g.conns c).pc.early = true) (hreply : Conn.Decided reply)
      (hheard : ∀ handshake, reply.result = .ok (some handshake) → ∃ first,
        act = .route c (.received first) ∧ reply = ClientHandshake.gatewayWebsocket env.handshake first) :
    Change env g act (g.reply c reply)
  /-- the construction raises, before the session is counted or after -/
  | aborts (c : ConnRef) (counts : Bool) (record : Option Bridge.SessionStatus)
      (hlive : (g.conns c).pc ≠ .idle) (hpc : (g.conns c).pc.early = true) :
    Change env g act ({ g with
      stats.sessionsOpened := g.stats.sessionsOpened + counts.toNat }.setConn c
        ({ g.conns c with
          sender := true, counted := counts || (g.conns c).counted, record := record
          }.recordError.aclose .abortSender))
  /-- the session of `c` is built; one without a transcriber registers at once -/
  | builds (c : ConnRef) (handshake : ClientHandshake.Handshake) (client : ClientRecord)
      (config : ClientConfig) (gatewayInfo : Option Admin.GatewayInfo) (agent : PyStr) (waits : Bool)
      (hpc : (g.conns c).pc = .resolving handshake (some (.ok (client, config))))
      (hagent : resolveAgent handshake.agent (some config) gatewayInfo = .ok agent) :
    Change env g act ({ g with
      stats.sessionsOpened := g.stats.sessionsOpened + 1
      clients := if waits then g.clients else g.clients.register client.id c
      registrations := if waits then g.registrations else g.registrations ++ [c] }.setConn c
        { g.conns c with
          bridge := some (tenant env handshake client agent), sender := true, counted := true
          pc := if waits then .connecting else .healthCheck })
  | registers (c : ConnRef) (tenant : Tenant) (hpc : (g.conns c).pc = .connecting)
      (hbridge : (g.conns c).bridge = some tenant) : Change env g act (g.registers c tenant)
  | session (c : ConnRef) (conn₀ : Conn) (tenant : Tenant) (a : Bridge.Act) (s' : Session)
      (hbridge : (g.conns c).bridge = some tenant) (hsame : (g.conns c).Same conn₀)
      (hstep : (g.conns c).session.step tenant.cfg a = some s') (hok : { conn₀ with session := s' }.Ok)
      (hrevokes : ∀ k, a = .call k .revocation → ∃ found, (g.conns c).current = some found ∧
        refuses tenant.client.id found = true) :
    Change env g act ({ g with
      clients := if unregisters (g.conns c).session s' then g.clients.unregister tenant.client.id c
        else g.clients
      stats.sessionsClosed := g.stats.sessionsClosed ++
        s'.close.sessionsClosed.drop (g.conns c).session.close.sessionsClosed.length }.setConn c
          { conn₀ with session := s' })

/-- Every connection is as it keeps to be, and those to come have not begun. -/
structure Inv (g : Gateway) : Prop where
  conns : ∀ c, (g.conns c).Ok
  fresh : ∀ c, g.count ≤ c → (g.conns c).pc = .idle
  clients : ∀ clientId c, g.clients.get clientId = some c → g.clientId c = some clientId

theorem setSession_eq {conn₀ : Conn} {tenant : Tenant} {s' : Session}
    (hbridge : (g.conns c).bridge = some tenant) (hsame : (g.conns c).Same conn₀) :
    (g.setConn c conn₀).setSession c s' = { g with
      clients := if unregisters (g.conns c).session s' then g.clients.unregister tenant.client.id c
        else g.clients
      stats.sessionsClosed := g.stats.sessionsClosed ++
        s'.close.sessionsClosed.drop (g.conns c).session.close.sessionsClosed.length }.setConn c
          { conn₀ with session := s' } := by
  have hself : (g.setConn c conn₀).conns c = conn₀ := Function.update_self _ _ _
  have htenant : conn₀.bridge = some tenant := hsame.bridge.trans hbridge
  simp only [setSession, hself, htenant, hsame.session]
  simp only [setConn, Function.update_idem]

theorem setConn_self (g : Gateway) (c : ConnRef) : g.setConn c (g.conns c) = g := by
  simp only [setConn, Function.update_eq_self]

/-- A step of the session, with what it does to what is shared. -/
theorem Change.of_session {conn₀ : Conn} {tenant : Tenant} {a : Bridge.Act} {s' : Session}
    (hbridge : (g.conns c).bridge = some tenant) (hsame : (g.conns c).Same conn₀)
    (hstep : (g.conns c).session.step tenant.cfg a = some s') (hok : { conn₀ with session := s' }.Ok)
    (hrevokes : ∀ k, a = .call k .revocation → ∃ found, (g.conns c).current = some found ∧
      refuses tenant.client.id found = true) : Change env g act ((g.setConn c conn₀).setSession c s') := by
  rw [setSession_eq hbridge hsame]
  exact .session c conn₀ tenant a s' hbridge hsame hstep hok hrevokes

theorem Inv.lt_count (h : g.Inv) (hlive : (g.conns c).pc ≠ .idle) : c < g.count :=
  Nat.lt_of_not_le fun hle => hlive (h.fresh c hle)

-- ---------------------------------------------------------------------------
-- Quiet steps
-- ---------------------------------------------------------------------------

variable {conn conn' : Conn}

theorem Quiet.goes (hbridge : conn'.bridge = conn.bridge) (hcounted : conn'.counted = conn.counted)
    (hrejected : conn'.rejected = conn.rejected) (hcurrent : conn'.current = conn.current)
    (hcloses : ∃ reason, reason ≠ some CloseReason.revoked ∧
      conn'.session.closers = conn.session.closers ∧ conn'.session.close =
        { conn.session.close with reason := conn.session.close.reason.or reason })
    (hpc : ∀ handshake found, conn'.pc ≠ .resolving handshake found) : Quiet g conn conn' := by
  obtain ⟨reason, hreason, hclosers, hclose⟩ := hcloses
  exact ⟨hbridge, hcounted, hrejected, hclosers, ⟨reason, hreason, hclose⟩,
    fun handshake found heq => absurd heq (hpc handshake found), fun found hfound => .inl (hcurrent ▸ hfound)⟩

/-- The session is as it was. -/
theorem same_close (s : Session) : ∃ reason, reason ≠ some CloseReason.revoked ∧
    s.closers = s.closers ∧ s.close = { s.close with reason := s.close.reason.or reason } :=
  ⟨none, Option.some_ne_none _ |>.symm, rfl, by rw [Option.or_none]⟩

theorem noted_close (s : Session) {reason : CloseReason} (hreason : reason ≠ .revoked) :
    ∃ r, r ≠ some CloseReason.revoked ∧ (s.noteCloseReason (some reason)).closers = s.closers ∧
      (s.noteCloseReason (some reason)).close = { s.close with reason := s.close.reason.or r } :=
  ⟨some reason, fun heq => hreason (Option.some.inj heq), rfl, rfl⟩

/-- The route moves on, with the same session. -/
theorem quiet_moves {pc : Pc} {closes : List Nat} {cancelling raising ran : Bool}
    (hpc : ∀ handshake found, pc ≠ .resolving handshake found) :
    Quiet g conn { conn with
      pc := pc, closes := closes, cancelling := cancelling, raising := raising, ran := ran } :=
  .goes rfl rfl rfl rfl (same_close _) hpc

/-- The route notes why the session closes, and moves on. -/
theorem quiet_notes {reason : CloseReason} {pc : Pc} {closes : List Nat} (hreason : reason ≠ .revoked)
    (hpc : ∀ handshake found, pc ≠ .resolving handshake found) :
    Quiet g conn { conn.noteCloseReason reason with pc := pc, closes := closes } :=
  .goes rfl rfl rfl rfl (noted_close _ hreason) hpc

theorem not_resolving_of_pc {pc : Pc} (hpc : pc.early = false) :
    ∀ handshake found, pc ≠ .resolving handshake found := by
  rintro handshake found rfl
  cases hpc

/-- The cancellation of a route within a `Teardown` is noted. -/
theorem quiet_cancelled (hpc : conn.pc.early = false) : Quiet g conn conn.cancelled :=
  .goes rfl rfl rfl rfl (same_close _) (not_resolving_of_pc hpc)

-- ---------------------------------------------------------------------------
-- The steps of the route
-- ---------------------------------------------------------------------------

theorem build_change {handshake : ClientHandshake.Handshake} {client : ClientRecord}
    {config : ClientConfig} {gatewayInfo : Option Admin.GatewayInfo} {agent : PyStr} (b : Build)
    (hpc : (g.conns c).pc = .resolving handshake (some (.ok (client, config))))
    (hagent : resolveAgent handshake.agent (some config) gatewayInfo = .ok agent) :
    Change env g act (g.build env c handshake client agent b) := by
  have hlive : (g.conns c).pc ≠ .idle := by
    rw [hpc]
    exact Pc.noConfusion
  have hearly : (g.conns c).pc.early = true := by
    rw [hpc]
    rfl
  cases b with
  | done =>
    have hbuilds : Change env g act _ := .builds c handshake client config gatewayInfo agent
      (tenant env handshake client agent).cfg.hasTranscriber hpc hagent
    simp only [build]
    split
    · rename_i hwaits
      simp only [hwaits, if_true] at hbuilds
      exact hbuilds
    · rename_i hwaits
      simp only [hwaits, Bool.false_eq_true, if_false] at hbuilds
      simp only [registers, setConn, Function.update_self, Function.update_idem]
      exact hbuilds
  | tracker => exact .aborts c false (g.conns c).record hlive hearly
  | bridge => exact .aborts c true (some .active) hlive hearly

theorem resolved_change {handshake : ClientHandshake.Handshake} {gatewayInfo : Option Admin.GatewayInfo}
    {b : Build} {found : Lookup} (h : (g.conns c).Ok)
    (hpc : (g.conns c).pc = .resolving handshake (some found)) :
    Change env g act (g.resolved env c handshake gatewayInfo b found) := by
  have hlive : (g.conns c).pc ≠ .idle := by
    rw [hpc]
    exact Pc.noConfusion
  have hearly : (g.conns c).pc.early = true := by
    rw [hpc]
    rfl
  have hleaves : Change env g act (g.setConn c (g.conns c).raised.leave) := by
    refine .quiet c _ hlive ?_ (quiet_moves fun _ _ => Pc.noConfusion)
    refine (h.flags ?_ _ _).leave ?_ ?_
    · rw [hpc]
      rfl
    · exact (congrArg Pc.serves hpc).trans rfl
    · exact fun heq => Pc.noConfusion (hpc.symm.trans heq)
  unfold resolved
  split
  · exact hleaves
  · exact .replies c _ hlive hearly (Conn.decided_reject _ _) fun _ heq => by cases heq
  · split
    · exact .replies c _ hlive hearly (Conn.decided_reject _ _) fun _ heq => by cases heq
    · rename_i hagent
      exact build_change b hpc hagent

theorem cancelRun_step (tenant : Tenant) (conn : Conn) :
    ∃ a, cancelRun conn = conn.session.step tenant.cfg a ∧ (∀ k, a ≠ .call k .revocation) ∧
      a ≠ .cancelCloser routeCloser := by
  unfold cancelRun
  split
  · refine ⟨.cancelCloser runCloser, rfl, fun _ => Bridge.Act.noConfusion, fun heq => ?_⟩
    cases heq
  · refine ⟨.call runCloser (.run .cancelled), rfl, fun k heq => ?_, Bridge.Act.noConfusion⟩
    cases heq

theorem runEnds_step (tenant : Tenant) (conn : Conn) {e : RunEnd} {s' : Session}
    (h : runEnds conn e = some s') :
    conn.session.step tenant.cfg (.call runCloser (.run e)) = some s' := by
  unfold runEnds at h
  split at h
  · cases h
  · exact h

theorem goes_change (hlive : (g.conns c).pc ≠ .idle) (hok : conn'.Ok)
    (hquiet : Quiet g (g.conns c) conn') (hstep : g.goes c conn' = some g') : Change env g act g' :=
  Option.some.inj hstep ▸ .quiet c conn' hlive hok hquiet

theorem Pc.of_early {pc : Pc} (h : pc.early = true) :
    pc.isLeft = false ∧ pc.serves = false ∧ pc ≠ .abortSender := by
  cases pc with
  | idle | handshake | resolving => exact ⟨rfl, rfl, Pc.noConfusion⟩
  | _ => cases h

theorem Pc.of_serves {pc : Pc} (h : pc.serves = true) : pc.isLeft = false ∧ pc ≠ .idle := by
  cases pc with
  | connecting | refusing | healthCheck | flushing | ready | run | closeAll =>
    exact ⟨rfl, Pc.noConfusion⟩
  | _ => cases h

variable {cancelling raising : Bool}

/-- The endpoint is left. -/
theorem leaves_change (h : (g.conns c).Ok) (hlive : (g.conns c).pc ≠ .idle)
    (hleft : (g.conns c).pc.isLeft = false) (hserves : (g.conns c).pc.serves = false)
    (hsender : (g.conns c).pc ≠ .abortSender)
    (hstep : g.goes c { g.conns c with cancelling := cancelling, raising := raising }.leave = some g') :
    Change env g act g' :=
  goes_change hlive ((h.flags hleft cancelling raising).leave hserves hsender)
    (quiet_moves fun _ _ => Pc.noConfusion) hstep

/-- The endpoint comes to its `finally`. -/
theorem tearDown_change (h : (g.conns c).Ok) (hserves : (g.conns c).pc.serves = true)
    (hopen : (g.conns c).pc ≠ .closeAll)
    (hstep : g.goes c { g.conns c with cancelling := cancelling, raising := raising }.tearDown = some g') :
    Change env g act g' := by
  obtain ⟨hleft, hlive⟩ := Pc.of_serves hserves
  exact goes_change hlive ((h.flags hleft cancelling raising).tearDown hserves hopen)
    (quiet_moves fun _ _ => Pc.noConfusion) hstep

/-- It notes why, first. -/
theorem notes_change {reason : CloseReason} (h : (g.conns c).Ok)
    (hserves : (g.conns c).pc.serves = true) (hopen : (g.conns c).pc ≠ .closeAll)
    (hreason : reason ≠ .revoked)
    (hstep : g.goes c ((g.conns c).noteCloseReason reason).tearDown = some g') : Change env g act g' := by
  obtain ⟨-, hlive⟩ := Pc.of_serves hserves
  exact goes_change hlive ((h.noteCloseReason hserves hreason).tearDown hserves hopen)
    (quiet_notes hreason fun _ _ => Pc.noConfusion) hstep

/-- The route is cancelled within a `Teardown`, and waits on. -/
theorem noted_change (h : (g.conns c).Ok) (hlive : (g.conns c).pc ≠ .idle)
    (hleft : (g.conns c).pc.isLeft = false) (hearly : (g.conns c).pc.early = false)
    (hstep : g.goes c (g.conns c).cancelled = some g') : Change env g act g' :=
  goes_change hlive (h.flags hleft true (g.conns c).raising) (quiet_cancelled hearly) hstep

/-- The setup goes on, or is given up. -/
theorem setup_change {pc : Pc} {closes : List Nat} (h : (g.conns c).Ok)
    (hsetup : (g.conns c).pc.setup = true) (hnext : pc.setup = true)
    (hstep : g.goes c { g.conns c with pc := pc, closes := closes } = some g') : Change env g act g' := by
  have hserves : (g.conns c).pc.serves = true ∧ (g.conns c).pc ≠ .closeAll := by
    cases hpc : (g.conns c).pc with
    | connecting | refusing | healthCheck | flushing | ready => exact ⟨rfl, Pc.noConfusion⟩
    | _ =>
      rw [hpc] at hsetup
      cases hsetup
  obtain ⟨-, hlive⟩ := Pc.of_serves hserves.1
  refine goes_change hlive (h.goes hserves.1 hserves.2 (.inr ⟨hsetup, hnext⟩)) ?_ hstep
  refine quiet_moves (not_resolving_of_pc ?_)
  cases pc with
  | connecting | refusing | healthCheck | flushing | ready => rfl
  | _ => cases hnext

variable {a : RouteAct}

theorem awaitHandshake_change (h : (g.conns c).Ok) (hpc : (g.conns c).pc = .handshake)
    (hstep : g.awaitHandshake env c a = some g') : Change env g (.route c a) g' := by
  have hlive : (g.conns c).pc ≠ .idle := hpc ▸ Pc.noConfusion
  have hearly : (g.conns c).pc.early = true := (congrArg Pc.early hpc).trans rfl
  obtain ⟨hleft, hserves, hsender⟩ := Pc.of_early hearly
  cases a with
  | received first =>
    cases hstep
    exact .replies c _ hlive hearly (Conn.decided_gatewayWebsocket _ _) fun _ _ => ⟨first, rfl, rfl⟩
  | cancelled => exact leaves_change h hlive hleft hserves hsender hstep
  | _ => cases hstep

theorem awaitRejection_change (h : (g.conns c).Ok) (hpc : (g.conns c).pc = .rejecting)
    (hstep : g.awaitRejection c a = some g') : Change env g act g' := by
  have hlive : (g.conns c).pc ≠ .idle := hpc ▸ Pc.noConfusion
  have hleft : (g.conns c).pc.isLeft = false := (congrArg Pc.isLeft hpc).trans rfl
  have hserves : (g.conns c).pc.serves = false := (congrArg Pc.serves hpc).trans rfl
  have hsender : (g.conns c).pc ≠ .abortSender := hpc ▸ Pc.noConfusion
  cases a with
  | returns | raises | cancelled => exact leaves_change h hlive hleft hserves hsender hstep
  | _ => cases hstep

theorem awaitClient_change {handshake : ClientHandshake.Handshake} {found : Option Lookup}
    (h : (g.conns c).Ok) (hpc : (g.conns c).pc = .resolving handshake found)
    (hstep : g.awaitClient env c handshake found a = some g') : Change env g act g' := by
  have hlive : (g.conns c).pc ≠ .idle := hpc ▸ Pc.noConfusion
  have hearly : (g.conns c).pc.early = true := (congrArg Pc.early hpc).trans rfl
  obtain ⟨hleft, hserves, hsender⟩ := Pc.of_early hearly
  cases a with
  | reads =>
    simp only [awaitClient] at hstep
    split at hstep
    · cases hstep
    · rename_i hunread
      obtain rfl : found = none := Option.not_isSome_iff_eq_none.mp hunread
      refine goes_change hlive (h.early hearly rfl) ?_ hstep
      refine ⟨rfl, rfl, rfl, rfl, (same_close _).imp fun _ hreason => ⟨hreason.1, hreason.2.2⟩, ?_,
        fun _ => .inl⟩
      intro handshake' found' heq
      cases heq
      exact .inr ⟨hpc, rfl⟩
  | resolved gatewayInfo b =>
    obtain ⟨found, rfl, rfl⟩ := Option.map_eq_some_iff.mp hstep
    exact resolved_change h hpc
  | raises =>
    simp only [awaitClient] at hstep
    split at hstep
    · cases hstep
    · exact leaves_change h hlive hleft hserves hsender hstep
  | cancelled => exact leaves_change h hlive hleft hserves hsender hstep
  | _ => cases hstep

theorem awaitAbortSender_change (h : (g.conns c).Ok) (hpc : (g.conns c).pc = .abortSender)
    (hstep : g.awaitAbortSender c a = some g') : Change env g act g' := by
  have hlive : (g.conns c).pc ≠ .idle := hpc ▸ Pc.noConfusion
  cases a with
  | returns =>
    exact goes_change hlive (h.abortSocket hpc) (quiet_moves fun _ _ => Pc.noConfusion) hstep
  | cancelled =>
    exact noted_change h hlive ((congrArg Pc.isLeft hpc).trans rfl)
      ((congrArg Pc.early hpc).trans rfl) hstep
  | _ => cases hstep

theorem awaitLast_change (h : (g.conns c).Ok)
    (hpc : (g.conns c).pc = .abortSocket ∨ (g.conns c).pc = .hangUp)
    (hstep : g.awaitLast c a = some g') : Change env g act g' := by
  have hat : (g.conns c).pc ≠ .idle ∧ (g.conns c).pc.isLeft = false ∧
      (g.conns c).pc.serves = false ∧ (g.conns c).pc ≠ .abortSender ∧
        (g.conns c).pc.early = false := by
    rcases hpc with hpc | hpc
    all_goals
      rw [hpc]
      exact ⟨Pc.noConfusion, rfl, rfl, Pc.noConfusion, rfl⟩
  obtain ⟨hlive, hleft, hserves, hsender, hearly⟩ := hat
  cases a with
  | returns => exact leaves_change h hlive hleft hserves hsender hstep
  | cancelled => exact noted_change h hlive hleft hearly hstep
  | _ => cases hstep

theorem awaitConnect_change (h : (g.conns c).Ok) (hpc : (g.conns c).pc = .connecting)
    (hstep : g.awaitConnect c a = some g') : Change env g act g' := by
  have hsetup : (g.conns c).pc.setup = true := (congrArg Pc.setup hpc).trans rfl
  have hserves : (g.conns c).pc.serves = true := (congrArg Pc.serves hpc).trans rfl
  cases a with
  | returns =>
    obtain ⟨tenant, htenant, rfl⟩ := Option.map_eq_some_iff.mp hstep
    exact .registers c tenant hpc htenant
  | raises => exact setup_change h hsetup rfl hstep
  | cancelled => exact tearDown_change h hserves (hpc ▸ Pc.noConfusion) hstep
  | _ => cases hstep

theorem awaitRefusal_change (h : (g.conns c).Ok) (hpc : (g.conns c).pc = .refusing)
    (hstep : g.awaitRefusal c a = some g') : Change env g act g' := by
  have hserves : (g.conns c).pc.serves = true := (congrArg Pc.serves hpc).trans rfl
  cases a with
  | returns | raises | cancelled =>
    exact tearDown_change h hserves (hpc ▸ Pc.noConfusion) hstep
  | _ => cases hstep

theorem awaitHealth_change (h : (g.conns c).Ok) (hpc : (g.conns c).pc = .healthCheck)
    (hstep : g.awaitHealth c a = some g') : Change env g act g' := by
  have hlive : (g.conns c).pc ≠ .idle := hpc ▸ Pc.noConfusion
  have hsetup : (g.conns c).pc.setup = true := (congrArg Pc.setup hpc).trans rfl
  have hserves : (g.conns c).pc.serves = true := (congrArg Pc.serves hpc).trans rfl
  have hopen : (g.conns c).pc ≠ .closeAll := hpc ▸ Pc.noConfusion
  cases a with
  | returns =>
    simp only [awaitHealth, sendReady] at hstep
    split at hstep
    · exact setup_change h hsetup rfl hstep
    · exact notes_change h hserves hopen CloseReason.noConfusion hstep
  | unavailable =>
    have hnoted : ((g.conns c).noteCloseReason .error).Ok :=
      h.noteCloseReason hserves CloseReason.noConfusion
    simp only [awaitHealth, refuse] at hstep
    split at hstep
    · exact goes_change hlive (hnoted.goes hserves hopen (.inr ⟨hsetup, rfl⟩))
        (quiet_notes CloseReason.noConfusion fun _ _ => Pc.noConfusion) hstep
    · exact goes_change hlive (hnoted.goes hserves hopen (.inr ⟨hsetup, rfl⟩))
        (quiet_notes CloseReason.noConfusion fun _ _ => Pc.noConfusion) hstep
  | clientGone => exact notes_change h hserves hopen CloseReason.noConfusion hstep
  | raises | cancelled => exact tearDown_change h hserves hopen hstep
  | _ => cases hstep

theorem awaitFlush_change (h : (g.conns c).Ok) (hpc : (g.conns c).pc = .flushing)
    (hstep : g.awaitFlush c a = some g') : Change env g act g' := by
  have hsetup : (g.conns c).pc.setup = true := (congrArg Pc.setup hpc).trans rfl
  have hserves : (g.conns c).pc.serves = true := (congrArg Pc.serves hpc).trans rfl
  cases a with
  | returns | clientGone => exact setup_change h hsetup rfl hstep
  | cancelled => exact tearDown_change h hserves (hpc ▸ Pc.noConfusion) hstep
  | _ => cases hstep

theorem awaitReady_change (h : (g.conns c).Ok) (hpc : (g.conns c).pc = .ready)
    (hstep : g.awaitReady c a = some g') : Change env g act g' := by
  have hlive : (g.conns c).pc ≠ .idle := hpc ▸ Pc.noConfusion
  have hserves : (g.conns c).pc.serves = true := (congrArg Pc.serves hpc).trans rfl
  have hopen : (g.conns c).pc ≠ .closeAll := hpc ▸ Pc.noConfusion
  cases a with
  | returns => exact goes_change hlive (h.runs hpc) (quiet_moves fun _ _ => Pc.noConfusion) hstep
  | clientGone | raises => exact notes_change h hserves hopen CloseReason.noConfusion hstep
  | cancelled => exact tearDown_change h hserves hopen hstep
  | _ => cases hstep

theorem awaitRun_change (h : (g.conns c).Ok) (hpc : (g.conns c).pc = .run)
    (hstep : g.awaitRun c a = some g') : Change env g act g' := by
  have hserves : (g.conns c).pc.serves = true := (congrArg Pc.serves hpc).trans rfl
  have hleft : (g.conns c).pc.isLeft = false := (congrArg Pc.isLeft hpc).trans rfl
  obtain ⟨hbridge, -, hrun, -⟩ := h.serves hserves
  obtain ⟨tenant, htenant⟩ := Option.isSome_iff_exists.mp hbridge.bridge
  have hran : (g.conns c).ran = false → False := fun hnot => Bool.noConfusion ((hrun hpc).symm.trans hnot)
  cases a with
  | runEnds e =>
    obtain ⟨s', hs', rfl⟩ := Option.map_eq_some_iff.mp hstep
    have hcall := runEnds_step tenant (g.conns c) hs'
    have hok := (h.runCloses true).step htenant hcall (fun hnot => (hran hnot).elim)
      Bridge.Act.noConfusion
    exact .of_session htenant ⟨rfl, rfl, rfl, rfl, rfl, fun _ => id⟩ hcall hok
      fun k heq => by cases heq
  | returns =>
    simp only [awaitRun] at hstep
    split at hstep
    · exact tearDown_change h hserves (hpc ▸ Pc.noConfusion) hstep
    · cases hstep
  | cancelled =>
    obtain ⟨s', hs', rfl⟩ := Option.map_eq_some_iff.mp hstep
    obtain ⟨a, ha, hrevokes, hasks⟩ := cancelRun_step tenant (g.conns c)
    have hcall := ha.symm.trans hs'
    have hok := ((h.flags hleft true (g.conns c).raising).runCloses true).step htenant hcall
      (fun hnot => (hran hnot).elim) hasks
    exact .of_session htenant ⟨rfl, rfl, rfl, rfl, rfl, fun _ => id⟩ hcall hok
      fun k heq => absurd heq (hrevokes k)
  | _ => cases hstep

theorem awaitCloseAll_change (h : (g.conns c).Ok) (hpc : (g.conns c).pc = .closeAll)
    (hstep : g.awaitCloseAll c a = some g') : Change env g act g' := by
  have hlive : (g.conns c).pc ≠ .idle := hpc ▸ Pc.noConfusion
  obtain ⟨hbridge, -⟩ := h.serves ((congrArg Pc.serves hpc).trans rfl)
  obtain ⟨tenant, htenant⟩ := Option.isSome_iff_exists.mp hbridge.bridge
  cases a with
  | begins =>
    simp only [awaitCloseAll] at hstep
    split at hstep
    · cases hstep
    · obtain ⟨s', hs', rfl⟩ := Option.map_eq_some_iff.mp hstep
      exact .of_session (a := .call routeCloser .route) htenant ⟨rfl, rfl, rfl, rfl, rfl, fun _ => id⟩
        hs' (h.begins hpc hs') fun k heq => by cases heq
  | returns =>
    simp only [awaitCloseAll] at hstep
    split at hstep
    · rename_i hdone
      exact goes_change hlive (h.aclose hpc hdone)
        (.goes rfl rfl rfl rfl (same_close (g.conns c).session) fun _ _ => Pc.noConfusion) hstep
    · cases hstep
  | cancelled =>
    exact noted_change h hlive ((congrArg Pc.isLeft hpc).trans rfl)
      ((congrArg Pc.early hpc).trans rfl) hstep
  | _ => cases hstep

theorem awaitDrain_change (h : (g.conns c).Ok) (hpc : (g.conns c).pc = .draining)
    (hstep : g.awaitDrain c a = some g') : Change env g act g' := by
  have hlive : (g.conns c).pc ≠ .idle := hpc ▸ Pc.noConfusion
  have hleft : (g.conns c).pc.isLeft = false := (congrArg Pc.isLeft hpc).trans rfl
  cases a with
  | drained disconnected =>
    cases disconnected with
    | true =>
      exact leaves_change h hlive hleft ((congrArg Pc.serves hpc).trans rfl)
        (hpc ▸ Pc.noConfusion) hstep
    | false => exact goes_change hlive (h.hangUp hpc) (quiet_moves fun _ _ => Pc.noConfusion) hstep
  | cancelled => exact noted_change h hlive hleft ((congrArg Pc.early hpc).trans rfl) hstep
  | _ => cases hstep

theorem routeStep_change (h : (g.conns c).Ok) (hstep : g.routeStep env c a = some g') :
    Change env g (.route c a) g' := by
  unfold routeStep at hstep
  split at hstep
  case h_1 | h_2 => cases hstep
  case h_3 hpc => exact awaitHandshake_change h hpc hstep
  case h_4 hpc => exact awaitRejection_change h hpc hstep
  case h_5 hpc => exact awaitClient_change h hpc hstep
  case h_6 hpc => exact awaitAbortSender_change h hpc hstep
  case h_7 hpc => exact awaitConnect_change h hpc hstep
  case h_8 hpc => exact awaitRefusal_change h hpc hstep
  case h_9 hpc => exact awaitHealth_change h hpc hstep
  case h_10 hpc => exact awaitFlush_change h hpc hstep
  case h_11 hpc => exact awaitReady_change h hpc hstep
  case h_12 hpc => exact awaitRun_change h hpc hstep
  case h_13 hpc => exact awaitCloseAll_change h hpc hstep
  case h_14 hpc => exact awaitDrain_change h hpc hstep
  case h_15 hpc => exact awaitLast_change h (.inl hpc) hstep
  case h_16 hpc => exact awaitLast_change h (.inr hpc) hstep

-- ---------------------------------------------------------------------------
-- The steps of the gateway
-- ---------------------------------------------------------------------------

theorem permits_of {conn : Conn} {a : Bridge.Act} (h : conn.permits a = true) :
    (conn.ran = false → ∀ k site, a ≠ .call k site) ∧ a ≠ .cancelCloser routeCloser ∧
      ∀ k, a ≠ .call k .revocation := by
  refine ⟨?_, ?_, ?_⟩
  · rintro hran k site rfl
    simp [Conn.permits, hran] at h
  · rintro rfl
    simp [Conn.permits, routeCloser] at h
  · rintro k rfl
    simp [Conn.permits] at h

theorem Conn.Same.refl (conn : Conn) : conn.Same conn := ⟨rfl, rfl, rfl, rfl, rfl, fun _ => id⟩

/-- The thread of the revalidation reads, or the loop has taken what it read. -/
theorem Conn.Ok.reread {conn : Conn} (h : conn.Ok) {current : Option Lookup}
    (hran : current.isSome = true → conn.bridge.isSome = true ∧ conn.ran = true) :
    { conn with current := current }.Ok := by
  refine ⟨?_, h.reach, h.uncalled, h.waits, fun hcurrent => (hran hcurrent).2, h.outcome⟩
  have hnone : conn.bridge = none → current = none := by
    intro hbridge
    cases hcase : current with
    | none => rfl
    | some found =>
      have hsome := (hran (hcase ▸ rfl)).1
      rw [hbridge] at hsome
      cases hsome
  cases h.stage with
  | early hpc blank => exact .early hpc { blank with current := hnone blank.bridge } ‹_› ‹_›
  | rejected hpc blank => exact .rejected hpc { blank with current := hnone blank.bridge } ‹_› ‹_›
  | gone hpc blank => exact .gone hpc { blank with current := hnone blank.bridge } ‹_› ‹_›
  | aborted hpc hbridge => exact .aborted hpc hbridge ‹_› ‹_› ‹_› ‹_› ‹_› ‹_› (hnone hbridge)
  | serving hpc serves hran hrun hroute => exact .serving hpc { serves with } hran hrun hroute
  | closed hpc serves hclosed hroute => exact .closed hpc { serves with } hclosed hroute

/-- A connection with a bridge has begun. -/
theorem Conn.Ok.live {conn : Conn} {tenant : Tenant} (h : conn.Ok) (hbridge : conn.bridge = some tenant) :
    conn.pc ≠ .idle := by
  intro hidle
  have hblank := (h.blank ((congrArg Pc.early hidle).trans rfl)).1
  rw [hblank.bridge] at hbridge
  cases hbridge

theorem revalidated_change {k : CloserRef} (h : (g.conns c).Ok)
    (hstep : g.revalidated c k = some g') : Change env g act g' := by
  have hok : { g.conns c with current := none }.Ok := h.reread Bool.noConfusion
  have hsame : (g.conns c).Same { g.conns c with current := none } :=
    ⟨rfl, rfl, rfl, rfl, rfl, fun _ heq => by cases heq⟩
  unfold revalidated at hstep
  dsimp only at hstep
  split at hstep
  · rename_i tenant found hbridge hfound
    split at hstep
    · rename_i hrefuses
      split at hstep
      · obtain ⟨s', hs', rfl⟩ := Option.map_eq_some_iff.mp hstep
        have hran : (g.conns c).ran = true := h.current (hfound ▸ rfl)
        have hcalls : (g.conns c).ran = false → ∀ j site, Bridge.Act.call k .revocation ≠ .call j site :=
          fun hnot => Bool.noConfusion (hran.symm.trans hnot)
        exact .of_session (a := .call k .revocation) hbridge hsame hs'
          (hok.step (a := .call k .revocation) hbridge hs' hcalls Bridge.Act.noConfusion)
          fun _ _ => ⟨found, hfound, hrefuses⟩
      · cases hstep
    · refine goes_change (h.live hbridge) hok ?_ hstep
      exact ⟨rfl, rfl, rfl, rfl, (same_close _).imp fun _ hreason => ⟨hreason.1, hreason.2.2⟩,
        fun _ _ => .inl, fun _ heq => by cases heq⟩
  · cases hstep

theorem step_change (h : g.Inv) (hstep : g.step env act = some g') : Change env g act g' := by
  cases act with
  | admin request =>
    cases hstep
    exact .admin request
  | accept =>
    cases hstep
    exact .accept
  | route c a => exact routeStep_change (h.conns c) hstep
  | session c a =>
    simp only [step] at hstep
    split at hstep
    · rename_i tenant hbridge
      split at hstep
      · rename_i hpermits
        obtain ⟨hcalls, hasks, hrevokes⟩ := permits_of hpermits
        obtain ⟨s', hs', rfl⟩ := Option.map_eq_some_iff.mp hstep
        have hchange : Change env g (.session c a) ((g.setConn c (g.conns c)).setSession c s') :=
          .of_session hbridge (.refl _) hs' ((h.conns c).step hbridge hs' hcalls hasks)
            fun k heq => absurd heq (hrevokes k)
        rwa [setConn_self] at hchange
      · cases hstep
    · cases hstep
  | push sk q =>
    simp only [step] at hstep
    split at hstep
    · rename_i c hget
      obtain ⟨tenant, htenant, -⟩ := Option.map_eq_some_iff.mp (h.clients _ c hget)
      cases hstep
      have hchange : Change env g (.push sk q) _ := .of_session (a := .enqueue q) htenant (.refl _) rfl
        ((h.conns c).step (a := .enqueue q) htenant rfl (fun _ _ _ => Bridge.Act.noConfusion)
          Bridge.Act.noConfusion) fun k => Bridge.Act.noConfusion
      rwa [setConn_self] at hchange
    · cases hstep
      exact .drops
  | revalidates c =>
    simp only [step] at hstep
    split at hstep
    · rename_i tenant hbridge
      split at hstep
      · rename_i hran
        obtain ⟨hran, -⟩ := Bool.and_eq_true_iff.mp hran
        cases hstep
        refine .quiet c _ ((h.conns c).live hbridge) ((h.conns c).reread fun _ => ⟨hbridge ▸ rfl, hran⟩) ?_
        exact ⟨rfl, rfl, rfl, rfl, (same_close _).imp fun _ hreason => ⟨hreason.1, hreason.2.2⟩,
          fun _ _ => .inl, fun _ heq => by cases heq; exact .inr ⟨tenant, hbridge, rfl⟩⟩
      · cases hstep
    · cases hstep
  | revalidated c k => exact revalidated_change (h.conns c) hstep

-- ---------------------------------------------------------------------------
-- The client registry
-- ---------------------------------------------------------------------------

theorem get_register (clients : ClientRegistry) (clientId : PyStr) (c : ConnRef) (other : PyStr) :
    (clients.register clientId c).get other = if other = clientId then some c else clients.get other := by
  unfold ClientRegistry.get ClientRegistry.register
  split
  · rename_i heq
    rw [heq, AList.lookup_insert]
  · rename_i hne
    exact AList.lookup_insert_ne hne

/-- A bridge that closes removes its own entry and no other. -/
theorem get_unregister (clients : ClientRegistry) (clientId : PyStr) (c : ConnRef) (other : PyStr) :
    (clients.unregister clientId c).get other =
      if other = clientId ∧ clients.get clientId = some c then none else clients.get other := by
  unfold ClientRegistry.get ClientRegistry.unregister
  by_cases hmine : clients.clients.lookup clientId = some c
  · rw [if_pos hmine]
    split
    · rename_i heq
      rw [heq.1, AList.lookup_erase]
    · rename_i hne
      exact AList.lookup_erase_ne fun heq => hne ⟨heq, hmine⟩
  · rw [if_neg hmine, if_neg fun heq => hmine heq.2]

-- ---------------------------------------------------------------------------
-- The invariant
-- ---------------------------------------------------------------------------

theorem Conn.Ok.init : Conn.Ok {} where
  stage := .early rfl ⟨rfl, rfl, rfl, rfl, rfl, rfl, rfl, rfl, rfl⟩ rfl rfl
  reach := fun _ h => by cases h
  uncalled := fun _ _ => ⟨fun _ => rfl, rfl⟩
  waits := Bool.noConfusion
  current := Bool.noConfusion
  outcome := fun _ => Pc.noConfusion

theorem Inv.init : Inv {} := ⟨fun _ => .init, fun _ _ => rfl, fun _ _ h => by cases h⟩

/-- One connection moves on. -/
theorem Inv.setConn (h : g.Inv) {stats : GatewayStats} {clients : ClientRegistry}
    {registrations : List ConnRef} (hlive : (g.conns c).pc ≠ .idle) (hok : conn'.Ok)
    (hclients : ∀ clientId j, clients.get clientId = some j →
      (if j = c then conn'.bridge.map (·.client.id) else g.clientId j) = some clientId) :
    ({ g with stats, clients, registrations }.setConn c conn').Inv := by
  refine ⟨fun j => ?_, fun j hj => ?_, fun id j hj => ?_⟩
  · rcases eq_or_ne j c with rfl | hne
    · simp only [Gateway.setConn, Function.update_self]
      exact hok
    · simp only [Gateway.setConn, Function.update_of_ne hne]
      exact h.conns j
  · have hne : j ≠ c := fun heq => Nat.lt_irrefl _ (Nat.lt_of_lt_of_le (h.lt_count hlive) (heq ▸ hj))
    simp only [Gateway.setConn, Function.update_of_ne hne]
    exact h.fresh j hj
  · have hid := hclients id j hj
    unfold clientId
    split at hid
    · rename_i heq
      subst heq
      simp only [Gateway.setConn, Function.update_self]
      exact hid
    · rename_i hne
      simp only [Gateway.setConn, Function.update_of_ne hne]
      exact hid

/-- One connection moves on, and who has which client does not change. -/
theorem Inv.moves (h : g.Inv) {stats : GatewayStats} (hlive : (g.conns c).pc ≠ .idle) (hok : conn'.Ok)
    (hbridge : conn'.bridge = (g.conns c).bridge) : ({ g with stats }.setConn c conn').Inv := by
  refine h.setConn hlive hok fun id j hj => ?_
  have hid := h.clients id j hj
  split
  · rename_i heq
    rw [hbridge, ← heq]
    exact hid
  · exact hid

theorem Inv.change (h : g.Inv) (hchange : Change env g act g') : g'.Inv := by
  cases hchange with
  | drops => exact h
  | admin => exact ⟨h.conns, h.fresh, h.clients⟩
  | accept =>
    have hidle := h.fresh g.count (Nat.le_refl _)
    refine ⟨fun j => ?_, fun j hj => ?_, fun id j hj => ?_⟩
    · rcases eq_or_ne j g.count with rfl | hne
      · simp only [Gateway.setConn, Function.update_self]
        exact (h.conns g.count).early ((congrArg Pc.early hidle).trans rfl) rfl
      · simp only [Gateway.setConn, Function.update_of_ne hne]
        exact h.conns j
    · have hlt : g.count < j := hj
      simp only [Gateway.setConn, Function.update_of_ne (Nat.ne_of_gt hlt)]
      exact h.fresh j (Nat.le_of_lt hlt)
    · have hid := h.clients id j hj
      unfold clientId at hid ⊢
      rcases eq_or_ne j g.count with rfl | hne
      · simp only [Gateway.setConn, Function.update_self]
        exact hid
      · simp only [Gateway.setConn, Function.update_of_ne hne]
        exact hid
  | quiet c conn' hlive hok hquiet => exact h.moves hlive hok hquiet.bridge
  | replies c reply hlive hpc hreply =>
    refine h.moves hlive ((h.conns c).replied hpc hreply) ?_
    unfold Conn.replied
    dsimp only
    split
    · rfl
    · rfl
    · split
      · rfl
      · rfl
  | aborts c counts record hlive hpc => exact h.moves hlive ((h.conns c).abortSender hpc) rfl
  | builds c handshake client config gatewayInfo agent waits hpc hagent =>
    have hlive : (g.conns c).pc ≠ .idle := hpc ▸ Pc.noConfusion
    have hearly : (g.conns c).pc.early = true := (congrArg Pc.early hpc).trans rfl
    have hnone := ((h.conns c).blank hearly).1.bridge
    refine h.setConn hlive ((h.conns c).built hearly ?_) fun id j hj => ?_
    · cases waits with
      | true => rfl
      | false => rfl
    · have hold : g.clients.get id = some j → j ≠ c ∧ g.clientId j = some id := by
        intro hj
        have hid := h.clients id j hj
        refine ⟨?_, hid⟩
        rintro rfl
        rw [clientId, hnone] at hid
        cases hid
      cases waits with
      | true =>
        obtain ⟨hne, hid⟩ := hold hj
        rw [if_neg hne]
        exact hid
      | false =>
        simp only [Bool.false_eq_true, if_false, get_register] at hj
        split at hj
        · rename_i heq
          obtain rfl : c = j := Option.some.inj hj
          rw [if_pos rfl, heq]
          rfl
        · obtain ⟨hne, hid⟩ := hold hj
          rw [if_neg hne]
          exact hid
  | registers c tenant hpc hbridge =>
    have hok : { g.conns c with pc := .healthCheck }.Ok :=
      (h.conns c).goes ((congrArg Pc.serves hpc).trans rfl) (hpc ▸ Pc.noConfusion)
        (.inr ⟨(congrArg Pc.setup hpc).trans rfl, rfl⟩)
    refine h.setConn (hpc ▸ Pc.noConfusion) hok fun id j hj => ?_
    rw [get_register] at hj
    split at hj
    · rename_i heq
      obtain rfl : c = j := Option.some.inj hj
      rw [if_pos rfl, heq, hbridge]
      rfl
    · have hid := h.clients id j hj
      split
      · rename_i heq
        subst heq
        exact hid
      · exact hid
  | session c conn₀ tenant a s' hbridge hsame hstep hok =>
    refine h.setConn ((h.conns c).live hbridge) hok fun id j hj => ?_
    have hid : g.clientId j = some id := by
      split at hj
      · rw [get_unregister] at hj
        split at hj
        · cases hj
        · exact h.clients id j hj
      · exact h.clients id j hj
    split
    · rename_i heq
      subst heq
      rw [show conn₀.bridge = (g.conns j).bridge from hsame.bridge]
      exact hid
    · exact hid

theorem inv_of_reachable (h : Reachable (step env) {} g) : g.Inv :=
  h.invariant .init fun _ _ _ hinv _ hstep => hinv.change (step_change hinv hstep)

-- ---------------------------------------------------------------------------
-- The contract of the route
-- ---------------------------------------------------------------------------

/-- A connection, as it stands in a state of a run. -/
structure Conn.Contract (conn : Conn) : Prop where
  /-- a rejection is counted once and closed with 1008, and nothing is made for it -/
  rejected : conn.rejected ≠ [] → conn.rejected.length = 1 ∧ conn.closes = [1008] ∧
    conn.bridge = none ∧ conn.sender = false
  /-- its session takes the steps of a session -/
  session : ∀ tenant, conn.bridge = some tenant → Reachable (Session.step tenant.cfg) {} conn.session
  /-- the sender is closed once at most, and not before the session -/
  sender : conn.acloses ≤ 1 ∧
    (conn.acloses = 1 → conn.bridge.isSome = true → conn.session.close.closed = true)
  /-- who leaves the endpoint has closed whatever was made -/
  left : ∀ o, conn.pc = .left o → conn.acloses = conn.sender.toNat ∧
    (conn.bridge.isSome = true → conn.session.close.closed = true) ∧ conn.recorded ≠ some .active
  /-- and no cancellation is lost -/
  outcome : ∀ o, conn.pc = .left o → (o = .cancelled ↔ conn.cancelling = true)

theorem Conn.recorded_none {conn : Conn} (hbridge : conn.bridge = none) :
    conn.recorded = conn.record := by
  rw [recorded, hbridge]
  rfl

theorem Conn.Blank.left {conn : Conn} (h : conn.Blank) : conn.acloses = conn.sender.toNat ∧
    (conn.bridge.isSome = true → conn.session.close.closed = true) ∧ conn.recorded ≠ some .active := by
  rw [recorded_none h.bridge, h.acloses, h.sender, h.bridge, h.record]
  exact ⟨rfl, Bool.noConfusion, (Option.some_ne_none _).symm⟩

theorem Conn.Ok.contract {conn : Conn} (h : conn.Ok) : conn.Contract := by
  have houtcome : ∀ o, conn.pc = .left o → (o = .cancelled ↔ conn.cancelling = true) := by
    intro o ho
    rw [h.outcome o ho, Conn.outcome]
    split
    · rename_i hcancelling
      exact iff_of_true rfl hcancelling
    · rename_i hcancelling
      refine iff_of_false (fun heq => ?_) hcancelling
      split at heq
      · cases heq
      · cases heq
  have hblank : conn.Blank → conn.acloses ≤ 1 ∧
      (conn.acloses = 1 → conn.bridge.isSome = true → conn.session.close.closed = true) :=
    fun hblank => ⟨hblank.acloses ▸ Nat.zero_le 1,
      fun hone => absurd (hblank.acloses.symm.trans hone) Nat.zero_ne_one⟩
  cases h.stage with
  | early _ blank hrejected | gone _ blank hrejected =>
    exact ⟨fun hne => absurd hrejected hne, h.reach, hblank blank, fun _ _ => blank.left, houtcome⟩
  | rejected _ blank hrejected hcloses =>
    exact ⟨fun _ => ⟨hrejected, hcloses, blank.bridge, blank.sender⟩, h.reach, hblank blank,
      fun _ _ => blank.left, houtcome⟩
  | aborted _ hbridge hsender hacloses hrejected hrecord =>
    have hnone : conn.bridge.isSome = true → conn.session.close.closed = true :=
      fun hsome => Bool.noConfusion ((congrArg Option.isSome hbridge).symm.trans hsome)
    exact ⟨fun hne => absurd hrejected hne, h.reach, ⟨Nat.le_of_eq hacloses, fun _ => hnone⟩,
      fun _ _ => ⟨hacloses.trans (congrArg Bool.toNat hsender.symm), hnone,
        recorded_none hbridge ▸ hrecord⟩, houtcome⟩
  | serving hpc hserves =>
    refine ⟨fun hne => absurd hserves.rejected hne, h.reach,
      ⟨hserves.acloses ▸ Nat.zero_le 1,
        fun hone => absurd (hserves.acloses.symm.trans hone) Nat.zero_ne_one⟩, fun o ho => ?_, houtcome⟩
    rw [ho] at hpc
    cases hpc
  | closed _ hserves hclosed =>
    obtain ⟨tenant, htenant⟩ := Option.isSome_iff_exists.mp hserves.bridge
    refine ⟨fun hne => absurd hserves.rejected hne, h.reach,
      ⟨Nat.le_of_eq hserves.acloses, fun _ _ => hclosed⟩, fun _ _ => ⟨?_, fun _ => hclosed, ?_⟩, houtcome⟩
    · exact hserves.acloses.trans (congrArg Bool.toNat hserves.sender.symm)
    · rw [Conn.recorded, if_pos hserves.bridge]
      exact fun heq => status_ne_active (h.reach tenant htenant) hclosed (Option.some.inj heq)

/-- Whatever the client, the services and the other connections do, and however often the route is
cancelled. -/
theorem route_contract (env : Env) (g : Gateway) (h : Reachable (step env) {} g) (c : ConnRef) :
    (g.conns c).Contract :=
  ((inv_of_reachable h).conns c).contract

/-- The gateway of one deployment. -/
def deployed : Env where
  handshake := ClientHandshake.deployed
  blank := isSpace
  config _ := Bridge.Session.textOnly

/-- A client is created, connects, and is told `ready`. -/
def welcome : List Act :=
  [.admin (.create {} (some (py "k")) (py "1") (py "token")), .accept,
    .route 0 (.received (.text ClientHandshake.hello)), .route 0 .reads,
    .route 0 (.resolved none .done), .route 0 .returns, .route 0 .returns]

/-- It leaves while the server shuts down: its session is closed by `run` and by the route, which is
cancelled meanwhile. -/
def cancelledTwice : List Act :=
  welcome ++ [.route 0 .cancelled, .session 0 (.closer 0 .waited), .session 0 (.closer 0 .waited),
    .route 0 .returns, .route 0 .begins, .route 0 .cancelled, .route 0 .returns,
    .route 0 (.drained false), .route 0 .returns]

theorem cancelledTwice_runs : (run (step deployed) {} cancelledTwice).isSome = true := by
  decide +kernel

/-- The gateway once that client is gone. -/
def afterCancelled : Gateway := (run (step deployed) {} cancelledTwice).get cancelledTwice_runs

theorem route_contract_cancelled : (afterCancelled.conns 0).pc = .left .cancelled ∧
    (afterCancelled.conns 0).acloses = 1 ∧ (afterCancelled.conns 0).session.close.closed = true := by
  have hrun : Reachable (step deployed) {} afterCancelled := reachable_of_run (Option.some_get _).symm
  have hcontract := route_contract deployed afterCancelled hrun 0
  have hleft : (afterCancelled.conns 0).pc.isLeft = true := by decide +kernel
  have hmade : (afterCancelled.conns 0).cancelling = true ∧ (afterCancelled.conns 0).sender = true ∧
      (afterCancelled.conns 0).bridge.isSome = true := by decide +kernel
  -- nothing more is evaluated
  generalize afterCancelled.conns 0 = conn at *
  cases hpc : conn.pc with
  | left o =>
    obtain ⟨hacloses, hclosed, -⟩ := hcontract.left o hpc
    rw [(hcontract.outcome o hpc).mpr hmade.1]
    exact ⟨rfl, hacloses.trans (congrArg Bool.toNat hmade.2.1), hclosed hmade.2.2⟩
  | _ =>
    rw [hpc] at hleft
    cases hleft

end Gateway
