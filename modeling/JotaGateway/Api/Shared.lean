-- SUMMARY: What the connections share: the counters agree with the connections, and a push goes to the newest bridge of its client.
import JotaGateway.Api.Route
import Mathlib.Algebra.BigOperators.Group.Finset.Basic
import Mathlib.Algebra.BigOperators.Group.Finset.Piecewise

/-!
# Counters and client registry

Each step moves one connection at most, so a counter is the sum of what the
connections have to show for it. The client registry holds the bridge of a client
that was registered last, until that bridge closes, however the closes of older
ones are late.
-/

namespace Gateway

open Bridge (Session CloseReason CloseStep)
open Bridge.Session
open Transition

variable {env : Env} {g g' : Gateway} {c : ConnRef} {conn conn' : Conn} {act : Act} {f : Conn → Nat}

-- ---------------------------------------------------------------------------
-- Sums over the connections
-- ---------------------------------------------------------------------------

def total (g : Gateway) (f : Conn → Nat) : Nat := ∑ c ∈ Finset.range g.count, f (g.conns c)

theorem total_update (hcount : g'.count = g.count) (hconns : g'.conns = Function.update g.conns c conn')
    (hc : c < g.count) : g'.total f + f (g.conns c) = g.total f + f conn' := by
  have hmem : c ∈ Finset.range g.count := Finset.mem_range.mpr hc
  have hupdate : (fun j => f (g'.conns j)) = Function.update (fun j => f (g.conns j)) c (f conn') := by
    funext j
    rw [hconns]
    exact Function.apply_update (fun _ => f) g.conns c conn' j
  unfold total
  rw [hcount, hupdate, Finset.sum_update_of_mem hmem,
    Finset.sum_eq_add_sum_sdiff_singleton_of_mem hmem fun j => f (g.conns j)]
  omega

-- ---------------------------------------------------------------------------
-- One step
-- ---------------------------------------------------------------------------

/-- What a connection has to show for the counters has grown by what they have. -/
structure Tallied (g g' : Gateway) (conn conn' : Conn) : Prop where
  opened : g'.stats.sessionsOpened + conn.counted.toNat = g.stats.sessionsOpened + conn'.counted.toNat
  closed : ∃ new, g'.stats.sessionsClosed = g.stats.sessionsClosed ++ new ∧
    conn'.session.close.sessionsClosed = conn.session.close.sessionsClosed ++ new
  rejected : ∃ new, g'.stats.handshakeRejected = g.stats.handshakeRejected ++ new ∧
    conn'.rejected = conn.rejected ++ new

theorem Tallied.of_same (hcounted : conn'.counted = conn.counted)
    (hclosed : conn'.session.close.sessionsClosed = conn.session.close.sessionsClosed)
    (hrejected : conn'.rejected = conn.rejected) (hstats : g'.stats = g.stats) :
    Tallied g g' conn conn' := by
  refine ⟨?_, ⟨[], ?_⟩, ⟨[], ?_⟩⟩
  · rw [hcounted, hstats]
  · rw [hclosed, hstats, List.append_nil, List.append_nil]
    exact ⟨rfl, rfl⟩
  · rw [hrejected, hstats, List.append_nil, List.append_nil]
    exact ⟨rfl, rfl⟩

/-- A step moves one connection at most. -/
inductive Moves (g g' : Gateway) : Prop where
  | none (hcount : g'.count = g.count) (hconns : g'.conns = g.conns) (hstats : g'.stats = g.stats)
  | accept (hcount : g'.count = g.count + 1)
      (hconns : g'.conns = Function.update g.conns g.count { g.conns g.count with pc := .handshake })
      (hstats : g'.stats = g.stats)
  | one (c : ConnRef) (conn' : Conn) (hc : c < g.count) (hcount : g'.count = g.count)
      (hconns : g'.conns = Function.update g.conns c conn') (htallied : Tallied g g' (g.conns c) conn')

theorem Change.moves (h : g.Inv) (hchange : Change env g act g') : Moves g g' := by
  cases hchange with
  | drops => exact .none rfl rfl rfl
  | admin => exact .none rfl rfl rfl
  | accept => exact .accept rfl rfl rfl
  | quiet c conn' hlive hok hquiet =>
    obtain ⟨reason, -, hclose⟩ := hquiet.close
    exact .one c conn' (h.lt_count hlive) rfl rfl
      (.of_same hquiet.counted (by rw [hclose]) hquiet.rejected rfl)
  | replies c reply hlive =>
    obtain ⟨closes, pc, raising, heq, -⟩ := (g.conns c).replied_same reply
    refine .one c _ (h.lt_count hlive) rfl rfl ⟨?_, ⟨[], ?_⟩, ⟨reply.rejected, rfl, ?_⟩⟩
    · rw [heq]
      rfl
    · rw [heq, List.append_nil, List.append_nil]
      exact ⟨rfl, rfl⟩
    · rw [heq]
  | aborts c counts record hlive hpc =>
    have hnot := ((h.conns c).blank hpc).1.counted
    refine .one c _ (h.lt_count hlive) rfl rfl ⟨?_, ⟨[], ?_⟩, ⟨[], ?_⟩⟩
    · show g.stats.sessionsOpened + counts.toNat + (g.conns c).counted.toNat =
        g.stats.sessionsOpened + (counts || (g.conns c).counted).toNat
      rw [hnot, Bool.or_false]
      rfl
    · exact ⟨(List.append_nil _).symm, (List.append_nil _).symm⟩
    · exact ⟨(List.append_nil _).symm, (List.append_nil _).symm⟩
  | builds c handshake client config gatewayInfo agent waits hpc =>
    have hlive : (g.conns c).pc ≠ .idle := hpc ▸ Pc.noConfusion
    have hnot := ((h.conns c).blank ((congrArg Pc.early hpc).trans rfl)).1.counted
    refine .one c _ (h.lt_count hlive) rfl rfl ⟨?_, ⟨[], ?_⟩, ⟨[], ?_⟩⟩
    · rw [hnot]
      rfl
    · exact ⟨(List.append_nil _).symm, (List.append_nil _).symm⟩
    · exact ⟨(List.append_nil _).symm, (List.append_nil _).symm⟩
  | registers c tenant hpc =>
    have hlive : (g.conns c).pc ≠ .idle := hpc ▸ Pc.noConfusion
    exact .one c _ (h.lt_count hlive) rfl rfl (.of_same rfl rfl rfl rfl)
  | session c conn₀ tenant a s' hbridge hsame hstep =>
    refine .one c _ (h.lt_count ((h.conns c).live hbridge)) rfl rfl ⟨?_, ⟨_, rfl, ?_⟩, ⟨[], ?_⟩⟩
    · show g.stats.sessionsOpened + (g.conns c).counted.toNat =
        g.stats.sessionsOpened + conn₀.counted.toNat
      rw [hsame.counted]
    · exact (List.prefix_iff_eq_append.mp (step_counts hstep)).symm
    · exact ⟨(List.append_nil _).symm, by rw [List.append_nil]; exact hsame.rejected⟩

-- ---------------------------------------------------------------------------
-- The counters
-- ---------------------------------------------------------------------------

/-- Each counter is what the connections have to show for it. -/
structure Counts (g : Gateway) : Prop where
  opened : g.stats.sessionsOpened = g.total fun conn => conn.counted.toNat
  closed : ∀ reason, g.stats.sessionsClosed.count reason =
    g.total fun conn => conn.session.close.sessionsClosed.count reason
  closedAll : g.stats.sessionsClosed.length =
    g.total fun conn => conn.session.close.sessionsClosed.length
  rejected : ∀ label, g.stats.handshakeRejected.count label =
    g.total fun conn => conn.rejected.count label

theorem Counts.init : Counts {} := ⟨rfl, fun _ => rfl, rfl, fun _ => rfl⟩

/-- A measure of a connection, and the counter of it, grow by the same. -/
theorem Moves.counts {n : Gateway → Nat} (hmoves : Moves g g') (hn : n g = g.total f)
    (hstats : g'.stats = g.stats → n g' = n g) (hfresh : f { g.conns g.count with pc := .handshake } = 0)
    (htallied : ∀ c conn', Tallied g g' (g.conns c) conn' → n g' + f (g.conns c) = n g + f conn') :
    n g' = g'.total f := by
  cases hmoves with
  | none hcount hconns hsame =>
    rw [hstats hsame, hn, total, total, hcount, hconns]
  | accept hcount hconns hsame =>
    have hold : ∀ c ∈ Finset.range g.count, f (g'.conns c) = f (g.conns c) := by
      intro c hc
      rw [hconns, Function.update_of_ne (Nat.ne_of_lt (Finset.mem_range.mp hc))]
    rw [hstats hsame, hn, total, total, hcount, Finset.sum_range_succ, Finset.sum_congr rfl hold,
      hconns, Function.update_self, hfresh, Nat.add_zero]
  | one c conn' hc hcount hconns ht =>
    have hsum : g'.total f + f (g.conns c) = g.total f + f conn' := total_update hcount hconns hc
    have hcounter := htallied c conn' ht
    omega

/-- A connection that is not there yet has nothing to show. -/
theorem Inv.fresh_blank (h : g.Inv) : (g.conns g.count).Blank ∧ (g.conns g.count).rejected = [] := by
  have hidle := h.fresh g.count (Nat.le_refl _)
  obtain ⟨hblank, hrejected, -⟩ := (h.conns g.count).blank ((congrArg Pc.early hidle).trans rfl)
  exact ⟨hblank, hrejected⟩

theorem Counts.change (hcounts : g.Counts) (h : g.Inv) (hchange : Change env g act g') : g'.Counts := by
  have hmoves := hchange.moves h
  obtain ⟨hblank, hrejected⟩ := h.fresh_blank
  refine ⟨hmoves.counts (n := (·.stats.sessionsOpened)) hcounts.opened ?_ ?_ ?_,
    fun reason => hmoves.counts (n := (·.stats.sessionsClosed.count reason)) (hcounts.closed reason) ?_ ?_ ?_,
    hmoves.counts (n := (·.stats.sessionsClosed.length)) hcounts.closedAll ?_ ?_ ?_,
    fun label => hmoves.counts (n := (·.stats.handshakeRejected.count label)) (hcounts.rejected label)
      ?_ ?_ ?_⟩
  case refine_1 | refine_4 | refine_7 | refine_10 =>
    intro hsame
    rw [hsame]
  case refine_2 => exact congrArg Bool.toNat hblank.counted
  case refine_3 => exact fun c conn' ht => ht.opened
  case refine_5 | refine_8 =>
    show _ = 0
    rw [show (g.conns g.count).session = {} from hblank.session]
    rfl
  case refine_6 =>
    intro c conn' ht
    obtain ⟨new, hstats, hconn⟩ := ht.closed
    rw [hstats, hconn, List.count_append, List.count_append]
    omega
  case refine_9 =>
    intro c conn' ht
    obtain ⟨new, hstats, hconn⟩ := ht.closed
    rw [hstats, hconn, List.length_append, List.length_append]
    omega
  case refine_11 =>
    show (g.conns g.count).rejected.count label = 0
    rw [hrejected]
    rfl
  case refine_12 =>
    intro c conn' ht
    obtain ⟨new, hstats, hconn⟩ := ht.rejected
    rw [hstats, hconn, List.count_append, List.count_append]
    omega

theorem counts_of_reachable (h : Reachable (step env) {} g) : g.Inv ∧ g.Counts := by
  induction h with
  | start => exact ⟨.init, .init⟩
  | next _ _ hstep ih =>
    have hchange := step_change ih.1 hstep
    exact ⟨ih.1.change hchange, ih.2.change ih.1 hchange⟩

/-- Counted as opened, and not as closed yet. -/
def Conn.isOpen (conn : Conn) : Bool := conn.counted && !conn.session.close.counted

theorem Conn.Ok.uncalled_of_none {conn : Conn} (h : conn.Ok) (hbridge : conn.bridge = none) :
    conn.session.Uncalled := by
  cases h.stage with
  | early _ blank | rejected _ blank | gone _ blank => exact h.uncalled blank.ran blank.routeCloses
  | aborted => exact h.uncalled ‹_› ‹_›
  | serving _ hserves | closed _ hserves =>
    have hsome := hserves.bridge
    rw [hbridge] at hsome
    cases hsome

theorem Conn.Ok.counted_of_some {conn : Conn} {tenant : Tenant} (h : conn.Ok)
    (hbridge : conn.bridge = some tenant) : conn.counted = true := by
  cases h.stage with
  | early _ blank | rejected _ blank | gone _ blank =>
    exact absurd (hbridge.symm.trans blank.bridge) (Option.some_ne_none tenant)
  | aborted _ hnone => exact absurd (hbridge.symm.trans hnone) (Option.some_ne_none tenant)
  | serving _ hserves | closed _ hserves => exact hserves.counted

/-- A session is counted as closed at most once, and not before it is counted as opened. -/
theorem Conn.Ok.counted {conn : Conn} (h : conn.Ok) :
    conn.session.close.sessionsClosed.length + conn.isOpen.toNat = conn.counted.toNat ∧
      (conn.session.close.closed = true → conn.isOpen = false) := by
  have hrecord : conn.session.close.sessionsClosed.length = conn.session.close.counted.toNat ∧
      (conn.session.close.closed = true → conn.session.close.counted = true) ∧
        (conn.session.close.counted = true → conn.counted = true) := by
    cases hbridge : conn.bridge with
    | none =>
      rw [(h.uncalled_of_none hbridge).2]
      exact ⟨rfl, Bool.noConfusion, Bool.noConfusion⟩
    | some tenant =>
      have hserves := h.counted_of_some hbridge
      cases (h.session hbridge).recorded with
      | before _ heq =>
        rw [heq]
        exact ⟨rfl, Bool.noConfusion, Bool.noConfusion⟩
      | during k _ _ hopen hat =>
        refine ⟨?_, fun hclosed => Bool.noConfusion (hopen.symm.trans hclosed), fun _ => hserves⟩
        rw [hat.sessionsClosed, hat.counted]
        split
        · rename_i hle
          rw [decide_eq_true hle]
          rfl
        · rename_i hlt
          rw [decide_eq_false hlt]
          rfl
      | after st raised _ _ _ hat =>
        have hcounted : conn.session.close.counted = true := hat.counted
        refine ⟨?_, fun _ => hcounted, fun _ => hserves⟩
        rw [hcounted]
        exact hat.sessionsClosed
  obtain ⟨hlength, hclosed, hcounted⟩ := hrecord
  unfold Conn.isOpen
  refine ⟨?_, fun hdone => ?_⟩
  · rw [hlength]
    cases hcase : conn.session.close.counted with
    | true =>
      rw [hcounted hcase]
      rfl
    | false => simp
  · rw [hclosed hdone]
    exact Bool.and_false _

theorem total_congr {f₁ f₂ : Conn → Nat} (h : ∀ c < g.count, f₁ (g.conns c) = f₂ (g.conns c)) :
    g.total f₁ = g.total f₂ :=
  Finset.sum_congr rfl fun c hc => h c (Finset.mem_range.mp hc)

theorem total_add (f₁ f₂ : Conn → Nat) :
    g.total (fun conn => f₁ conn + f₂ conn) = g.total f₁ + g.total f₂ := Finset.sum_add_distrib

/-- The counters of `/admin/state`, in every state of every run: each reason and each rejection as often
as the connections have it, and every session that is counted as opened is counted as closed, open, or
was built by half; once every connection is gone, none is open. -/
theorem counters_agree (env : Env) (g : Gateway) (h : Reachable (step env) {} g) :
    (∀ reason, g.stats.sessionsClosed.count reason =
      g.total fun conn => conn.session.close.sessionsClosed.count reason) ∧
    (∀ label, g.stats.handshakeRejected.count label = g.total fun conn => conn.rejected.count label) ∧
    g.stats.sessionsOpened = g.stats.sessionsClosed.length + g.total (fun conn => conn.isOpen.toNat) ∧
    ((∀ c < g.count, (g.conns c).pc.isLeft = true) → g.stats.sessionsOpened =
      g.stats.sessionsClosed.length +
        g.total fun conn => (conn.counted && conn.bridge.isNone).toNat) := by
  obtain ⟨hinv, hcounts⟩ := counts_of_reachable h
  have hopened : g.stats.sessionsOpened =
      g.stats.sessionsClosed.length + g.total (fun conn => conn.isOpen.toNat) := by
    rw [hcounts.opened, hcounts.closedAll, ← total_add]
    exact total_congr fun c _ => (hinv.conns c).counted.1.symm
  refine ⟨hcounts.closed, hcounts.rejected, hopened, fun hleft => ?_⟩
  rw [hopened]
  refine congrArg _ (total_congr fun c hc => ?_)
  have hok := hinv.conns c
  have hgone := hleft c hc
  cases hpc : (g.conns c).pc with
  | left o =>
    have hclosed := (hok.contract.left o hpc).2.1
    cases hbridge : (g.conns c).bridge with
    | none =>
      rw [Conn.isOpen, (hok.uncalled_of_none hbridge).2]
      rfl
    | some tenant =>
      rw [hok.counted.2 (hclosed (hbridge ▸ rfl))]
      simp
  | _ =>
    rw [hpc] at hgone
    cases hgone

theorem counters_agree_cancelled : afterCancelled.stats.sessionsOpened = 1 ∧
    afterCancelled.stats.sessionsClosed.length = 1 := by
  have hrun : Reachable (step deployed) {} afterCancelled := reachable_of_run (Option.some_get _).symm
  have hopened := (counters_agree deployed afterCancelled hrun).2.2.1
  have hmade : afterCancelled.stats.sessionsOpened = 1 := by decide +kernel
  have hcount : afterCancelled.count = 1 := by decide +kernel
  have hopen : (afterCancelled.conns 0).isOpen.toNat = 0 := by decide +kernel
  -- nothing more is evaluated
  generalize afterCancelled = g at *
  rw [total, hcount, Finset.sum_range_one, hopen, hmade, Nat.add_zero] at hopened
  exact ⟨hmade, hopened.symm⟩

-- ---------------------------------------------------------------------------
-- The client registry
-- ---------------------------------------------------------------------------

/-- The bridge of the client that was registered last. -/
def newest (g : Gateway) (id : PyStr) : Option ConnRef :=
  (g.registrations.filter fun c => g.clientId c = some id).getLast?

/-- Its `close_all` has come to `unregister`. -/
def Conn.ended (conn : Conn) : Bool := conn.session.close.trace.contains .unregister

def ended (g : Gateway) (c : ConnRef) : Bool := (g.conns c).ended

/-- The registry holds the newest bridge of each client, unless it has ended. -/
structure Roster (g : Gateway) : Prop where
  made : ∀ c ∈ g.registrations, (g.conns c).bridge.isSome = true
  get : ∀ id, g.clients.get id = (g.newest id).filter fun c => !g.ended c

theorem Roster.init : Roster {} :=
  ⟨fun _ hc => absurd hc List.not_mem_nil, fun _ => rfl⟩

theorem newest_mem {id : PyStr} (h : g.newest id = some c) :
    c ∈ g.registrations ∧ g.clientId c = some id := by
  have hmem := List.mem_of_getLast? h
  exact ⟨(List.mem_filter.mp hmem).1, of_decide_eq_true (List.mem_filter.mp hmem).2⟩

/-- The connections that were registered are whose they were. -/
theorem filter_registrations {id : PyStr}
    (hid : ∀ c ∈ g.registrations, g'.clientId c = g.clientId c) :
    (g.registrations.filter fun c => g'.clientId c = some id) =
      g.registrations.filter fun c => g.clientId c = some id :=
  List.filter_congr fun c hc => by rw [hid c hc]

/-- Nothing changes for who is registered. -/
theorem Roster.same (h : g.Roster) (hregistrations : g'.registrations = g.registrations)
    (hclients : g'.clients = g.clients)
    (hbridge : ∀ c ∈ g.registrations, (g'.conns c).bridge = (g.conns c).bridge)
    (hended : ∀ c ∈ g.registrations, g'.ended c = g.ended c) : g'.Roster := by
  have hnewest : ∀ id, g'.newest id = g.newest id := by
    intro id
    unfold newest
    rw [hregistrations, filter_registrations fun c hc => by rw [clientId, hbridge c hc]; rfl]
  refine ⟨fun c hc => ?_, fun id => ?_⟩
  · rw [hregistrations] at hc
    rw [hbridge c hc]
    exact h.made c hc
  · rw [hclients, h.get id, hnewest id]
    cases hcase : g.newest id with
    | none => rfl
    | some c => simp only [Option.filter_some, hended c (newest_mem hcase).1]

/-- A bridge is registered: it is the newest of its client. -/
theorem Roster.register (h : g.Roster) {tenant : Tenant}
    (hregistrations : g'.registrations = g.registrations ++ [c])
    (hclients : g'.clients = g.clients.register tenant.client.id c)
    (hmine : (g'.conns c).bridge = some tenant) (hnot : g'.ended c = false)
    (hbridge : ∀ j ∈ g.registrations, (g'.conns j).bridge = (g.conns j).bridge)
    (hended : ∀ j ∈ g.registrations, g'.ended j = g.ended j) : g'.Roster := by
  have hid : g'.clientId c = some tenant.client.id := by
    rw [clientId, hmine]
    rfl
  have hnewest : ∀ id, g'.newest id = if id = tenant.client.id then some c else g.newest id := by
    intro id
    unfold newest
    rw [hregistrations, List.filter_append,
      filter_registrations fun j hj => by rw [clientId, hbridge j hj]; rfl]
    split
    · rename_i heq
      rw [List.filter_singleton, hid, heq]
      simp
    · rename_i hne
      rw [List.filter_singleton, hid]
      simp [Ne.symm hne]
  refine ⟨fun j hj => ?_, fun id => ?_⟩
  · rw [hregistrations] at hj
    rcases List.mem_append.mp hj with hold | hlast
    · rw [hbridge j hold]
      exact h.made j hold
    · rw [List.mem_singleton.mp hlast, hmine]
      rfl
  · rw [hclients, get_register, hnewest id]
    split
    · simp only [Option.filter_some, hnot, Bool.not_false, if_true]
    · rw [h.get id]
      cases hcase : g.newest id with
      | none => rfl
      | some j => simp only [Option.filter_some, hended j (newest_mem hcase).1]

/-- One connection goes on, with the bridge it has and the session where it was. -/
theorem Roster.moves (h : g.Roster) (hconns : g'.conns = Function.update g.conns c conn')
    (hregistrations : g'.registrations = g.registrations) (hclients : g'.clients = g.clients)
    (hbridge : conn'.bridge = (g.conns c).bridge) (hended : conn'.ended = (g.conns c).ended) :
    g'.Roster := by
  have hmine : ∀ j, (g'.conns j).bridge = (g.conns j).bridge ∧ g'.ended j = g.ended j := by
    intro j
    unfold ended
    rw [hconns]
    rcases eq_or_ne j c with rfl | hne
    · rw [Function.update_self]
      exact ⟨hbridge, hended⟩
    · rw [Function.update_of_ne hne]
      exact ⟨rfl, rfl⟩
  exact h.same hregistrations hclients (fun j _ => (hmine j).1) fun j _ => (hmine j).2

/-- The session of `c` goes on: it ends, and is removed if it is the newest. -/
theorem Roster.session (h : g.Roster) {tenant : Tenant}
    (hconns : g'.conns = Function.update g.conns c conn')
    (hregistrations : g'.registrations = g.registrations)
    (hbridge : (g.conns c).bridge = some tenant) (hsame : conn'.bridge = (g.conns c).bridge)
    (hclients : g'.clients = if unregisters (g.conns c).session conn'.session then
      g.clients.unregister tenant.client.id c else g.clients)
    (hkept : (g.conns c).ended = true → conn'.ended = true) : g'.Roster := by
  have hunregisters : unregisters (g.conns c).session conn'.session =
      (conn'.ended && !(g.conns c).ended) := rfl
  cases hends : unregisters (g.conns c).session conn'.session with
  | false =>
    refine h.moves hconns hregistrations (by rw [hclients, hends]; rfl) hsame ?_
    rw [hunregisters] at hends
    cases hold : (g.conns c).ended with
    | true => exact hkept hold
    | false =>
      rw [hold, Bool.not_false, Bool.and_true] at hends
      exact hends
  | true =>
    obtain ⟨hnew, hold⟩ : conn'.ended = true ∧ (g.conns c).ended = false := by
      rw [hunregisters, Bool.and_eq_true, Bool.not_eq_true'] at hends
      exact hends
    have hbridges : ∀ j, (g'.conns j).bridge = (g.conns j).bridge := by
      intro j
      rw [hconns]
      rcases eq_or_ne j c with rfl | hne
      · rw [Function.update_self, hsame]
      · rw [Function.update_of_ne hne]
    have hended : ∀ j, j ≠ c → g'.ended j = g.ended j := by
      intro j hne
      rw [ended, hconns, Function.update_of_ne hne]
      rfl
    have hmine : g'.ended c = true := by
      rw [ended, hconns, Function.update_self]
      exact hnew
    have hnewest : ∀ id, g'.newest id = g.newest id := by
      intro id
      unfold newest
      rw [hregistrations, filter_registrations fun j _ => by rw [clientId, hbridges j]; rfl]
    refine ⟨fun j hj => by rw [hbridges j]; exact h.made j (hregistrations ▸ hj), fun id => ?_⟩
    rw [hclients, if_pos hends, get_unregister, hnewest id, h.get, h.get]
    cases hcase : g.newest id with
    | none =>
      rw [if_neg]
      · rfl
      · rintro ⟨rfl, hget⟩
        rw [hcase] at hget
        cases hget
    | some j =>
      rcases eq_or_ne j c with rfl | hne
      · -- the newest bridge of the client ends
        have hid : id = tenant.client.id := by
          have hid := (newest_mem hcase).2
          rw [clientId, hbridge] at hid
          exact (Option.some.inj hid).symm
        have hwas : g.ended j = false := hold
        rw [if_pos ⟨hid, by rw [← hid, hcase, Option.filter_some, hwas]; rfl⟩, Option.filter_some, hmine]
        rfl
      · rw [if_neg, Option.filter_some, Option.filter_some, hended j hne]
        rintro ⟨rfl, hget⟩
        rw [hcase, Option.filter_some] at hget
        split at hget
        · exact hne (Option.some.inj hget)
        · cases hget

theorem Roster.change (hroster : g.Roster) (h : g.Inv) (hchange : Change env g act g') : g'.Roster := by
  cases hchange with
  | drops => exact hroster
  | admin => exact hroster.same rfl rfl (fun _ _ => rfl) fun _ _ => rfl
  | accept => exact hroster.moves rfl rfl rfl rfl rfl
  | quiet c conn' hlive hok hquiet =>
    obtain ⟨reason, -, hclose⟩ := hquiet.close
    exact hroster.moves rfl rfl rfl hquiet.bridge (by rw [Conn.ended, hclose]; rfl)
  | replies c reply hlive hpc =>
    obtain ⟨closes, pc, raising, heq, -⟩ := (g.conns c).replied_same reply
    refine hroster.moves rfl rfl rfl ?_ ?_
    · rw [heq]
    · rw [heq]
      rfl
  | aborts c counts record hlive hpc => exact hroster.moves rfl rfl rfl rfl rfl
  | builds c handshake client config gatewayInfo agent waits hpc =>
    have hblank := ((h.conns c).blank ((congrArg Pc.early hpc).trans rfl)).1
    have hconns : ∀ j ∈ g.registrations, ∀ conn', Function.update g.conns c conn' j = g.conns j := by
      intro j hj conn'
      refine Function.update_of_ne ?_ _ _
      rintro rfl
      have hsome := hroster.made j hj
      rw [hblank.bridge] at hsome
      cases hsome
    cases waits with
    | true =>
      exact hroster.same rfl rfl (fun j hj => congrArg Conn.bridge (hconns j hj _))
        fun j hj => congrArg Conn.ended (hconns j hj _)
    | false =>
      have hnot : (g.conns c).ended = false := by
        rw [Conn.ended, hblank.session]
        rfl
      have hmine : ∀ conn', (Function.update g.conns c conn' c).bridge = conn'.bridge := fun conn' =>
        congrArg Conn.bridge (Function.update_self _ _ _)
      have hends : ∀ conn', (Function.update g.conns c conn' c).ended = conn'.ended := fun conn' =>
        congrArg Conn.ended (Function.update_self _ _ _)
      exact hroster.register rfl rfl (hmine _) ((hends _).trans hnot)
        (fun j hj => congrArg Conn.bridge (hconns j hj _)) fun j hj => congrArg Conn.ended (hconns j hj _)
  | registers c tenant hpc hbridge =>
    obtain ⟨-, hran, -, hroute⟩ := (h.conns c).serves ((congrArg Pc.serves hpc).trans rfl)
    have huncalled := (h.conns c).uncalled (hran ((congrArg Pc.setup hpc).trans rfl))
      (hroute (hpc ▸ Pc.noConfusion))
    have hsame : ∀ j, ((g.registers c tenant).conns j).bridge = (g.conns j).bridge ∧
        ((g.registers c tenant).conns j).ended = (g.conns j).ended := by
      intro j
      simp only [registers, setConn]
      rcases eq_or_ne j c with rfl | hne
      · rw [Function.update_self]
        exact ⟨rfl, rfl⟩
      · rw [Function.update_of_ne hne]
        exact ⟨rfl, rfl⟩
    refine hroster.register rfl rfl ((hsame c).1.trans hbridge) ?_ (fun j _ => (hsame j).1)
      fun j _ => (hsame j).2
    refine (hsame c).2.trans ?_
    rw [Conn.ended, huncalled.2]
    rfl
  | session c conn₀ tenant a s' hbridge hsame hstep =>
    refine hroster.session rfl rfl hbridge hsame.bridge rfl fun hold => ?_
    exact List.contains_iff_mem.mpr ((step_trace hstep).subset (List.contains_iff_mem.mp hold))

theorem roster_of_reachable (h : Reachable (step env) {} g) : g.Inv ∧ g.Roster := by
  induction h with
  | start => exact ⟨.init, .init⟩
  | next _ _ hstep ih =>
    have hchange := step_change ih.1 hstep
    exact ⟨ih.1.change hchange, ih.2.change ih.1 hchange⟩

/-- In every state of every run a client's pushes go to its bridge that was registered last, and to none
once that one has closed: an older bridge gets nothing, and its late close removes nothing. -/
theorem newest_bridge (env : Env) (g : Gateway) (h : Reachable (step env) {} g) :
    (∀ id c, g.clients.get id = some c ↔ g.newest id = some c ∧ g.ended c = false) ∧
      ∀ sk q g' c, g.step env (.push sk q) = some g' → (g'.conns c).session ≠ (g.conns c).session →
        g.newest (clientIdFromSessionKey sk) = some c ∧ g.ended c = false := by
  obtain ⟨hinv, hroster⟩ := roster_of_reachable h
  have hget : ∀ id c, g.clients.get id = some c ↔ g.newest id = some c ∧ g.ended c = false := by
    intro id c
    rw [hroster.get, Option.filter_eq_some_iff, Bool.not_eq_true']
  refine ⟨hget, fun sk q g' c hstep hne => ?_⟩
  simp only [step] at hstep
  split at hstep
  · rename_i j hj
    cases hstep
    rcases eq_or_ne c j with rfl | hother
    · exact (hget _ c).mp hj
    · exact absurd (congrArg Conn.session (Function.update_of_ne hother _ _)) hne
  · cases hstep
    exact absurd rfl hne

/-- The client connects again; then its first session closes. -/
def reconnected : List Act :=
  welcome ++ [.accept, .route 1 (.received (.text ClientHandshake.hello)), .route 1 .reads,
    .route 1 (.resolved none .done), .route 1 .returns, .route 1 .returns, .route 0 .cancelled,
    .session 0 (.closer 0 .waited), .session 0 (.closer 0 .waited)]

theorem reconnected_runs : (run (step deployed) {} reconnected).isSome = true := by
  decide +kernel

def afterReconnected : Gateway := (run (step deployed) {} reconnected).get reconnected_runs

theorem newest_bridge_reconnected : afterReconnected.clients.get (py "1") = some 1 := by
  have hrun : Reachable (step deployed) {} afterReconnected :=
    reachable_of_run (Option.some_get _).symm
  have hnewest : afterReconnected.newest (py "1") = some 1 := by decide +kernel
  have hopen : afterReconnected.ended 1 = false := by decide +kernel
  exact ((newest_bridge deployed afterReconnected hrun).1 (py "1") 1).mpr ⟨hnewest, hopen⟩

end Gateway
