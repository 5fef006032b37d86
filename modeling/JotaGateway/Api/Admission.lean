-- SUMMARY: Whom the gateway lets in and whom it throws out: a session was admitted by an active row, and is revoked only where that row is gone.
import JotaGateway.Admin.Keys
import JotaGateway.Api.Route
import JotaGateway.Bridge.Revocation

/-!
# Admission and revocation

`get_session` reads a row for the key of the handshake, and
`_session_revalidation_loop` reads it again and again; each goes on with what it
read when the database may have changed. So what they did is justified by an
earlier state of the run.
-/

open Transition

-- ---------------------------------------------------------------------------
-- A session that is revoked
-- ---------------------------------------------------------------------------

namespace Bridge.Session

variable {cfg : Config} {s s' : Session} {a : Act}

/-- It is closed as revoked, or about to be. -/
def Revoked (s : Session) : Prop :=
  s.close.reason = some .revoked ∨ (∃ k, (s.closers k).site = .revocation) ∨
    .revoked ∈ s.close.computed

/-- What the registry shows was computed. -/
theorem Ok.revoked (h : s.Ok) (hstatus : s.close.status = .revoked) : .revoked ∈ s.close.computed := by
  have hof : ∀ {d : Nat} {st}, s.close.status = (if 11 ≤ d then st else .active) →
      s.close.computed = [st] → .revoked ∈ s.close.computed := by
    intro d st hst hcomputed
    rw [hstatus] at hst
    split at hst
    · rw [hcomputed, ← hst]
      exact List.mem_singleton_self _
    · cases hst
  cases h.recorded with
  | before _ heq =>
    rw [heq] at hstatus
    cases hstatus
  | during _ _ _ _ hat => exact hof hat.status hat.computed
  | after _ _ _ _ _ hat => exact hof hat.status hat.computed

/-- Only `_revoke_session` revokes. -/
theorem step_revoked (h : s.Ok) (hstep : s.step cfg a = some s') (hrevoked : s'.Revoked) :
    s.Revoked ∨ ∃ k, a = .call k .revocation := by
  have hstepped := step_cases h hstep
  -- whoever goes on as `_revoke_session` has called, or calls now
  have hcaller : ∀ k, a.caller = some k → s.site a = .revocation →
      s.Revoked ∨ ∃ k, a = .call k .revocation := by
    intro k hk hsite
    cases a with
    | call j site => exact .inr ⟨j, congrArg (Act.call j) hsite⟩
    | closer j act => exact .inl (.inr (.inl ⟨j, hsite⟩))
    | _ => cases hk
  rcases hrevoked with hreason | ⟨j, hsite⟩ | hcomputed
  · rw [hstepped.reason, Option.or_eq_some_iff] at hreason
    rcases hreason with hold | ⟨-, hnotes⟩
    · exact .inl (.inl hold)
    · cases a with
      | note reason =>
        cases hnotes
        cases hstep
      | call k site =>
        cases site with
        | revocation => exact .inr ⟨k, rfl⟩
        | run e => cases e <;> cases hnotes
        | _ => cases hnotes
      | closer k act =>
        cases act with
        | cancelled => cases hnotes
        | waited =>
          simp only [notes] at hnotes
          split at hnotes
          · refine .inl (.inr (.inl ⟨k, ?_⟩))
            cases hwas : (s.closers k).site with
            | revocation => rfl
            | _ =>
              rw [hwas] at hnotes
              cases hnotes
          · cases hnotes
      | _ => cases hnotes
  · rcases hstepped.site j with heq | heq | ⟨hj, heq⟩
    · exact .inl (.inr (.inl ⟨j, heq ▸ hsite⟩))
    · rw [heq] at hsite
      cases hsite
    · exact hcaller j hj (heq ▸ hsite)
  · rcases h.first hstep with hsame | ⟨-, -, k, hk, -, hfirst⟩
    · exact .inl (.inr (.inr (hsame ▸ hcomputed)))
    · rw [hfirst, List.mem_singleton, eq_comm, computes_revoked] at hcomputed
      exact hcaller k hk hcomputed

end Bridge.Session

namespace Gateway

open Bridge (Session CloseReason)
open Bridge.Session
open Admin (ClientRecord ClientConfig Database resolveAgent)

variable {env : Env} {g g' : Gateway} {c : ConnRef} {conn conn' : Conn} {act : Act} {actions : List Act}

-- ---------------------------------------------------------------------------
-- The rows
-- ---------------------------------------------------------------------------

theorem rows_of_reachable (h : Reachable (step env) {} g) : g.db.Kept env.blank ∧ g.db.Unique := by
  induction h with
  | start => exact ⟨fun _ hrec => absurd hrec List.not_mem_nil, .nil⟩
  | @next g g' a hreach _ hstep ih =>
    have hsame : g'.db = g.db ∨ ∃ request, g'.db = (g.db.handle env.blank request).1 := by
      cases step_change (inv_of_reachable hreach) hstep with
      | admin request => exact .inr ⟨request, rfl⟩
      | _ => exact .inl rfl
    rcases hsame with heq | ⟨request, heq⟩
    · rw [heq]
      exact ih
    · rw [heq]
      exact ⟨ih.1.handle request, ih.2.handle request⟩

/-- `_session_revalidation_loop` finds a session wanting where no active row has its id and key. -/
theorem refuses_lookup {db : Database} (hkept : db.Kept env.blank) (hunique : db.Unique)
    (id clientKey : PyStr) : refuses id (db.lookup clientKey) = true ↔ ¬ db.Has id clientKey := by
  rcases Database.lookup_cases hkept clientKey with
    ⟨rec_, hrec, hkey, hactive, hlookup⟩ | ⟨rec_, hrec, hkey, hinactive, hlookup⟩ | ⟨hnone, hlookup⟩
  · rw [hlookup, refuses, bne_iff_ne]
    refine not_congr ⟨fun hid => ⟨rec_, hrec, hid, hkey, hactive⟩, ?_⟩
    rintro ⟨other, hother, hid, hsame, -⟩
    rw [hunique.eq_of_key hrec hother (hkey.trans hsame.symm), hid]
  · rw [hlookup]
    refine iff_of_true rfl ?_
    rintro ⟨other, hother, -, hsame, hactive⟩
    rw [← hunique.eq_of_key hrec hother (hkey.trans hsame.symm), hinactive] at hactive
    cases hactive
  · rw [hlookup]
    refine iff_of_true rfl ?_
    rintro ⟨other, hother, -, hsame, -⟩
    exact hnone other hother hsame

-- ---------------------------------------------------------------------------
-- What a connection has come from
-- ---------------------------------------------------------------------------

/-- A message that `c` received is read as the handshake. -/
def Heard (env : Env) (actions : List Act) (c : ConnRef) (handshake : ClientHandshake.Handshake) : Prop :=
  ∃ first, .route c (.received first) ∈ actions ∧
    (ClientHandshake.gatewayWebsocket env.handshake first).result = .ok (some handshake)

theorem Heard.later {handshake : ClientHandshake.Handshake} (h : Heard env actions c handshake) :
    Heard env (actions ++ [act]) c handshake :=
  h.imp fun _ hfirst => ⟨List.mem_append_left _ hfirst.1, hfirst.2⟩

/-- `get_session` of `c` finds the row, whose client may have the agent. -/
def Admits (c : ConnRef) (tenant : Tenant) (g : Gateway) : Prop :=
  (g.conns c).pc = .resolving tenant.handshake none ∧ ∃ config gatewayInfo,
    g.db.lookup tenant.handshake.clientKey = .ok (tenant.client, config) ∧
      resolveAgent tenant.handshake.agent (some config) gatewayInfo = .ok tenant.agent

/-- What `c` has read was in the database at some time, and so was what it was made from. -/
structure Conn.Founded (env : Env) (actions : List Act) (c : ConnRef) (conn : Conn) : Prop where
  heard : ∀ handshake found, conn.pc = .resolving handshake found → Heard env actions c handshake
  resolving : ∀ handshake found, conn.pc = .resolving handshake (some found) →
    Past (step env) {} actions fun g =>
      (g.conns c).pc = .resolving handshake none ∧ g.db.lookup handshake.clientKey = found
  admitted : ∀ tenant, conn.bridge = some tenant → Heard env actions c tenant.handshake ∧
    tenant = Gateway.tenant env tenant.handshake tenant.client tenant.agent ∧
      Past (step env) {} actions (Admits c tenant)
  current : ∀ tenant found, conn.bridge = some tenant → conn.current = some found →
    Past (step env) {} actions fun g =>
      (g.conns c).bridge = some tenant ∧ g.db.lookup tenant.client.clientKey = found
  revoked : ∀ tenant, conn.bridge = some tenant → conn.session.Revoked →
    Past (step env) {} actions fun g => (g.conns c).bridge = some tenant ∧
      refuses tenant.client.id (g.db.lookup tenant.client.clientKey) = true

theorem not_revoked : ¬ Revoked {} := by
  rintro (hreason | ⟨k, hsite⟩ | hcomputed)
  · cases hreason
  · cases hsite
  · cases hcomputed

theorem Conn.Founded.init : Conn.Founded env [] c {} where
  heard _ _ hpc := Pc.noConfusion hpc
  resolving _ _ hpc := Pc.noConfusion hpc
  admitted _ hbridge := absurd hbridge.symm (Option.some_ne_none _)
  current _ _ hbridge := absurd hbridge.symm (Option.some_ne_none _)
  revoked _ hbridge := absurd hbridge.symm (Option.some_ne_none _)

theorem Conn.Founded.later (h : conn.Founded env actions c) :
    conn.Founded env (actions ++ [act]) c :=
  ⟨fun handshake found hpc => (h.heard handshake found hpc).later,
    fun handshake found hpc => (h.resolving handshake found hpc).later,
    fun tenant hbridge => (h.admitted tenant hbridge).imp .later fun hmade => hmade.imp_right .later,
    fun tenant found hbridge hcurrent => (h.current tenant found hbridge hcurrent).later,
    fun tenant hbridge hrevoked => (h.revoked tenant hbridge hrevoked).later⟩

/-- The route has gone on; nothing else has changed that matters here. -/
theorem Conn.Founded.goes (h : conn.Founded env actions c) (hbridge : conn'.bridge = conn.bridge)
    (hcurrent : conn'.current = conn.current) (hsession : conn'.session.Revoked → conn.session.Revoked)
    (hpc : ∀ handshake found, conn'.pc = .resolving handshake found →
      found = none ∧ Heard env actions c handshake) : conn'.Founded env actions c :=
  ⟨fun handshake found heq => (hpc handshake found heq).2,
    fun handshake found heq => absurd (hpc handshake (some found) heq).1 (Option.some_ne_none found),
    fun tenant htenant => h.admitted tenant (hbridge ▸ htenant),
    fun tenant found htenant hfound => h.current tenant found (hbridge ▸ htenant) (hcurrent ▸ hfound),
    fun tenant htenant hrevoked => h.revoked tenant (hbridge ▸ htenant) (hsession hrevoked)⟩

def Founded (env : Env) (actions : List Act) (g : Gateway) : Prop :=
  ∀ c, (g.conns c).Founded env actions c

theorem Founded.change (h : g.Founded env actions) (hinv : g.Inv)
    (hnow : ∀ P : Gateway → Prop, P g → Past (step env) {} actions P) (hact : act ∈ actions)
    (hchange : Change env g act g') : g'.Founded env actions := by
  intro j
  have hupdate : ∀ {c conn'}, g'.conns = Function.update g.conns c conn' →
      conn'.Founded env actions c → (g'.conns j).Founded env actions j := by
    intro c conn' hconns hconn
    rw [hconns]
    rcases eq_or_ne j c with rfl | hne
    · rw [Function.update_self]
      exact hconn
    · rw [Function.update_of_ne hne]
      exact h j
  cases hchange with
  | drops => exact h j
  | admin => exact h j
  | accept => exact hupdate rfl ((h g.count).goes rfl rfl id fun _ _ => Pc.noConfusion)
  | quiet c conn' hlive hok hquiet =>
    obtain ⟨reason, hreason, hclose⟩ := hquiet.close
    refine hupdate rfl ⟨fun handshake found hpc => ?_, fun handshake found hpc => ?_,
      fun tenant hbridge => ?_, fun tenant found hbridge hcurrent => ?_, fun tenant hbridge hrevoked => ?_⟩
    · rcases hquiet.resolving handshake found hpc with hold | ⟨hold, -⟩
      · exact (h c).heard handshake found hold
      · exact (h c).heard handshake none hold
    · rcases hquiet.resolving handshake (some found) hpc with hold | ⟨hold, hread⟩
      · exact (h c).resolving handshake found hold
      · exact hnow _ ⟨hold, (Option.some.inj hread).symm⟩
    · exact (h c).admitted tenant (hquiet.bridge ▸ hbridge)
    · rw [hquiet.bridge] at hbridge
      rcases hquiet.current found hcurrent with hold | ⟨tenant', htenant, hread⟩
      · exact (h c).current tenant found hbridge hold
      · obtain rfl : tenant = tenant' := Option.some.inj (hbridge.symm.trans htenant)
        exact hnow _ ⟨hbridge, hread.symm⟩
    · refine (h c).revoked tenant (hquiet.bridge ▸ hbridge) ?_
      rcases hrevoked with hrevoked | ⟨k, hsite⟩ | hcomputed
      · rw [hclose, Option.or_eq_some_iff] at hrevoked
        exact .inl (hrevoked.resolve_right fun hnew => hreason hnew.2)
      · exact .inr (.inl ⟨k, hquiet.closers ▸ hsite⟩)
      · rw [hclose] at hcomputed
        exact .inr (.inr hcomputed)
  | replies c reply hlive hearly hreply hheard =>
    obtain ⟨closes, pc, raising, heq, hpc⟩ := (g.conns c).replied_same reply
    refine hupdate rfl ?_
    rw [heq]
    refine (h c).goes rfl rfl id fun handshake found hfound => ?_
    obtain ⟨hnone, hresult⟩ := hpc handshake found hfound
    obtain ⟨first, rfl, rfl⟩ := hheard handshake hresult
    exact ⟨hnone, first, hact, hresult⟩
  | aborts c => exact hupdate rfl ((h c).goes rfl rfl id fun _ _ => Pc.noConfusion)
  | builds c handshake client config gatewayInfo agent waits hpc hagent =>
    have hearly : (g.conns c).pc.early = true := (congrArg Pc.early hpc).trans rfl
    have hblank := ((hinv.conns c).blank hearly).1
    refine hupdate rfl ⟨fun handshake' found heq => ?_, fun handshake' found heq => ?_,
      fun tenant htenant => ?_, fun tenant found _ hcurrent => ?_, fun tenant _ hrevoked => ?_⟩
    · cases waits <;> cases heq
    · cases waits <;> cases heq
    · cases htenant
      refine ⟨(h c).heard handshake _ hpc, rfl, ((h c).resolving handshake _ hpc).imp ?_⟩
      exact fun g₁ _ hread => ⟨hread.1, config, gatewayInfo, hread.2, hagent⟩
    · have hran := (hinv.conns c).current (Option.isSome_of_mem hcurrent)
      rw [hblank.ran] at hran
      cases hran
    · exact absurd (hblank.session ▸ hrevoked) not_revoked
  | registers c => exact hupdate rfl ((h c).goes rfl rfl id fun _ _ => Pc.noConfusion)
  | session c conn₀ tenant a s' hbridge hsame hstep hok hrevokes =>
    refine hupdate rfl ⟨fun handshake found hpc => ?_, fun handshake found hpc => ?_,
      fun tenant' htenant => ?_, fun tenant' found htenant hcurrent => ?_,
      fun tenant' htenant hrevoked => ?_⟩
    · exact (h c).heard handshake found (hsame.pc ▸ hpc)
    · exact (h c).resolving handshake found (hsame.pc ▸ hpc)
    · exact (h c).admitted tenant' (hsame.bridge ▸ htenant)
    · exact (h c).current tenant' found (hsame.bridge ▸ htenant) (hsame.current found hcurrent)
    · have htenant : (g.conns c).bridge = some tenant' := hsame.bridge ▸ htenant
      obtain rfl : tenant' = tenant := Option.some.inj (htenant.symm.trans hbridge)
      rcases step_revoked ((hinv.conns c).session hbridge) hstep hrevoked with hold | ⟨k, hcall⟩
      · exact (h c).revoked tenant' hbridge hold
      · obtain ⟨found, hfound, hrefuses⟩ := hrevokes k hcall
        refine ((h c).current tenant' found hbridge hfound).imp fun g₁ _ hread => ⟨hread.1, ?_⟩
        rw [hread.2]
        exact hrefuses

theorem founded_of_run (hrun : run (step env) {} actions = some g) : g.Founded env actions := by
  refine run_invariant (fun _ => .init) ?_ hrun
  intro actions g a g' hbefore hfounded hstep
  have hinv := inv_of_reachable (reachable_of_run hbefore)
  exact Founded.change (fun c => (hfounded c).later) hinv (fun P hP => (Past.now hbefore hP).later)
    (List.mem_append_right _ (List.mem_singleton_self a)) (step_change hinv hstep)

/-- In every run, a session is made for the handshake that its connection sent, and was admitted by a
row that was active while the connection waited for it, with the key of that handshake and an agent of
its list; and it is closed as revoked, by its reason or in the registry, only where, at some time since,
no active row had its id and that key. -/
theorem admitted_or_revoked (env : Env) (actions : List Act) (g : Gateway)
    (hrun : run (step env) {} actions = some g) (c : ConnRef) (tenant : Tenant)
    (hbridge : (g.conns c).bridge = some tenant) :
    (Heard env actions c tenant.handshake ∧
      tenant = Gateway.tenant env tenant.handshake tenant.client tenant.agent ∧
      Past (step env) {} actions fun g₁ => (g₁.conns c).pc = .resolving tenant.handshake none ∧
        tenant.client ∈ g₁.db ∧ tenant.client.isActive = true ∧
          tenant.client.clientKey = tenant.handshake.clientKey ∧
            ∀ agents, tenant.client.agents env.blank = some agents → tenant.agent ∈ agents) ∧
    ((g.conns c).session.close.reason = some .revoked ∨ (g.conns c).recorded = some .revoked →
      Past (step env) {} actions fun g₁ => (g₁.conns c).bridge = some tenant ∧
        ¬ g₁.db.Has tenant.client.id tenant.client.clientKey) := by
  have hfounded := founded_of_run hrun c
  refine ⟨?_, fun hshown => ?_⟩
  · obtain ⟨hheard, htenant, hadmits⟩ := hfounded.admitted tenant hbridge
    refine ⟨hheard, htenant, hadmits.imp ?_⟩
    rintro g₁ hreach ⟨hpc, config, gatewayInfo, hlookup, hagent⟩
    obtain ⟨hkept, -⟩ := rows_of_reachable hreach
    rcases Database.lookup_cases hkept tenant.handshake.clientKey with
      ⟨rec_, hrec, hkey, hactive, hfound⟩ | ⟨_, _, _, _, hfound⟩ | ⟨_, hfound⟩
    · rw [hlookup] at hfound
      obtain ⟨rfl, rfl⟩ := Prod.mk.inj (Except.ok.inj hfound)
      exact ⟨hpc, hrec, hactive, hkey, fun agents hagents => Admin.resolveAgent_allowed hagent hagents⟩
    · rw [hlookup] at hfound
      cases hfound
    · rw [hlookup] at hfound
      cases hfound
  · have hok := ((inv_of_reachable (reachable_of_run hrun)).conns c).session hbridge
    have hrevoked : (g.conns c).session.Revoked := by
      rcases hshown with hreason | hstatus
      · exact .inl hreason
      · rw [Conn.recorded, hbridge] at hstatus
        exact .inr (.inr (hok.revoked (Option.some.inj hstatus)))
    refine (hfounded.revoked tenant hbridge hrevoked).imp fun g₁ hreach hread => ⟨hread.1, ?_⟩
    obtain ⟨hkept, hunique⟩ := rows_of_reachable hreach
    exact (refuses_lookup hkept hunique _ _).mp hread.2

/-- A client that is there is deactivated, and its session finds out. -/
def deactivated : List Act :=
  welcome ++ [.admin (.patch (py "1") {} (some false)), .revalidates 0, .revalidated 0 2]

theorem deactivated_runs : (run (step deployed) {} deactivated).isSome = true := by
  decide +kernel

def afterDeactivated : Gateway := (run (step deployed) {} deactivated).get deactivated_runs

theorem admitted_or_revoked_deactivated : ∃ tenant : Tenant, tenant.client.clientKey = py "k" ∧
    Heard deployed deactivated 0 tenant.handshake ∧
      Past (step deployed) {} deactivated fun g => (g.conns 0).bridge = some tenant ∧
        ¬ g.db.Has tenant.client.id tenant.client.clientKey := by
  have hrun : run (step deployed) {} deactivated = some afterDeactivated := (Option.some_get _).symm
  have hkey : (afterDeactivated.conns 0).bridge.map (·.client.clientKey) = some (py "k") := by
    decide +kernel
  have hreason : (afterDeactivated.conns 0).session.close.reason = some .revoked := by decide +kernel
  generalize afterDeactivated = g at *
  obtain ⟨tenant, htenant, hkey⟩ := Option.map_eq_some_iff.mp hkey
  obtain ⟨⟨hheard, -⟩, hrevoked⟩ := admitted_or_revoked deployed deactivated g hrun 0 tenant htenant
  exact ⟨tenant, hkey, hheard, hrevoked (.inl hreason)⟩

end Gateway
