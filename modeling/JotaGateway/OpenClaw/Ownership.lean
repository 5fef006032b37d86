-- SUMMARY: Who owns a session key: the maps of the turn registry stay in step over any history of requests, belated cleanups included.
import JotaGateway.Base.Transition
import JotaGateway.OpenClaw.Registry

/-!
# Ownership of a session key

The registry together with the pairs `register` has accepted. A request cleans
up with the pair it was accepted with, once or more, at once or long after
`error_all` has dropped its turn and another request has taken the key.
-/

namespace Ownership

variable {ι : Type*}

-- ---------------------------------------------------------------------------
-- Histories
-- ---------------------------------------------------------------------------

structure History (ι : Type*) where
  registry : TurnRegistry ι
  /-- the pairs `register` has accepted -/
  accepted : List (ReqId × SessionKey) := []

/-- A request id is fresh, and only an accepted pair is cleaned up. -/
def step (h : History ι) : TurnRegistry.Op ι → Option (History ι)
  | .register reqId sk =>
    if reqId ∈ h.accepted.map (·.1) then
      none
    else
      match h.registry.register reqId sk with
      | none => some h
      | some (registry, _) => some { registry, accepted := h.accepted ++ [(reqId, sk)] }
  | .unregister sk reqId =>
    if (reqId, sk) ∈ h.accepted then
      some { h with registry := h.registry.unregister sk reqId }
    else
      none
  | op => some { h with registry := h.registry.apply op }

def start (ι : Type*) (maxsize : Nat) : History ι := { registry := { maxQueueSize := maxsize } }

-- ---------------------------------------------------------------------------
-- The invariant
-- ---------------------------------------------------------------------------

/-- `_req_to_session` is the inverse of `_session_owner`, and an owner was accepted. -/
structure InStep (h : History ι) : Prop where
  wf : h.registry.Wf
  inverse : ∀ {reqId sk},
    h.registry.reqToSession.lookup reqId = some sk ↔ h.registry.sessionOwner.lookup sk = some reqId
  accepted : ∀ {reqId sk},
    h.registry.sessionOwner.lookup sk = some reqId → (reqId, sk) ∈ h.accepted
  once : ∀ {reqId sk sk'}, (reqId, sk) ∈ h.accepted → (reqId, sk') ∈ h.accepted → sk = sk'

namespace InStep

theorem init (maxsize : Nat) : InStep (start ι maxsize) where
  wf := .init maxsize
  inverse := by simp [start]
  accepted h := by simp [start] at h
  once h := by cases h

/-- An operation that leaves the owners alone. -/
theorem keep {h : History ι} (hi : InStep h) {r : TurnRegistry ι} (hwf : r.Wf)
    (howner : r.sessionOwner = h.registry.sessionOwner)
    (hreq : r.reqToSession = h.registry.reqToSession) : InStep { h with registry := r } := by
  refine ⟨hwf, ?_, ?_, hi.once⟩
  · rw [howner, hreq]
    exact hi.inverse
  · rw [howner]
    exact hi.accepted

theorem register {h : History ι} (hi : InStep h) {r : TurnRegistry ι} {reqId : ReqId}
    {sk : SessionKey} {q : QueueRef} (hnew : reqId ∉ h.accepted.map (·.1))
    (hreg : h.registry.register reqId sk = some (r, q)) :
    InStep { registry := r, accepted := h.accepted ++ [(reqId, sk)] } := by
  have hwf : r.Wf := hi.wf.register hreg
  obtain ⟨hsk, -, rfl⟩ := TurnRegistry.register_eq_some hreg
  have hfresh : ∀ sk', (reqId, sk') ∉ h.accepted := by
    intro sk' hmem
    exact hnew (List.mem_map_of_mem hmem)
  have hfree : h.registry.sessionOwner.lookup sk = none :=
    AList.lookup_eq_none.mpr fun hmem => hsk (hi.wf.owned.mpr hmem)
  refine ⟨hwf, ?_, ?_, ?_⟩
  · intro reqId' sk'
    rcases eq_or_ne reqId' reqId with rfl | hreq
    · rcases eq_or_ne sk' sk with rfl | hkey
      · simp only [AList.lookup_insert]
      · rw [AList.lookup_insert, AList.lookup_insert_ne hkey]
        refine iff_of_false (fun heq => hkey (Option.some.inj heq).symm) fun howner => ?_
        exact hfresh sk' (hi.accepted howner)
    · rw [AList.lookup_insert_ne hreq]
      rcases eq_or_ne sk' sk with rfl | hkey
      · rw [AList.lookup_insert]
        refine iff_of_false (fun hreq' => ?_) fun heq => hreq (Option.some.inj heq).symm
        rw [hi.inverse, hfree] at hreq'
        cases hreq'
      · rw [AList.lookup_insert_ne hkey]
        exact hi.inverse
  · intro reqId' sk' howner
    rcases TurnRegistry.owner_of_register hreg howner with hold | ⟨rfl, rfl⟩
    · exact List.mem_append_left _ (hi.accepted hold)
    · exact List.mem_append_right _ (List.mem_singleton.mpr rfl)
  · intro reqId' a b ha hb
    rcases List.mem_append.mp ha with ha | ha <;> rcases List.mem_append.mp hb with hb | hb
    · exact hi.once ha hb
    · cases List.mem_singleton.mp hb
      exact absurd ha (hfresh a)
    · cases List.mem_singleton.mp ha
      exact absurd hb (hfresh b)
    · cases List.mem_singleton.mp ha
      cases List.mem_singleton.mp hb
      rfl

/-- The request of an accepted pair that owns its key no more is known to no map. -/
theorem forgotten {h : History ι} (hi : InStep h) {reqId : ReqId} {sk : SessionKey}
    (hmem : (reqId, sk) ∈ h.accepted) (howner : h.registry.sessionOwner.lookup sk ≠ some reqId) :
    reqId ∉ h.registry.reqToSession := by
  refine AList.lookup_eq_none.mp ?_
  cases hlookup : h.registry.reqToSession.lookup reqId with
  | none => rfl
  | some sk' =>
    have howner' := hi.inverse.mp hlookup
    rw [hi.once hmem (hi.accepted howner')] at howner
    exact absurd howner' howner

/-- A belated cleanup changes nothing. -/
theorem unregister_superseded {h : History ι} (hi : InStep h) {reqId : ReqId} {sk : SessionKey}
    (hmem : (reqId, sk) ∈ h.accepted) (howner : h.registry.sessionOwner.lookup sk ≠ some reqId) :
    h.registry.unregister sk reqId = h.registry := by
  have herase : h.registry.reqToSession.erase reqId = h.registry.reqToSession :=
    AList.ext (List.kerase_of_notMem_keys (hi.forgotten hmem howner))
  simp only [TurnRegistry.unregister, howner, if_false, herase]

theorem unregister {h : History ι} (hi : InStep h) {reqId : ReqId} {sk : SessionKey}
    (hmem : (reqId, sk) ∈ h.accepted) :
    InStep { h with registry := h.registry.unregister sk reqId } := by
  have hwf : (h.registry.unregister sk reqId).Wf := hi.wf.unregister
  rcases eq_or_ne (h.registry.sessionOwner.lookup sk) (some reqId) with howner | howner
  · simp only [TurnRegistry.unregister, howner, if_true] at hwf ⊢
    refine ⟨hwf, ?_, ?_, hi.once⟩
    · intro reqId' sk'
      rcases eq_or_ne reqId' reqId with rfl | hreq
      · rw [AList.lookup_erase]
        rcases eq_or_ne sk' sk with rfl | hkey
        · rw [AList.lookup_erase]
          exact iff_of_false nofun nofun
        · rw [AList.lookup_erase_ne hkey]
          refine iff_of_false nofun fun howner' => ?_
          exact hkey (hi.once (hi.accepted howner') hmem)
      · rw [AList.lookup_erase_ne hreq]
        rcases eq_or_ne sk' sk with rfl | hkey
        · rw [AList.lookup_erase, hi.inverse, howner]
          refine iff_of_false (fun heq => hreq (Option.some.inj heq).symm) nofun
        · rw [AList.lookup_erase_ne hkey]
          exact hi.inverse
    · intro reqId' sk' howner'
      rcases eq_or_ne sk' sk with rfl | hkey
      · rw [AList.lookup_erase] at howner'
        cases howner'
      · rw [AList.lookup_erase_ne hkey] at howner'
        exact hi.accepted howner'
  · rw [hi.unregister_superseded hmem howner]
    exact hi

theorem step {h h' : History ι} {op : TurnRegistry.Op ι} (hi : InStep h)
    (hstep : Ownership.step h op = some h') : InStep h' := by
  cases op with
  | register reqId sk =>
    simp only [Ownership.step] at hstep
    split at hstep
    · cases hstep
    · rename_i hnew
      split at hstep
      · cases hstep
        exact hi
      · rename_i hreg
        cases hstep
        exact hi.register hnew hreg
  | unregister sk reqId =>
    simp only [Ownership.step] at hstep
    split at hstep
    · rename_i hmem
      cases hstep
      exact hi.unregister hmem
    · cases hstep
  | deliverBySession sk i now =>
    cases hstep
    exact hi.keep (hi.wf.apply _) (TurnRegistry.deliverBySession_owners _ _ _ _).1
      (TurnRegistry.deliverBySession_owners _ _ _ _).2
  | deliverByReq reqId i now =>
    cases hstep
    exact hi.keep (hi.wf.apply _) (TurnRegistry.deliverByReq_owners _ _ _ _).1
      (TurnRegistry.deliverByReq_owners _ _ _ _).2
  | isAborted sk now =>
    cases hstep
    exact hi.keep (hi.wf.apply _) rfl rfl
  | get q =>
    cases hstep
    have hget : (h.registry.apply (.get q)).sessionOwner = h.registry.sessionOwner ∧
        (h.registry.apply (.get q)).reqToSession = h.registry.reqToSession := by
      simp only [TurnRegistry.apply]
      cases hq : h.registry.get q with
      | none => exact ⟨rfl, rfl⟩
      | some p =>
        obtain ⟨rest, -, heq⟩ := TurnRegistry.get_eq_some hq
        rw [Option.map_some, Option.getD_some, heq]
        exact ⟨rfl, rfl⟩
    exact hi.keep (hi.wf.apply _) hget.1 hget.2
  | errorAll message =>
    cases hstep
    refine ⟨hi.wf.errorAll, ?_, ?_, hi.once⟩
    · intro reqId sk
      refine iff_of_false (fun hsk => ?_) fun howner => ?_
      · cases hsk
      · cases howner
    · rintro reqId sk ⟨⟩

end InStep

-- ---------------------------------------------------------------------------
-- Every history
-- ---------------------------------------------------------------------------

open Transition

end Ownership
