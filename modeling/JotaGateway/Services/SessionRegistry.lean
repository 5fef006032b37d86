-- SUMMARY: `SessionRegistry`: the records of the sessions, and the eviction of the oldest that is not active.
import JotaGateway.Python.Value
import Mathlib.Data.List.Induction
import Mathlib.Data.List.Nodup
import Mathlib.Tactic.Common

/-!
# The session registry

A Python `dict` keeps its keys in the order of insertion, so the records are a
list. A registration evicts one record at most: more than one may be over the
size after many sessions were active together.
-/

namespace Sessions

inductive SessionStatus where
  | active
  | completed
  | error
  | revoked
  deriving DecidableEq, Repr

/-- What `register` reads of its tracker. -/
structure PipelineTracker where
  sessionId : PyStr
  clientId : PyStr
  inputMode : PyStr
  outputMode : List PyStr

/-- `τ` is the type of `datetime.now(UTC)`. -/
structure SessionRecord (τ : Type) where
  sessionId : PyStr
  clientId : PyStr
  inputMode : PyStr
  outputMode : List PyStr
  startedAt : τ
  endedAt : Option τ := none
  status : SessionStatus := .active

variable {τ : Type}

def SessionRecord.active (r : SessionRecord τ) : Bool := r.status = .active

/-- `_sessions` in the order of its keys, which are those of the records. -/
structure SessionRegistry (τ : Type) where
  maxsize : Int
  sessions : List (SessionRecord τ) := []
  nodup : (sessions.map (·.sessionId)).Nodup := by exact .nil

/-- `_evict_if_needed` -/
def evictIfNeeded (maxsize : Int) (sessions : List (SessionRecord τ)) : List (SessionRecord τ) :=
  if sessions.length ≤ maxsize then sessions else sessions.eraseP fun r => !r.active

theorem evictIfNeeded_sublist (maxsize : Int) (sessions : List (SessionRecord τ)) :
    (evictIfNeeded maxsize sessions).Sublist sessions := by
  unfold evictIfNeeded
  split
  · exact .refl _
  · exact List.eraseP_sublist

namespace SessionRegistry

/-- The records of other sessions than `sid`. -/
def others (s : SessionRegistry τ) (sid : PyStr) : List (SessionRecord τ) :=
  s.sessions.filter fun r => r.sessionId ≠ sid

/-- The record that `register` makes. -/
def record (t : PipelineTracker) (now : τ) : SessionRecord τ where
  sessionId := t.sessionId
  clientId := t.clientId
  inputMode := t.inputMode
  outputMode := t.outputMode
  startedAt := now

theorem nodup_registered (s : SessionRegistry τ) (t : PipelineTracker) (now : τ) :
    ((s.others t.sessionId ++ [record t now]).map (·.sessionId)).Nodup := by
  rw [List.map_append]
  refine (s.nodup.sublist (List.filter_sublist.map _)).append (List.nodup_singleton _) ?_
  intro sid hother hnew
  obtain ⟨r, hr, rfl⟩ := List.mem_map.mp hother
  have hne : r.sessionId ≠ t.sessionId := of_decide_eq_true (List.mem_filter.mp hr).2
  exact hne (List.mem_singleton.mp hnew)

def register (s : SessionRegistry τ) (t : PipelineTracker) (now : τ) : SessionRegistry τ where
  maxsize := s.maxsize
  sessions := evictIfNeeded s.maxsize (s.others t.sessionId ++ [record t now])
  nodup := (s.nodup_registered t now).sublist ((evictIfNeeded_sublist _ _).map _)

/-- The record of `sid` once it is closed. -/
def closeRecord (sid : PyStr) (status : SessionStatus) (now : τ) (r : SessionRecord τ) :
    SessionRecord τ :=
  if r.sessionId = sid then { r with status := status, endedAt := some now } else r

theorem closeRecord_sessionId (sid : PyStr) (status : SessionStatus) (now : τ)
    (r : SessionRecord τ) : (closeRecord sid status now r).sessionId = r.sessionId := by
  unfold closeRecord
  split <;> rfl

theorem map_closeRecord (sid : PyStr) (status : SessionStatus) (now : τ)
    (sessions : List (SessionRecord τ)) :
    (sessions.map (closeRecord sid status now)).map (·.sessionId) =
      sessions.map (·.sessionId) := by
  simp only [List.map_map, Function.comp_def, closeRecord_sessionId]

def close (s : SessionRegistry τ) (sid : PyStr) (status : SessionStatus) (now : τ) :
    SessionRegistry τ where
  maxsize := s.maxsize
  sessions := s.sessions.map (closeRecord sid status now)
  nodup := (map_closeRecord sid status now s.sessions).symm ▸ s.nodup

def getAll (s : SessionRegistry τ) : List (SessionRecord τ) := s.sessions.reverse

def get (s : SessionRegistry τ) (sid : PyStr) : Option (SessionRecord τ) :=
  s.sessions.find? fun r => r.sessionId = sid

/-- At most `maxsize` records, or no record but of active sessions. -/
def Bounded (s : SessionRegistry τ) : Prop :=
  s.sessions.length ≤ s.maxsize ∨ ∀ r ∈ s.sessions, r.active = true

/-- A registration of `sid` evicts as many as have to go: the others are no more than
`maxsize`, or at most one of them is not active. -/
def Fits (s : SessionRegistry τ) (sid : PyStr) : Prop :=
  (s.others sid).length ≤ s.maxsize ∨ ((s.others sid).filter fun r => !r.active).length ≤ 1

end SessionRegistry

open SessionRegistry

-- ---------------------------------------------------------------------------
-- Runs
-- ---------------------------------------------------------------------------

inductive Op (τ : Type) where
  | register (t : PipelineTracker) (now : τ)
  | close (sid : PyStr) (status : SessionStatus) (now : τ)

/-- It registers `sid`. -/
def Op.registers (sid : PyStr) : Op τ → Bool
  | .register t _ => t.sessionId = sid
  | .close _ _ _ => false

def apply (s : SessionRegistry τ) : Op τ → SessionRegistry τ
  | .register t now => s.register t now
  | .close sid status now => s.close sid status now

/-- The registry after `ops`. -/
def run (maxsize : Int) (ops : List (Op τ)) : SessionRegistry τ := ops.foldl apply { maxsize }

theorem run_concat (maxsize : Int) (ops : List (Op τ)) (op : Op τ) :
    run maxsize (ops ++ [op]) = apply (run maxsize ops) op := by
  rw [run, List.foldl_append]
  rfl

/-- When `sid` was last registered: after how many calls, its own included; 0 if never. -/
def registeredAt (ops : List (Op τ)) (sid : PyStr) : Nat :=
  ops.length - ops.reverse.findIdx (Op.registers sid)

theorem registeredAt_le (ops : List (Op τ)) (sid : PyStr) : registeredAt ops sid ≤ ops.length :=
  Nat.sub_le _ _

theorem registeredAt_concat (ops : List (Op τ)) (op : Op τ) (sid : PyStr) :
    registeredAt (ops ++ [op]) sid =
      if op.registers sid then ops.length + 1 else registeredAt ops sid := by
  unfold registeredAt
  rw [List.reverse_append, List.reverse_singleton, List.singleton_append, List.findIdx_cons,
    List.length_append, List.length_singleton]
  cases op.registers sid with
  | true => simp only [cond_true, if_true, Nat.sub_zero]
  | false => simp only [cond_false, Bool.false_eq_true, if_false, Nat.add_sub_add_right]

/-- `r` was registered before `q`. -/
def Older (ops : List (Op τ)) (r q : SessionRecord τ) : Prop :=
  registeredAt ops r.sessionId < registeredAt ops q.sessionId

/-- A registration comes behind all there are. -/
theorem ordered_append {ops : List (Op τ)} {s : SessionRegistry τ}
    (h : s.sessions.Pairwise (Older ops)) (t : PipelineTracker) (now : τ) :
    (s.others t.sessionId ++ [record t now]).Pairwise (Older (ops ++ [.register t now])) := by
  have hothers : ∀ r ∈ s.others t.sessionId,
      registeredAt (ops ++ [.register t now]) r.sessionId = registeredAt ops r.sessionId := by
    intro r hr
    have hne : r.sessionId ≠ t.sessionId := of_decide_eq_true (List.mem_filter.mp hr).2
    rw [registeredAt_concat, Op.registers, decide_eq_false hne.symm]
    rfl
  have hnew : registeredAt (ops ++ [.register t now]) (record t now).sessionId = ops.length + 1 := by
    rw [registeredAt_concat, Op.registers, record, decide_eq_true rfl, if_pos rfl]
  refine List.pairwise_append.mpr ⟨?_, List.pairwise_singleton _ _, ?_⟩
  · refine (h.sublist List.filter_sublist).imp_of_mem ?_
    intro r q hr hq holder
    rw [Older, hothers r hr, hothers q hq]
    exact holder
  · intro r hr q hq
    obtain rfl := List.mem_singleton.mp hq
    rw [Older, hothers r hr, hnew]
    exact Nat.lt_succ_of_le (registeredAt_le ops _)

/-- The records are stored in the order of their registrations. -/
theorem stored_in_order (maxsize : Int) (ops : List (Op τ)) :
    (run maxsize ops).sessions.Pairwise (Older ops) := by
  induction ops using List.reverseRecOn with
  | nil => exact .nil
  | append_singleton ops op ih =>
    rw [run_concat]
    cases op with
    | register t now => exact (ordered_append ih t now).sublist (evictIfNeeded_sublist _ _)
    | close sid status now =>
      refine List.pairwise_map.mpr (ih.imp ?_)
      intro r q holder
      rw [Older, closeRecord_sessionId, closeRecord_sessionId, registeredAt_concat,
        registeredAt_concat]
      exact holder

-- ---------------------------------------------------------------------------
-- What a registration evicts
-- ---------------------------------------------------------------------------

/-- The record that is evicted is the first that is not active. -/
theorem evictIfNeeded_cases (maxsize : Int) (sessions : List (SessionRecord τ)) :
    (sessions.length ≤ maxsize ∨ ∀ r ∈ sessions, r.active = true) ∧
        evictIfNeeded maxsize sessions = sessions ∨
      maxsize < sessions.length ∧ ∃ first r rest, sessions = first ++ r :: rest ∧
        r.active = false ∧ (∀ q ∈ first, q.active = true) ∧
          evictIfNeeded maxsize sessions = first ++ rest := by
  unfold evictIfNeeded
  split
  · rename_i hle
    exact .inl ⟨.inl hle, rfl⟩
  · rename_i hlt
    by_cases hall : ∀ r ∈ sessions, r.active = true
    · refine .inl ⟨.inr hall, List.eraseP_of_forall_not ?_⟩
      intro r hr
      rw [hall r hr]
      exact Bool.false_ne_true
    · obtain ⟨q, hq, hover⟩ : ∃ q ∈ sessions, ¬ q.active = true := by simpa using hall
      have hover' : (!q.active) = true := by simpa using hover
      have hfound : ∃ r first rest, (∀ q ∈ first, ¬ (!q.active) = true) ∧ (!r.active) = true ∧
          sessions = first ++ r :: rest ∧
            sessions.eraseP (fun r => !r.active) = first ++ rest :=
        List.exists_of_eraseP hq hover'
      obtain ⟨r, first, rest, hfirst, hr, hsplit, herase⟩ := hfound
      refine .inr ⟨Int.not_le.mp hlt, first, r, rest, hsplit, by simpa using hr, ?_, herase⟩
      intro q hq
      simpa using hfirst q hq

theorem bounded_register_iff (s : SessionRegistry τ) (t : PipelineTracker) (now : τ) :
    (s.register t now).Bounded ↔ s.Fits t.sessionId := by
  have hnew : (record t now).active = true := rfl
  have hlength : (s.others t.sessionId ++ [record t now]).length =
      (s.others t.sessionId).length + 1 := by
    rw [List.length_append, List.length_singleton]
  have hover : (s.others t.sessionId ++ [record t now]).filter (fun r => !r.active) =
      (s.others t.sessionId).filter fun r => !r.active := by
    rw [List.filter_append]
    simp [hnew]
  unfold Bounded Fits register
  dsimp only
  rcases evictIfNeeded_cases s.maxsize (s.others t.sessionId ++ [record t now]) with
    ⟨hstays, heq⟩ | ⟨hlt, first, r, rest, hsplit, hr, hfirst, heq⟩
  · rw [heq]
    refine iff_of_true hstays ?_
    rcases hstays with hle | hall
    · left
      omega
    · right
      have hnone : (s.others t.sessionId ++ [record t now]).filter (fun r => !r.active) = [] :=
        List.filter_eq_nil_iff.mpr fun r hr => by simp [hall r hr]
      rw [← hover, hnone]
      exact Nat.zero_le 1
  · have hcount : (s.others t.sessionId).filter (fun r => !r.active) =
        r :: rest.filter fun r => !r.active := by
      have hactive : first.filter (fun r => !r.active) = [] :=
        List.filter_eq_nil_iff.mpr fun q hq => by simp [hfirst q hq]
      rw [← hover, hsplit, List.filter_append, hactive, List.nil_append,
        List.filter_cons_of_pos (by simp [hr])]
    have hrest : ((s.others t.sessionId).filter fun r => !r.active).length ≤ 1 ↔
        ∀ q ∈ first ++ rest, q.active = true := by
      rw [hcount, List.length_cons, Nat.succ_le_succ_iff, Nat.le_zero, List.length_eq_zero_iff,
        List.filter_eq_nil_iff]
      constructor
      · intro hnone q hq
        rcases List.mem_append.mp hq with hq | hq
        · exact hfirst q hq
        · simpa using hnone q hq
      · intro hall q hq
        simp [hall q (List.mem_append_right _ hq)]
    have hshort : (first ++ rest).length = (s.others t.sessionId).length := by
      have hboth := congrArg List.length hsplit
      rw [hlength, List.length_append, List.length_cons] at hboth
      rw [List.length_append]
      omega
    rw [heq, hshort, hrest]

/-- Who leaves at a registration is the oldest that is not active. -/
theorem register_evicts (maxsize : Int) (ops : List (Op τ)) (t : PipelineTracker) (now : τ)
    {r : SessionRecord τ} (hr : r ∈ (run maxsize ops).sessions) (hother : r.sessionId ≠ t.sessionId)
    (hgone : r ∉ ((run maxsize ops).register t now).sessions) :
    r.active = false ∧ ∀ q ∈ ((run maxsize ops).register t now).sessions, q.active = false →
      Older (ops ++ [.register t now]) r q := by
  have hmem : r ∈ (run maxsize ops).others t.sessionId ++ [record t now] :=
    List.mem_append_left _ (List.mem_filter.mpr ⟨hr, decide_eq_true hother⟩)
  rcases evictIfNeeded_cases (run maxsize ops).maxsize
      ((run maxsize ops).others t.sessionId ++ [record t now]) with
    ⟨-, heq⟩ | ⟨-, first, q, rest, hsplit, hq, hfirst, heq⟩
  · have hkept : ((run maxsize ops).register t now).sessions =
        (run maxsize ops).others t.sessionId ++ [record t now] := heq
    rw [hkept] at hgone
    exact absurd hmem hgone
  · have hkept : ((run maxsize ops).register t now).sessions = first ++ rest := heq
    rw [hkept] at hgone ⊢
    rw [hsplit] at hmem
    -- the evicted record is the only one that is gone
    obtain rfl : r = q := by
      rcases List.mem_append.mp hmem with hmem | hmem
      · exact absurd (List.mem_append_left _ hmem) hgone
      · rcases List.mem_cons.mp hmem with heq | hmem
        · exact heq
        · exact absurd (List.mem_append_right _ hmem) hgone
    refine ⟨hq, ?_⟩
    intro q' hq' hover
    rcases List.mem_append.mp hq' with hq' | hq'
    · rw [hfirst q' hq'] at hover
      cases hover
    · have hordered := ordered_append (stored_in_order maxsize ops) t now
      rw [hsplit] at hordered
      exact List.rel_of_pairwise_cons (List.pairwise_append.mp hordered).2.1 hq'

-- ---------------------------------------------------------------------------
-- The promise of the registry
-- ---------------------------------------------------------------------------

/-- What the registry promises at every call of `ops`. -/
structure Contract (maxsize : Int) (ops : List (Op τ)) : Prop where
  bounded : ∀ before t now after, ops = before ++ .register t now :: after →
    (run maxsize (before ++ [.register t now])).Bounded
  /-- an active record stays -/
  kept : ∀ before op after, ops = before ++ op :: after →
    ∀ r ∈ (run maxsize before).sessions, r.active = true → op.registers r.sessionId = false →
      ∃ r' ∈ (run maxsize (before ++ [op])).sessions, r'.sessionId = r.sessionId
  /-- who leaves is not active, and older than all that are not active either -/
  oldest : ∀ before op after, ops = before ++ op :: after →
    ∀ r ∈ (run maxsize before).sessions, op.registers r.sessionId = false →
      (∀ r' ∈ (run maxsize (before ++ [op])).sessions, r'.sessionId ≠ r.sessionId) →
        r.active = false ∧ ∀ q ∈ (run maxsize (before ++ [op])).sessions, q.active = false →
          Older (before ++ [op]) r q
  /-- `get_all` lists what is stored, the last registered first -/
  listed : ∀ before after, ops = before ++ after →
    (run maxsize before).getAll.Perm (run maxsize before).sessions ∧
      (run maxsize before).getAll.Pairwise fun r q => Older before q r

/-- A record leaves in a registration only. -/
theorem leaves (maxsize : Int) (before : List (Op τ)) (op : Op τ) {r : SessionRecord τ}
    (hr : r ∈ (run maxsize before).sessions) (hother : op.registers r.sessionId = false)
    (hgone : ∀ r' ∈ (run maxsize (before ++ [op])).sessions, r'.sessionId ≠ r.sessionId) :
    r.active = false ∧ ∀ q ∈ (run maxsize (before ++ [op])).sessions, q.active = false →
      Older (before ++ [op]) r q := by
  rw [run_concat] at hgone ⊢
  cases op with
  | register t now =>
    have hne : r.sessionId ≠ t.sessionId := Ne.symm (of_decide_eq_false hother)
    exact register_evicts maxsize before t now hr hne fun hmem => hgone r hmem rfl
  | close sid status now =>
    have hmem : closeRecord sid status now r ∈
        (apply (run maxsize before) (.close sid status now)).sessions := List.mem_map_of_mem hr
    exact absurd (closeRecord_sessionId sid status now r) (hgone _ hmem)

/-- The registry keeps its promise in a run exactly if each registration evicts as many as have
to go: the other records are no more than `maxsize`, or at most one of them is not active. -/
theorem contract_iff (maxsize : Int) (ops : List (Op τ)) :
    Contract maxsize ops ↔ ∀ before t now after, ops = before ++ .register t now :: after →
      (run maxsize before).Fits t.sessionId := by
  constructor
  · intro h before t now after hops
    have hbounded := h.bounded before t now after hops
    rw [run_concat] at hbounded
    exact (bounded_register_iff _ t now).mp hbounded
  · intro hfits
    refine ⟨?_, ?_, ?_, ?_⟩
    · intro before t now after hops
      rw [run_concat]
      exact (bounded_register_iff _ t now).mpr (hfits before t now after hops)
    · intro before op after _ r hr hactive hother
      by_contra hgone
      have hover := (leaves maxsize before op hr hother fun r' hr' heq => hgone ⟨r', hr', heq⟩).1
      rw [hactive] at hover
      cases hover
    · intro before op after _ r hr hother hgone
      exact leaves maxsize before op hr hother hgone
    · intro before after _
      refine ⟨List.reverse_perm _, ?_⟩
      exact List.pairwise_reverse.mpr (stored_in_order maxsize before)

/-- A session that gives only its id. -/
def tracker (sid : Nat) : PipelineTracker where
  sessionId := [sid]
  clientId := []
  inputMode := []
  outputMode := []

/-- Two sessions at once with room for one, both closed, and a third one. -/
def burst : List (Op Nat) :=
  [.register (tracker 1) 0, .register (tracker 2) 0, .close [1] .completed 1,
    .close [2] .completed 1, .register (tracker 3) 2]

/-- After a burst two records are stored, one of them over. -/
theorem burst_unbounded : ¬ ∀ (maxsize : Int) (ops : List (Op Nat)), Contract maxsize ops := by
  intro h
  have hbounded := (h 1 burst).bounded (burst.take 4) (tracker 3) 2 [] rfl
  rcases hbounded with hlength | hactive
  · exact absurd hlength (by decide)
  · exact absurd hactive (by decide)

end Sessions
