-- SUMMARY: What a turn's consumer dequeues from its bounded queue, over any interleaving of producers, `error_all` and `unregister`.
import JotaGateway.Base.Transition
import JotaGateway.OpenClaw.Registry

/-!
# Turn queues

The registry together with a log of what has passed through each queue: what
was delivered to its turn, what the turn's consumer has dequeued, and what has
happened to the queue. The law of one queue is an invariant of all runs.
-/

namespace TurnTraffic

variable {ι : Type*}

-- ---------------------------------------------------------------------------
-- Runs
-- ---------------------------------------------------------------------------

/-- What has passed through one turn queue. -/
structure QueueLog (ι : Type*) where
  /-- the items handed to the turn, dropped ones included -/
  delivered : List ι := []
  got : List (Item ι) := []
  /-- the turn overflowed -/
  overflowed : Bool := false
  /-- the message of the `error_all` that dropped the turn -/
  dropped : Option PyStr := none
  /-- how many items the consumer had got when `error_all` evicted the next one -/
  evicted : Option Nat := none

structure Traffic (ι : Type*) where
  registry : TurnRegistry ι
  log : QueueRef → QueueLog ι := fun _ => {}

/-- The items among queue entries. -/
def items (entries : List (Item ι)) : List ι :=
  entries.filterMap fun
    | .item i => some i
    | _ => none

/-- The items delivered to the turn, less the one `error_all` evicted. -/
def QueueLog.kept (log : QueueLog ι) : List ι :=
  match log.evicted with
  | none => log.delivered
  | some k => log.delivered.eraseIdx k

/-- A delivery to the turn that owns `sk`, if any. -/
def Traffic.deliver (t : Traffic ι) (sk : SessionKey) (i : ι) (now : Time) : Traffic ι :=
  let registry := (t.registry.deliverBySession sk i now).1
  match t.registry.sessions.lookup sk with
  | none => { t with registry := registry }
  | some q =>
    { registry := registry
      log := Function.update t.log q { t.log q with
        delivered := (t.log q).delivered ++ [i]
        overflowed := decide (sk ∈ registry.overflowed) } }

/-- What `error_all` does to the log of a turn it drops. -/
def Traffic.drop (t : Traffic ι) (message : PyStr) (q : QueueRef) : QueueLog ι :=
  let evicts := BoundedQueue.full t.registry.maxQueueSize (t.registry.queues q) &&
    !(t.log q).overflowed
  { t.log q with
    dropped := some message
    evicted := if evicts then some (items (t.log q).got).length else none }

def step (t : Traffic ι) : TurnRegistry.Op ι → Option (Traffic ι)
  | .register reqId sk =>
    match t.registry.register reqId sk with
    | none => some t
    | some (registry, _) => some { t with registry := registry }
  | .deliverBySession sk i now => some (t.deliver sk i now)
  | .deliverByReq reqId i now =>
    match t.registry.reqToSession.lookup reqId with
    | none => some t
    | some sk => some (t.deliver sk i now)
  | .isAborted sk now => some { t with registry := (t.registry.isAborted sk now).1 }
  | .get q =>
    -- the consumer stops at the first marker
    if (t.log q).got.any Item.isMarker then
      none
    else
      match t.registry.get q with
      | none => none
      | some (registry, i) =>
        some { registry := registry
               log := Function.update t.log q { t.log q with got := (t.log q).got ++ [i] } }
  | .errorAll message =>
    some { registry := t.registry.errorAll message
           log := fun q => if t.registry.live q then t.drop message q else t.log q }
  | .unregister sk reqId => some { t with registry := t.registry.unregister sk reqId }

def start (ι : Type*) (maxsize : Nat) : Traffic ι := { registry := { maxQueueSize := maxsize } }

-- ---------------------------------------------------------------------------
-- The law of one queue
-- ---------------------------------------------------------------------------

/-- Behind a marker there are only markers. -/
def MarkersLast (entries : List (Item ι)) : Prop :=
  entries.Pairwise fun a b => a.isMarker = true → b.isMarker = true

/-- `got` followed by `queue` is what the consumer has seen and will see. -/
structure QueueLaw (maxsize : Nat) (queue : List (Item ι)) (log : QueueLog ι) : Prop where
  /-- the items are an initial part of what was delivered -/
  inOrder : items (log.got ++ queue) <+: log.kept
  markersLast : MarkersLast (log.got ++ queue)
  /-- the consumer stopped at the first marker -/
  stops : log.got.Pairwise fun a _ => a.isMarker = false
  bounded : queue.length ≤ maxsize
  overflow : log.overflowed = true → items queue = []
  dropped : ∀ message, log.dropped = some message →
    queue.getLast? = some (.error message) ∨ ∃ i ∈ log.got, i.isMarker = true
  evicted : ∀ k, log.evicted = some k →
    log.overflowed = false ∧ log.dropped.isSome ∧ log.delivered.length = k + maxsize
  /-- nothing is lost before an overflow or a drop -/
  whole : log.overflowed = false → log.dropped = none →
    items (log.got ++ queue) = log.delivered ∧ ∀ i ∈ log.got ++ queue, i.isMarker = false

@[simp] theorem items_nil : items ([] : List (Item ι)) = [] := rfl

@[simp] theorem items_append (l l' : List (Item ι)) : items (l ++ l') = items l ++ items l' :=
  List.filterMap_append

@[simp] theorem items_cons_item (i : ι) (l : List (Item ι)) :
    items (.item i :: l) = i :: items l := rfl

@[simp] theorem items_cons_error (m : PyStr) (l : List (Item ι)) :
    items (.error m :: l) = items l := rfl

theorem items_eq_nil {l : List (Item ι)} : items l = [] ↔ ∀ i ∈ l, i.isMarker = true := by
  induction l with
  | nil => simp
  | cons i l ih =>
    cases i with
    | item i => simp
    | error message => simp [ih]
    | overflow =>
      have hmarker : items (.overflow :: l) = items l := rfl
      simp [hmarker, ih]

/-- A list without markers holds as many items as entries. -/
theorem length_items {l : List (Item ι)} (h : ∀ i ∈ l, i.isMarker = false) :
    (items l).length = l.length := by
  induction l with
  | nil => rfl
  | cons i l ih =>
    rw [List.forall_mem_cons] at h
    cases i with
    | item i => rw [items_cons_item, List.length_cons, List.length_cons, ih h.2]
    | error m => cases h.1
    | overflow => cases h.1

namespace MarkersLast

variable {l : List (Item ι)} {i : Item ι}

theorem of_items (h : ∀ j ∈ l, j.isMarker = false) : MarkersLast l := by
  induction l with
  | nil => exact .nil
  | cons j l ih =>
    rw [List.forall_mem_cons] at h
    refine .cons ?_ (ih h.2)
    intro _ _ hm
    rw [h.1] at hm
    cases hm

theorem concat (h : MarkersLast l) (hi : i.isMarker = true) : MarkersLast (l ++ [i]) := by
  unfold MarkersLast
  rw [List.pairwise_append]
  refine ⟨h, List.pairwise_singleton _ _, ?_⟩
  intro _ _ b hb _
  rw [List.mem_singleton.mp hb]
  exact hi

end MarkersLast

namespace QueueLaw

variable {maxsize : Nat} {queue : List (Item ι)} {log : QueueLog ι}

theorem init : QueueLaw maxsize ([] : List (Item ι)) {} := by
  constructor <;> simp [QueueLog.kept, MarkersLast]

theorem kept_of_live (h : QueueLaw maxsize queue log) (hlive : log.dropped = none) :
    log.kept = log.delivered := by
  cases hev : log.evicted with
  | none => simp only [QueueLog.kept, hev]
  | some k =>
    have hdrop := (h.evicted k hev).2.1
    rw [hlive] at hdrop
    cases hdrop

theorem evicted_of_live (h : QueueLaw maxsize queue log) (hlive : log.dropped = none) :
    log.evicted = none := by
  cases hev : log.evicted with
  | none => rfl
  | some k =>
    have hdrop := (h.evicted k hev).2.1
    rw [hlive] at hdrop
    cases hdrop

/-- Dequeuing moves an entry from the queue to what was got. -/
theorem get {i : Item ι} {rest : List (Item ι)} (h : QueueLaw maxsize (i :: rest) log)
    (hgot : ∀ j ∈ log.got, j.isMarker = false) :
    QueueLaw maxsize rest { log with got := log.got ++ [i] } := by
  have hstream : log.got ++ [i] ++ rest = log.got ++ i :: rest := by simp
  constructor
  · rw [hstream]
    exact h.inOrder
  · rw [hstream]
    exact h.markersLast
  · rw [List.pairwise_append]
    exact ⟨h.stops, List.pairwise_singleton _ _, fun a ha _ _ => hgot a ha⟩
  · exact Nat.le_of_succ_le h.bounded
  · intro hov
    have hall := items_eq_nil.mp (h.overflow hov)
    exact items_eq_nil.mpr fun j hj => hall j (List.mem_cons_of_mem i hj)
  · intro message hdrop
    rcases h.dropped message hdrop with hlast | ⟨j, hj, hm⟩
    · cases rest with
      | nil =>
        have hi : i = .error message := by simpa using hlast
        exact .inr ⟨i, by simp, by rw [hi]; rfl⟩
      | cons j rest => exact .inl (by simpa using hlast)
    · exact .inr ⟨j, by simp [hj], hm⟩
  · exact h.evicted
  · simpa only [hstream] using h.whole

/-- A delivery to a turn already flagged is dropped. -/
theorem deliver_dropped (h : QueueLaw maxsize queue log) (i : ι) (hlive : log.dropped = none)
    (hov : log.overflowed = true) :
    QueueLaw maxsize queue { log with delivered := log.delivered ++ [i] } := by
  have hin := h.inOrder
  rw [h.kept_of_live hlive] at hin
  refine ⟨?_, h.markersLast, h.stops, h.bounded, h.overflow, h.dropped, ?_, ?_⟩
  · simp only [QueueLog.kept, h.evicted_of_live hlive]
    exact hin.trans (List.prefix_append _ _)
  · intro k hk
    exact absurd hk (by simp [h.evicted_of_live hlive])
  · intro hno
    rw [hov] at hno
    cases hno

theorem deliver_queued (h : QueueLaw maxsize queue log) (i : ι) (hlive : log.dropped = none)
    (hov : log.overflowed = false) (hlen : (queue ++ [Item.item i]).length ≤ maxsize) :
    QueueLaw maxsize (queue ++ [Item.item i]) { log with delivered := log.delivered ++ [i] } := by
  obtain ⟨hwhole, hitems⟩ := h.whole hov hlive
  have hstream : log.got ++ (queue ++ [Item.item i]) = log.got ++ queue ++ [.item i] := by simp
  have hmarkers : ∀ j ∈ log.got ++ queue ++ [.item i], j.isMarker = false := by
    intro j hj
    rcases List.mem_append.mp hj with hj | hj
    · exact hitems j hj
    · rw [List.mem_singleton.mp hj]
      rfl
  have hall : items (log.got ++ (queue ++ [.item i])) = log.delivered ++ [i] := by
    rw [hstream, items_append, hwhole]
    rfl
  refine ⟨?_, ?_, h.stops, hlen, ?_, ?_, ?_, ?_⟩
  · simp only [QueueLog.kept, h.evicted_of_live hlive, hall]
    exact List.prefix_rfl
  · rw [hstream]
    exact .of_items hmarkers
  · intro hyes
    exact absurd hyes (by simp [hov])
  · intro message hdrop
    exact absurd hdrop (by simp [hlive])
  · intro k hk
    exact absurd hk (by simp [h.evicted_of_live hlive])
  · intro _ _
    rw [hstream] at hall ⊢
    exact ⟨hall, hmarkers⟩

/-- The overflow of a turn flushes its queue: only the marker is left. -/
theorem deliver_overflow (h : QueueLaw maxsize queue log) (i : ι) (hmax : 1 ≤ maxsize)
    (hlive : log.dropped = none) (hov : log.overflowed = false) :
    QueueLaw maxsize [.overflow]
      { log with delivered := log.delivered ++ [i], overflowed := true } := by
  obtain ⟨hwhole, hitems⟩ := h.whole hov hlive
  have hgot : ∀ j ∈ log.got, j.isMarker = false :=
    fun j hj => hitems j (List.mem_append_left queue hj)
  rw [items_append] at hwhole
  refine ⟨?_, ?_, h.stops, hmax, fun _ => rfl, ?_, ?_, ?_⟩
  · have hmarker : items [.overflow] = ([] : List ι) := rfl
    simp only [QueueLog.kept, h.evicted_of_live hlive, items_append, hmarker, List.append_nil]
    rw [← hwhole, List.append_assoc]
    exact List.prefix_append _ _
  · exact (MarkersLast.of_items hgot).concat rfl
  · intro message hdrop
    exact absurd hdrop (by simp [hlive])
  · intro k hk
    exact absurd hk (by simp [h.evicted_of_live hlive])
  · intro hno
    cases hno

/-- Putting the error behind what is left of the queue. -/
theorem error_last (h : QueueLaw maxsize queue log) (message : PyStr) {rest : List (Item ι)}
    {evicted : Option Nat} (hsub : rest.Sublist queue) (hlen : rest.length < maxsize)
    (hin : items (log.got ++ rest) <+: QueueLog.kept { log with evicted := evicted })
    (hev : ∀ k, evicted = some k →
      log.overflowed = false ∧ log.delivered.length = k + maxsize) :
    QueueLaw maxsize (rest ++ [Item.error message])
      { log with dropped := some message, evicted := evicted } := by
  have hstream : log.got ++ (rest ++ [Item.error message]) =
      log.got ++ rest ++ [.error message] := by simp
  refine ⟨?_, ?_, h.stops, ?_, ?_, ?_, ?_, ?_⟩
  · rw [hstream, items_append, items_cons_error, items_nil, List.append_nil]
    exact hin
  · rw [hstream]
    have hrest : MarkersLast (log.got ++ rest) :=
      h.markersLast.sublist ((List.append_sublist_append_left log.got).mpr hsub)
    exact hrest.concat rfl
  · rw [List.length_append]
    exact hlen
  · intro hov
    rw [items_append, items_cons_error, items_nil, List.append_nil]
    have hall := items_eq_nil.mp (h.overflow hov)
    exact items_eq_nil.mpr fun j hj => hall j (hsub.subset hj)
  · intro m hdrop
    cases hdrop
    exact .inl List.getLast?_concat
  · intro k hk
    obtain ⟨hov, hdel⟩ := hev k hk
    exact ⟨hov, rfl, hdel⟩
  · intro _ hdrop
    cases hdrop

/-- What `error_all` does to the queue of a turn in flight. -/
theorem errorAll (h : QueueLaw maxsize queue log) (message : PyStr) (hmax : 1 ≤ maxsize)
    (hlive : log.dropped = none) :
    QueueLaw maxsize (BoundedQueue.forcePut maxsize queue (.error message))
      { log with
        dropped := some message
        evicted := if BoundedQueue.full maxsize queue && !log.overflowed then
          some (items log.got).length else none } := by
  have hin := h.inOrder
  rw [h.kept_of_live hlive] at hin
  cases hfull : BoundedQueue.full maxsize queue with
  | false =>
    rw [BoundedQueue.forcePut_of_not_full hfull]
    have hlen : queue.length < maxsize := by
      by_contra hge
      have hyes := BoundedQueue.full_eq_true.mpr ⟨hmax, Nat.le_of_not_lt hge⟩
      rw [hfull] at hyes
      cases hyes
    apply h.error_last message (List.Sublist.refl queue) hlen
    · exact hin
    · intro k hk
      cases hk
  | true =>
    rw [BoundedQueue.forcePut_of_full h.bounded hfull]
    obtain ⟨-, hge⟩ := BoundedQueue.full_eq_true.mp hfull
    have hqueue : queue.length = maxsize := Nat.le_antisymm h.bounded hge
    have hlen : queue.tail.length < maxsize := by
      rw [List.length_tail, hqueue]
      omega
    apply h.error_last message queue.tail_sublist hlen
    · cases hov : log.overflowed with
      | true =>
        -- the flushed queue holds no item: none is lost
        have htail : items queue.tail = [] := by
          have hall := items_eq_nil.mp (h.overflow hov)
          exact items_eq_nil.mpr fun j hj => hall j (List.mem_of_mem_tail hj)
        rw [items_append, h.overflow hov, List.append_nil] at hin
        rw [items_append, htail, List.append_nil]
        exact hin
      | false =>
        obtain ⟨hwhole, hitems⟩ := h.whole hov hlive
        cases queue with
        | nil => simp only [List.length_nil] at hqueue; omega
        | cons j rest =>
          have hj : j.isMarker = false := hitems j (by simp)
          cases j with
          | error m => cases hj
          | overflow => cases hj
          | item i =>
            -- the oldest pending item is the next one the consumer would have got
            rw [items_append, items_cons_item] at hwhole
            simp only [QueueLog.kept, Bool.not_false, Bool.and_true, if_true, ← hwhole,
              List.tail_cons, items_append]
            rw [List.eraseIdx_append_of_length_le (Nat.le_refl _), Nat.sub_self,
              List.eraseIdx_cons_zero]
    · intro k hk
      cases hov : log.overflowed with
      | true =>
        rw [hov] at hk
        cases hk
      | false =>
        rw [hov] at hk
        cases hk
        obtain ⟨hwhole, hitems⟩ := h.whole hov hlive
        have hmem : ∀ i ∈ queue, i.isMarker = false :=
          fun i hi => hitems i (List.mem_append_right _ hi)
        refine ⟨rfl, ?_⟩
        rw [← hwhole, items_append, List.length_append, length_items hmem, hqueue]

end QueueLaw

-- ---------------------------------------------------------------------------
-- The law over all runs
-- ---------------------------------------------------------------------------

structure Inv (maxsize : Nat) (t : Traffic ι) : Prop where
  size : t.registry.maxQueueSize = maxsize
  wf : t.registry.Wf
  law : ∀ q, QueueLaw maxsize (t.registry.queues q) (t.log q)
  /-- the flag of a turn in flight is the one of its log -/
  live : ∀ {sk q}, t.registry.sessions.lookup sk = some q →
    (t.log q).dropped = none ∧ ((t.log q).overflowed = true ↔ sk ∈ t.registry.overflowed)
  fresh : ∀ q, t.registry.created ≤ q → t.log q = {}

namespace Inv

variable {maxsize : Nat} {t : Traffic ι}

theorem init (maxsize : Nat) : Inv maxsize (start ι maxsize) where
  size := rfl
  wf := .init maxsize
  law _ := .init
  live h := by simp [start] at h
  fresh _ _ := rfl

theorem register (h : Inv maxsize t) {registry : TurnRegistry ι} {reqId : ReqId}
    {sk : SessionKey} {q : QueueRef} (hreg : t.registry.register reqId sk = some (registry, q)) :
    Inv maxsize { t with registry := registry } := by
  have hwf := h.wf.register hreg
  obtain ⟨hsk, rfl, rfl⟩ := TurnRegistry.register_eq_some hreg
  refine ⟨h.size, hwf, h.law, ?_, ?_⟩
  · intro a q hq
    by_cases heq : a = sk
    · subst heq
      rw [AList.lookup_insert] at hq
      cases hq
      -- a new queue, and its key was not flagged
      have hlog := h.fresh t.registry.created (Nat.le_refl _)
      have hflag : a ∉ t.registry.overflowed := fun hmem => hsk (h.wf.flagged hmem)
      simp [hlog, hflag]
    · rw [AList.lookup_insert_ne heq] at hq
      exact h.live hq
  · intro q hq
    exact h.fresh q (Nat.le_of_succ_le hq)

/-- A step that touches one queue keeps the laws of the others. -/
theorem touch (h : Inv maxsize t) {registry : TurnRegistry ι} {q : QueueRef}
    {queue : List (Item ι)} {log : QueueLog ι} (hwf : registry.Wf)
    (hsize : registry.maxQueueSize = t.registry.maxQueueSize)
    (hcreated : registry.created = t.registry.created)
    (hqueues : registry.queues = Function.update t.registry.queues q queue)
    (hlt : q < t.registry.created) (hlaw : QueueLaw maxsize queue log)
    (hlive : ∀ {sk q'}, registry.sessions.lookup sk = some q' →
      (Function.update t.log q log q').dropped = none ∧
        ((Function.update t.log q log q').overflowed = true ↔ sk ∈ registry.overflowed)) :
    Inv maxsize { registry := registry, log := Function.update t.log q log } := by
  refine ⟨hsize.trans h.size, hwf, ?_, hlive, ?_⟩
  · intro q'
    by_cases hne : q' = q
    · subst hne
      simpa [hqueues] using hlaw
    · simpa [hqueues, Function.update_of_ne hne] using h.law q'
  · intro q' hge
    have hge : registry.created ≤ q' := hge
    rw [hcreated] at hge
    have hne : q' ≠ q := Nat.ne_of_gt (Nat.lt_of_lt_of_le hlt hge)
    simpa [Function.update_of_ne hne] using h.fresh q' hge

theorem deliver (h : Inv maxsize t) (hmax : 1 ≤ maxsize) (sk : SessionKey) (i : ι) (now : Time) :
    Inv maxsize (t.deliver sk i now) := by
  unfold Traffic.deliver TurnRegistry.deliverBySession
  cases hq : t.registry.sessions.lookup sk with
  | none => exact h
  | some q =>
    obtain ⟨hlive, hflag⟩ := h.live hq
    have hwf : (t.registry.deliver sk q i now).Wf := h.wf.deliver hq
    have hlt : q < t.registry.created := h.wf.fresh hq
    -- the logs of the other turns in flight are not touched
    have hother : ∀ {a q'} (log : QueueLog ι), t.registry.sessions.lookup a = some q' → a ≠ sk →
        Function.update t.log q log q' = t.log q' := by
      intro a q' log ha hne
      apply Function.update_of_ne
      intro heq
      subst heq
      exact hne (h.wf.inj ha hq)
    obtain ⟨hmem, heq⟩ | ⟨hmem, hfull, peak, heq⟩ | ⟨hmem, hfull, heq⟩ :=
      t.registry.deliver_cases sk q i now <;> simp only [heq] at hwf ⊢
    · have hov : (t.log q).overflowed = true := hflag.mpr hmem
      apply h.touch hwf rfl rfl (Function.update_eq_self q _).symm hlt
      · simpa [hmem, hov] using (h.law q).deliver_dropped i hlive hov
      · intro a q' ha
        by_cases hne : a = sk
        · subst hne
          rw [hq] at ha
          cases ha
          simp [hlive, hmem]
        · rw [hother _ ha hne]
          exact h.live ha
    · have hov : (t.log q).overflowed = false := by
        rw [← Bool.not_eq_true, hflag]
        exact hmem
      have hlen : (t.registry.queues q ++ [Item.item i]).length ≤ maxsize := by
        have hput : BoundedQueue.putNowait maxsize (t.registry.queues q) (Item.item i) =
            some (t.registry.queues q ++ [Item.item i]) := by
          rw [h.size] at hfull
          simp only [BoundedQueue.putNowait, hfull, Bool.false_eq_true, if_false]
        exact BoundedQueue.putNowait_length hmax hput
      apply h.touch hwf rfl rfl rfl hlt
      · simpa [hmem, hov] using (h.law q).deliver_queued i hlive hov hlen
      · intro a q' ha
        by_cases hne : a = sk
        · subst hne
          rw [hq] at ha
          cases ha
          simp [hlive, hmem]
        · rw [hother _ ha hne]
          exact h.live ha
    · have hov : (t.log q).overflowed = false := by
        rw [← Bool.not_eq_true, hflag]
        exact hmem
      apply h.touch hwf rfl rfl rfl hlt
      · simpa using (h.law q).deliver_overflow i hmax hlive hov
      · intro a q' ha
        by_cases hne : a = sk
        · subst hne
          rw [hq] at ha
          cases ha
          simp [hlive]
        · rw [hother _ ha hne]
          simpa [hne] using h.live ha

theorem get (h : Inv maxsize t) {registry : TurnRegistry ι} {q : QueueRef} {i : Item ι}
    (hgot : (t.log q).got.any Item.isMarker = false)
    (hget : t.registry.get q = some (registry, i)) :
    Inv maxsize { registry := registry
                  log := Function.update t.log q
                    { t.log q with got := (t.log q).got ++ [i] } } := by
  have hwf := h.wf.get hget
  obtain ⟨rest, hqueue, rfl⟩ := TurnRegistry.get_eq_some hget
  have hlt : q < t.registry.created := by
    by_contra hge
    have hempty := h.wf.empty q (Nat.le_of_not_lt hge)
    rw [hqueue] at hempty
    cases hempty
  have hlaw := h.law q
  rw [hqueue] at hlaw
  apply h.touch hwf rfl rfl rfl hlt
  · exact hlaw.get (by simpa using hgot)
  · intro a q' ha
    by_cases hne : q' = q
    · subst hne
      simpa using h.live ha
    · rw [Function.update_of_ne hne]
      exact h.live ha

theorem errorAll (h : Inv maxsize t) (hmax : 1 ≤ maxsize) (message : PyStr) :
    Inv maxsize { registry := t.registry.errorAll message
                  log := fun q => if t.registry.live q then t.drop message q else t.log q } := by
  refine ⟨h.size, h.wf.errorAll, ?_, ?_, ?_⟩
  · intro q
    rw [h.wf.errorAll_queues message q]
    cases hq : t.registry.live q with
    | true =>
      obtain ⟨sk, hsk⟩ := TurnRegistry.live_iff.mp hq
      have hlaw := (h.law q).errorAll message hmax (h.live hsk).1
      simpa only [hq, if_true, Traffic.drop, h.size] using hlaw
    | false => simpa only [hq, Bool.false_eq_true, if_false] using h.law q
  · intro a q ha
    simp [TurnRegistry.errorAll] at ha
  · intro q hge
    have hnot : ¬ t.registry.live q = true := by
      intro hq
      obtain ⟨sk, hsk⟩ := TurnRegistry.live_iff.mp hq
      exact Nat.not_lt_of_le hge (h.wf.fresh hsk)
    simpa [hnot] using h.fresh q hge

theorem unregister (h : Inv maxsize t) (sk : SessionKey) (reqId : ReqId) :
    Inv maxsize { t with registry := t.registry.unregister sk reqId } := by
  have hwf : (t.registry.unregister sk reqId).Wf := h.wf.unregister
  by_cases howner : t.registry.sessionOwner.lookup sk = some reqId
  · simp only [TurnRegistry.unregister, howner, if_true] at hwf ⊢
    refine ⟨h.size, hwf, h.law, ?_, h.fresh⟩
    intro a q ha
    by_cases hne : a = sk
    · subst hne
      rw [AList.lookup_erase] at ha
      cases ha
    · rw [AList.lookup_erase_ne hne] at ha
      simpa [hne] using h.live ha
  · simp only [TurnRegistry.unregister, howner, if_false] at hwf ⊢
    exact ⟨h.size, hwf, h.law, h.live, h.fresh⟩

theorem isAborted (h : Inv maxsize t) (sk : SessionKey) (now : Time) :
    Inv maxsize { t with registry := (t.registry.isAborted sk now).1 } :=
  ⟨h.size, h.wf.apply (.isAborted sk now), h.law, h.live, h.fresh⟩

/-- One step keeps the invariant, whoever takes it. -/
theorem step {t' : Traffic ι} {a : TurnRegistry.Op ι} (h : Inv maxsize t) (hmax : 1 ≤ maxsize)
    (hstep : TurnTraffic.step t a = some t') : Inv maxsize t' := by
  cases a with
  | register reqId sk =>
    simp only [TurnTraffic.step] at hstep
    split at hstep <;> cases hstep
    · exact h
    · rename_i hreg
      exact h.register hreg
  | deliverBySession sk i now =>
    cases hstep
    exact h.deliver hmax sk i now
  | deliverByReq reqId i now =>
    simp only [TurnTraffic.step] at hstep
    split at hstep <;> cases hstep
    · exact h
    · exact h.deliver hmax _ i now
  | isAborted sk now =>
    cases hstep
    exact h.isAborted sk now
  | get q =>
    simp only [TurnTraffic.step] at hstep
    split at hstep
    · cases hstep
    · rename_i hgot
      split at hstep
      · cases hstep
      · rename_i hget
        cases hstep
        exact h.get (by simpa using hgot) hget
  | errorAll message =>
    cases hstep
    exact h.errorAll hmax message
  | unregister sk reqId =>
    cases hstep
    exact h.unregister sk reqId

end Inv

open Transition

/-- In every run the consumer of a turn sees its items whole and in order up to the first
marker, but for the one item that `error_all` evicts from a queue it finds full; and
`error_all` leaves its error last in the queue of every turn in flight. -/
theorem dequeued_in_order {maxsize : Nat} {t : Traffic ι} (hmax : 1 ≤ maxsize)
    (h : Reachable step (start ι maxsize) t) :
    (∀ q, QueueLaw maxsize (t.registry.queues q) (t.log q)) ∧
    ∀ message sk q, t.registry.sessions.lookup sk = some q →
      ((t.registry.errorAll message).queues q).getLast? = some (.error message) := by
  have hinv : Inv maxsize t :=
    h.invariant (.init maxsize) fun _ _ _ hinv _ hstep => hinv.step hmax hstep
  refine ⟨hinv.law, ?_⟩
  intro message sk q hsk
  have hq : t.registry.live q = true := TurnRegistry.live_iff.mpr ⟨sk, hsk⟩
  rw [hinv.wf.errorAll_queues message q, if_pos hq]
  exact BoundedQueue.forcePut_getLast _

/-- Two items fill a queue of two when the connection drops. -/
def fullDrop : List (TurnRegistry.Op Nat) :=
  [.register (py "r") (py "agent:main:c"), .deliverBySession (py "agent:main:c") 1 0,
    .deliverBySession (py "agent:main:c") 2 0, .errorAll (py "reconnect"), .get 0, .get 0]

/-- The consumer then gets the second item and never the first. -/
theorem dropped_full_queue_has_hole :
    ∃ t, Reachable step (start Nat 2) t ∧ (t.log 0).delivered = [1, 2] ∧
      (t.log 0).got = [.item 2, .error (py "reconnect")] ∧
      ¬ items (t.log 0).got <+: (t.log 0).delivered := by
  refine ⟨(run step (start Nat 2) fullDrop).get rfl, reachable_of_run (Option.some_get _).symm,
    rfl, rfl, ?_⟩
  decide

/-- A slow consumer overflows its queue of two. -/
def slowConsumer : List (TurnRegistry.Op Nat) :=
  [.register (py "r") (py "agent:main:c"), .deliverByReq (py "r") 1 0, .get 0, .deliverByReq (py "r") 2 0,
    .deliverByReq (py "r") 3 0, .deliverByReq (py "r") 4 0, .get 0]

/-- It gets the first item and stops at the marker. -/
theorem dequeued_in_order_overflow :
    ∃ t, Reachable step (start Nat 2) t ∧
      (t.log 0).delivered = [1, 2, 3, 4] ∧ (t.log 0).got = [.item 1, .overflow] ∧
      QueueLaw 2 (t.registry.queues 0) (t.log 0) := by
  have hrun : Reachable step (start Nat 2) ((run step (start Nat 2) slowConsumer).get rfl) :=
    reachable_of_run (Option.some_get _).symm
  exact ⟨_, hrun, rfl, rfl, (dequeued_in_order (by decide) hrun).1 0⟩

end TurnTraffic
