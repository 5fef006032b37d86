-- SUMMARY: What `QueuedSender` promises over every interleaving: order, exact counters, no write after an end, and no flush left waiting.
import JotaGateway.Outbound.QueuedSender

/-!
# Delivery

The invariants of the sender, each kept by whatever a step does, and the
contract they add up to.
-/

namespace Outbound

open Transition

variable {hasOnSlow : Bool} {s s' : Sender}

-- ---------------------------------------------------------------------------
-- What a step does
-- ---------------------------------------------------------------------------

/-- The effects of a step. -/
inductive Effect (s : Sender) : Sender → Prop where
  | refuses (d : Deed) (hd : d.accepted? = none ∧ d.handed? = none ∧ d.wrote? = none ∧
      d.shuts = false ∧ d.ends = false ∧ d.isSlow = false) : Effect s (s.note d)
  | accepts (p : Payload) (hopen : s.isOpen = true) :
      Effect s
        ((Sender.countIn { s with queue := s.queue ++ [.payload p] } p.nbytes).note (.accepted p))
  | waits (hopen : s.isOpen = true) :
      Effect s { s with
        queue := s.queue ++ [.flush s.flushCount]
        flushes := Function.update s.flushes s.flushCount { state := .waiting, ahead := s.accepted }
        flushCount := s.flushCount + 1 }
  | cancels (i : FlushId) : Effect s (s.resolve i .cancelled)
  | closes (hlive : s.writerDone = false) :
      Effect s
        { Sender.note { s with closing := true } .closeCalled with
          queue := s.queue ++ [.stop], closers := s.closers + 1 }
  | closesDone (hdone : s.writerDone = true) :
      Effect s
        ((Sender.note { s with closing := true } .closeCalled).discardPending.note .closeReturned)
  | cancelsWriter (hclosers : s.closers ≠ 0) :
      Effect s { s with cancelRequested := true }
  | closerEnds (d : Deed) (hclosers : s.closers ≠ 0)
      (hd : d = .closeCancelled ∨ d = .closeReturned ∧ s.writerDone = true) :
      Effect s
        ((Sender.discardPending { s with closers := s.closers - 1 }).note d)
  | stops (rest : List Item) (hidle : s.writer = .idle) (hqueue : s.queue = .stop :: rest) :
      Effect s { s with queue := rest, writer := .done }
  | flushes (i : FlushId) (rest : List Item) (hidle : s.writer = .idle)
      (hqueue : s.queue = .flush i :: rest) :
      Effect s (Sender.resolve { s with queue := rest } i .returned)
  | takes (p : Payload) (rest : List Item) (hidle : s.writer = .idle)
      (hqueue : s.queue = .payload p :: rest) :
      Effect s
        ((Sender.countOut { s with queue := rest, writer := .writing p } p).note (.handed p))
  | writes (p : Payload) (hwriting : s.writer = .writing p) :
      Effect s
        (Sender.note { s with writer := .idle, cancelRequested := false } (.wrote p))
  | fails (p : Payload) (hwriting : s.writer = .writing p) :
      Effect s
        ((Sender.discardPending { s with failure := some .socket, writer := .done }).note
          .writeFailed)
  | failsSlow (p : Payload) (hwriting : s.writer = .writing p) :
      Effect s
        ((Sender.discardPending { s with
          failure := some .slow, writer := .done, cancelRequested := false }).note .writeTimedOut)
  | callsSlow (p : Payload) (hwriting : s.writer = .writing p) :
      Effect s
        (((Sender.discardPending { s with
          failure := some .slow, writer := .onSlow, cancelRequested := false }).note
            .writeTimedOut).note .slowCalled)
  | slowReturns (hslow : s.writer = .onSlow) : Effect s { s with writer := .done }
  | cancelled (hcancel : s.cancelRequested = true) : Effect s { s with writer := .done }

theorem send_effect (p : Payload) : Effect s (s.send p) := by
  unfold Sender.send
  split
  · exact .accepts p ‹_›
  · exact .refuses _ ⟨rfl, rfl, rfl, rfl, rfl, rfl⟩

theorem flush_effect : Effect s s.flush := by
  unfold Sender.flush
  split
  · exact .waits ‹_›
  · exact .refuses _ ⟨rfl, rfl, rfl, rfl, rfl, rfl⟩

theorem aclose_effect : Effect s s.aclose := by
  unfold Sender.aclose
  dsimp only
  split
  · exact .closesDone ‹_›
  · exact .closes (eq_false_of_ne_true ‹_›)

theorem get_effect (hidle : s.writer = .idle) (h : s.get = some s') : Effect s s' := by
  unfold Sender.get at h
  split at h
  · cases h
  · cases h
    exact .stops _ hidle ‹_›
  · cases h
    exact .flushes _ _ hidle ‹_›
  · cases h
    exact .takes _ _ hidle ‹_›

theorem step_effect {a : Action} (h : step hasOnSlow s a = some s') : Effect s s' := by
  cases a with
  | send p =>
    cases h
    exact send_effect p
  | flush =>
    cases h
    exact flush_effect
  | cancelFlush i =>
    cases h
    exact .cancels i
  | aclose =>
    cases h
    exact aclose_effect
  | cancelWriter =>
    simp only [step] at h
    split at h
    · cases h
      exact .cancelsWriter (And.left ‹_›)
    · cases h
  | closerResumes raises =>
    simp only [step] at h
    split at h
    · rename_i hguard
      cases h
      cases raises with
      | true => exact .closerEnds _ hguard.1 (.inl rfl)
      | false => exact .closerEnds _ hguard.1 (.inr ⟨rfl, hguard.2⟩)
    · cases h
  | closerLeaves =>
    simp only [step] at h
    split at h
    · cases h
      exact .closerEnds _ (And.left ‹_›) (.inl rfl)
    · cases h
  | writerGets =>
    simp only [step] at h
    split at h
    · exact get_effect ‹_› h
    · cases h
  | writeSucceeds =>
    simp only [step] at h
    split at h
    · cases h
      exact .writes _ ‹_›
    · cases h
  | writeFails =>
    simp only [step] at h
    split at h
    · cases h
      exact .fails _ ‹_›
    · cases h
  | writeTimesOut =>
    simp only [step] at h
    split at h
    · cases h
      cases hasOnSlow with
      | true => exact .callsSlow _ ‹_›
      | false => exact .failsSlow _ ‹_›
    · cases h
  | slowReturns =>
    simp only [step] at h
    split at h
    · cases h
      exact .slowReturns ‹_›
    · cases h
  | writerCancelled =>
    simp only [step] at h
    split at h
    · cases h
      exact .cancelled (And.left ‹_›)
    · cases h

-- ---------------------------------------------------------------------------
-- The counters
-- ---------------------------------------------------------------------------

/-- `pending_msgs` and `pending_bytes` count what is in the queue. -/
structure Counted (s : Sender) : Prop where
  msgs : s.pendingMsgs = (payloads s.queue).length
  bytes : s.pendingBytes = ((payloads s.queue).map Payload.nbytes).sum

namespace Counted

theorem discard (h : Counted s) : Counted s.discardPending := by
  obtain ⟨flushes, heq, -⟩ := s.discardPending_eq
  rw [heq]
  exact ⟨by simp [h.msgs, payloads], by simp [h.bytes, payloads]⟩

theorem resolve (h : Counted s) (i : FlushId) (state : FlushState) :
    Counted (s.resolve i state) := by
  obtain ⟨flushes, heq, -⟩ := s.resolve_eq i state
  rw [heq]
  exact ⟨h.msgs, h.bytes⟩

/-- The counters look at the queue alone. -/
theorem frame {t : Sender} (h : Counted s) (hqueue : payloads t.queue = payloads s.queue)
    (hmsgs : t.pendingMsgs = s.pendingMsgs) (hbytes : t.pendingBytes = s.pendingBytes) :
    Counted t := by
  refine ⟨?_, ?_⟩
  · rw [hqueue, hmsgs, h.msgs]
  · rw [hqueue, hbytes, h.bytes]

theorem effect (h : Counted s) (he : Effect s s') : Counted s' := by
  cases he with
  | refuses d => exact h.frame rfl rfl rfl
  | accepts p =>
    refine ⟨?_, ?_⟩
    · simp [Sender.note, Sender.countIn, payloads, h.msgs]
    · simp [Sender.note, Sender.countIn, payloads, h.bytes]
  | waits => exact h.frame (by simp [payloads]) rfl rfl
  | cancels i => exact h.resolve i .cancelled
  | closes => exact h.frame (by simp [payloads]) rfl rfl
  | closesDone =>
    have hclosing : Counted (Sender.note { s with closing := true } .closeCalled) := h.frame rfl rfl rfl
    exact hclosing.discard.frame rfl rfl rfl
  | cancelsWriter => exact h.frame rfl rfl rfl
  | closerEnds d =>
    have hcloser : Counted { s with closers := s.closers - 1 } := h.frame rfl rfl rfl
    exact hcloser.discard.frame rfl rfl rfl
  | stops rest _ hqueue => exact h.frame (by simp [hqueue, payloads]) rfl rfl
  | flushes i rest _ hqueue =>
    have hpopped : Counted { s with queue := rest } := h.frame (by simp [hqueue, payloads]) rfl rfl
    exact hpopped.resolve i .returned
  | takes p rest _ hqueue =>
    have hmsgs := h.msgs
    have hbytes := h.bytes
    simp only [hqueue, payloads, List.length_cons, List.map_cons, List.sum_cons] at hmsgs hbytes
    refine ⟨?_, ?_⟩
    · simp only [Sender.note, Sender.countOut, hmsgs]
      push_cast
      omega
    · simp only [Sender.note, Sender.countOut, hbytes]
      omega
  | writes p => exact h.frame rfl rfl rfl
  | fails p =>
    have hfailed : Counted { s with failure := some .socket, writer := .done } := h.frame rfl rfl rfl
    exact hfailed.discard.frame rfl rfl rfl
  | failsSlow p =>
    have hfailed : Counted { s with
        failure := some .slow, writer := .done, cancelRequested := false } := h.frame rfl rfl rfl
    exact hfailed.discard.frame rfl rfl rfl
  | callsSlow p =>
    have hfailed : Counted { s with
        failure := some .slow, writer := .onSlow, cancelRequested := false } := h.frame rfl rfl rfl
    exact hfailed.discard.frame rfl rfl rfl
  | slowReturns => exact h.frame rfl rfl rfl
  | cancelled => exact h.frame rfl rfl rfl

end Counted

-- ---------------------------------------------------------------------------
-- The flags
-- ---------------------------------------------------------------------------

/-- What the flags, the writer and the callers of `aclose` say about each other. -/
structure Flags (s : Sender) : Prop where
  closers : s.closers ≠ 0 → s.closing = true
  cancel : s.cancelRequested = true → s.closing = true
  stops : ∀ x ∈ s.queue, x.isStop = true → s.closing = true
  failed : s.failure.isSome = true → s.writer.stopped = true
  stopped : s.writer.stopped = true → s.shut = true
  onSlow : s.writer = .onSlow → s.failure.isSome = true

namespace Flags

theorem init : Flags {} where
  closers h := absurd rfl h
  cancel h := nomatch h
  stops _ h := nomatch h
  failed h := nomatch h
  stopped h := nomatch h
  onSlow h := nomatch h

theorem discard (h : Flags s) : Flags s.discardPending := by
  obtain ⟨flushes, heq, -⟩ := s.discardPending_eq
  rw [heq]
  exact ⟨h.closers, h.cancel, fun _ hx => (nomatch hx), h.failed, h.stopped, h.onSlow⟩

theorem resolve (h : Flags s) (i : FlushId) (state : FlushState) : Flags (s.resolve i state) := by
  obtain ⟨flushes, heq, -⟩ := s.resolve_eq i state
  rw [heq]
  exact ⟨h.closers, h.cancel, h.stops, h.failed, h.stopped, h.onSlow⟩

/-- The writer stops in `w` because of a failure. -/
theorem fails (h : Flags s) (f : Failure) {w : Writer} (hw : w.stopped = true) (c : Bool)
    (hc : c = true → s.cancelRequested = true) :
    Flags { s with failure := some f, writer := w, cancelRequested := c } where
  closers := h.closers
  cancel := fun hc' => h.cancel (hc hc')
  stops := h.stops
  failed _ := hw
  stopped _ := rfl
  onSlow _ := rfl

theorem effect (h : Flags s) (he : Effect s s') : Flags s' := by
  have hqueue : ∀ {x : Item} {rest : List Item}, s.queue = x :: rest →
      ∀ y ∈ rest, y.isStop = true → s.closing = true :=
    fun hqueue y hy => h.stops y (hqueue ▸ List.mem_cons_of_mem _ hy)
  have happend : ∀ x : Item, x.isStop = false →
      ∀ y ∈ s.queue ++ [x], y.isStop = true → s.closing = true := by
    intro x hx y hy hstop
    rcases List.mem_append.1 hy with hy | hy
    · exact h.stops y hy hstop
    · obtain rfl := List.mem_singleton.1 hy
      rw [hx] at hstop
      cases hstop
  have hclosing : Flags (Sender.note { s with closing := true } .closeCalled) :=
    ⟨fun _ => rfl, fun _ => rfl, fun _ _ _ => rfl, h.failed,
      fun _ => Sender.shut_of_closing rfl, h.onSlow⟩
  cases he with
  | refuses d => exact ⟨h.closers, h.cancel, h.stops, h.failed, h.stopped, h.onSlow⟩
  | accepts p => exact ⟨h.closers, h.cancel, happend _ rfl, h.failed, h.stopped, h.onSlow⟩
  | waits => exact ⟨h.closers, h.cancel, happend _ rfl, h.failed, h.stopped, h.onSlow⟩
  | cancels i => exact h.resolve i .cancelled
  | closes =>
    exact ⟨fun _ => rfl, fun _ => rfl, fun _ _ _ => rfl, hclosing.failed, hclosing.stopped,
      hclosing.onSlow⟩
  | closesDone =>
    have hdiscarded := hclosing.discard
    exact ⟨hdiscarded.closers, hdiscarded.cancel, hdiscarded.stops, hdiscarded.failed,
      hdiscarded.stopped, hdiscarded.onSlow⟩
  | cancelsWriter hclosers =>
    exact ⟨h.closers, fun _ => h.closers hclosers, h.stops, h.failed, h.stopped, h.onSlow⟩
  | closerEnds d hclosers =>
    have hcloser : Flags { s with closers := s.closers - 1 } :=
      ⟨fun _ => h.closers hclosers, h.cancel, h.stops, h.failed, h.stopped, h.onSlow⟩
    have hdiscarded := hcloser.discard
    exact ⟨hdiscarded.closers, hdiscarded.cancel, hdiscarded.stops, hdiscarded.failed,
      hdiscarded.stopped, hdiscarded.onSlow⟩
  | stops rest hidle hstop =>
    have hclosed : s.closing = true := h.stops .stop (hstop ▸ List.mem_cons_self) rfl
    exact ⟨h.closers, h.cancel, hqueue hstop, fun _ => rfl,
      fun _ => Sender.shut_of_closing hclosed, nofun⟩
  | flushes i rest hidle hflush =>
    have hpopped : Flags { s with queue := rest } :=
      ⟨h.closers, h.cancel, hqueue hflush, h.failed, h.stopped, h.onSlow⟩
    exact hpopped.resolve i .returned
  | takes p rest hidle hpayload =>
    have hfailed : s.failure.isSome = true → False := by
      intro hf
      have hstopped := h.failed hf
      rw [hidle] at hstopped
      cases hstopped
    exact ⟨h.closers, h.cancel, hqueue hpayload, fun hf => (hfailed hf).elim,
      fun hw => (nomatch hw), nofun⟩
  | writes p hwriting =>
    have hfailed : s.failure.isSome = true → False := by
      intro hf
      have hstopped := h.failed hf
      rw [hwriting] at hstopped
      cases hstopped
    exact ⟨h.closers, fun hc => (nomatch hc), h.stops, fun hf => (hfailed hf).elim,
      fun hw => (nomatch hw), nofun⟩
  | fails p =>
    have hdiscarded := (h.fails .socket (w := .done) rfl s.cancelRequested id).discard
    exact ⟨hdiscarded.closers, hdiscarded.cancel, hdiscarded.stops, hdiscarded.failed,
      hdiscarded.stopped, hdiscarded.onSlow⟩
  | failsSlow p =>
    have hdiscarded := (h.fails .slow (w := .done) rfl false nofun).discard
    exact ⟨hdiscarded.closers, hdiscarded.cancel, hdiscarded.stops, hdiscarded.failed,
      hdiscarded.stopped, hdiscarded.onSlow⟩
  | callsSlow p =>
    have hdiscarded := (h.fails .slow (w := .onSlow) rfl false nofun).discard
    exact ⟨hdiscarded.closers, hdiscarded.cancel, hdiscarded.stops, hdiscarded.failed,
      hdiscarded.stopped, hdiscarded.onSlow⟩
  | slowReturns hslow =>
    exact ⟨h.closers, h.cancel, h.stops, fun _ => rfl, fun _ => h.stopped (by rw [hslow]; rfl),
      nofun⟩
  | cancelled hcancel =>
    exact ⟨h.closers, h.cancel, h.stops, fun _ => rfl,
      fun _ => Sender.shut_of_closing (h.cancel hcancel), nofun⟩

end Flags

-- ---------------------------------------------------------------------------
-- The order of the messages
-- ---------------------------------------------------------------------------

/-- The writes so far against the messages the writer has taken. -/
def WriterAt : Writer → List Payload → List Payload → Prop
  | .idle, handed, written => written = handed
  | .writing p, handed, written => handed = written ++ [p]
  | .onSlow, handed, written => written <+: handed
  | .done, handed, written => written <+: handed

theorem WriterAt.initial {w : Writer} {handed written : List Payload}
    (h : WriterAt w handed written) : written <+: handed := by
  cases w with
  | idle => exact h ▸ List.prefix_refl _
  | writing p => exact ⟨[p], Eq.symm h⟩
  | onSlow => exact h
  | done => exact h

/-- Each flush marker waits for what was taken and what is queued before it. -/
def Marked (flushes : FlushId → Flush) : List Payload → List Item → Prop
  | _, [] => True
  | sofar, .payload p :: rest => Marked flushes (sofar ++ [p]) rest
  | sofar, .flush i :: rest => (flushes i).ahead = sofar ∧ Marked flushes sofar rest
  | sofar, .stop :: rest => Marked flushes sofar rest

theorem Marked.append {flushes : FlushId → Flush} {sofar : List Payload} {q r : List Item}
    (hq : Marked flushes sofar q) (hr : Marked flushes (sofar ++ payloads q) r) :
    Marked flushes sofar (q ++ r) := by
  induction q generalizing sofar with
  | nil => simpa [payloads] using hr
  | cons x q ih =>
    cases x with
    | payload p => exact ih hq (by simpa [payloads] using hr)
    | flush i => exact ⟨hq.1, ih hq.2 (by simpa [payloads] using hr)⟩
    | stop => exact ih hq (by simpa [payloads] using hr)

theorem Marked.congr {flushes flushes' : FlushId → Flush} {sofar : List Payload} {q : List Item}
    (hq : Marked flushes sofar q)
    (h : ∀ i, .flush i ∈ q → (flushes' i).ahead = (flushes i).ahead) :
    Marked flushes' sofar q := by
  induction q generalizing sofar with
  | nil => trivial
  | cons x q ih =>
    have hrest : ∀ i, .flush i ∈ q → (flushes' i).ahead = (flushes i).ahead :=
      fun i hi => h i (List.mem_cons_of_mem _ hi)
    cases x with
    | payload p => exact ih hq hrest
    | flush i => exact ⟨(h i List.mem_cons_self).trans hq.1, ih hq.2 hrest⟩
    | stop => exact ih hq hrest

structure Ordered (s : Sender) : Prop where
  /-- until a failure or a close, what was accepted was taken or is queued -/
  kept : s.shut = false → s.accepted = s.handed ++ payloads s.queue
  inOrder : s.handed ++ payloads s.queue <+: s.accepted
  writer : WriterAt s.writer s.handed s.written
  marks : Marked s.flushes s.handed s.queue
  returned : ∀ i, (s.flushes i).state = .returned → (s.flushes i).ahead <+: s.written
  fresh : ∀ i, .flush i ∈ s.queue → i < s.flushCount

namespace Ordered

theorem init : Ordered {} where
  kept _ := rfl
  inOrder := List.prefix_refl _
  writer := rfl
  marks := trivial
  returned _ h := nomatch h
  fresh _ h := nomatch h

theorem of_lists {t : Sender} {accepted handed written : List Payload}
    (haccepted : t.accepted = accepted) (hhanded : t.handed = handed)
    (hwritten : t.written = written)
    (hkept : t.shut = false → accepted = handed ++ payloads t.queue)
    (hinOrder : handed ++ payloads t.queue <+: accepted)
    (hwriter : WriterAt t.writer handed written) (hmarks : Marked t.flushes handed t.queue)
    (hreturned : ∀ i, (t.flushes i).state = .returned → (t.flushes i).ahead <+: written)
    (hfresh : ∀ i, .flush i ∈ t.queue → i < t.flushCount) : Ordered t := by
  subst haccepted hhanded hwritten
  exact ⟨hkept, hinOrder, hwriter, hmarks, hreturned, hfresh⟩

/-- Nothing but flags, counters and deeds without a message changes. -/
theorem frame {t : Sender} (h : Ordered s) (haccepted : t.accepted = s.accepted)
    (hhanded : t.handed = s.handed) (hwritten : t.written = s.written)
    (hqueue : t.queue = s.queue) (hflushes : t.flushes = s.flushes)
    (hcount : t.flushCount = s.flushCount) (hshut : t.shut = false → s.shut = false)
    (hwriter : WriterAt t.writer s.handed s.written) : Ordered t := by
  refine of_lists haccepted hhanded hwritten ?_ ?_ hwriter ?_ ?_ ?_
  · rw [hqueue]
    exact fun ht => h.kept (hshut ht)
  · rw [hqueue]
    exact h.inOrder
  · rw [hqueue, hflushes]
    exact h.marks
  · rw [hflushes]
    exact h.returned
  · rw [hqueue, hcount]
    exact h.fresh

/-- Ends some waits without a result. -/
theorem ends (h : Ordered s) {state : FlushState} {flushes : FlushId → Flush}
    (hends : Sender.Ends state s.flushes flushes) (hstate : state ≠ .returned) :
    Ordered { s with flushes } where
  kept := h.kept
  inOrder := h.inOrder
  writer := h.writer
  marks := h.marks.congr fun i _ => hends.ahead i
  returned i hi := by
    have hsame := hends.of_state hstate hi
    simp only [hsame] at hi ⊢
    exact h.returned i hi
  fresh := h.fresh

theorem discard (h : Ordered s) (hshut : s.shut = true) : Ordered s.discardPending := by
  obtain ⟨flushes, heq, hends, -⟩ := s.discardPending_eq
  rw [heq]
  have hended : Ordered { s with flushes } := h.ends hends nofun
  exact {
    kept := fun hopen => absurd (hshut.symm.trans hopen) nofun
    inOrder := by
      change s.handed ++ [] <+: s.accepted
      rw [List.append_nil]
      exact (List.prefix_append s.handed (payloads s.queue)).trans h.inOrder
    writer := h.writer
    marks := trivial
    returned := hended.returned
    fresh := fun _ hi => nomatch hi }

theorem accepts (h : Ordered s) (p : Payload) (hopen : s.isOpen = true) :
    Ordered ((Sender.countIn { s with queue := s.queue ++ [.payload p] } p.nbytes).note
      (.accepted p)) := by
  obtain ⟨hshut, -⟩ := Sender.isOpen_eq_true.1 hopen
  have hall : s.accepted ++ [p] = s.handed ++ payloads (s.queue ++ [.payload p]) := by
    simp [h.kept hshut, payloads]
  have hmarks : Marked s.flushes s.handed (s.queue ++ [.payload p]) := by
    refine h.marks.append ?_
    trivial
  refine of_lists (Sender.note_accepted ..) (Sender.note_handed_same _ rfl)
    (Sender.note_written_same _ rfl) (fun _ => hall) (hall ▸ List.prefix_refl _)
    h.writer hmarks h.returned ?_
  intro i hi
  exact h.fresh i (by simpa [Sender.countIn, Sender.note] using hi)

theorem waits (h : Ordered s) (hopen : s.isOpen = true) :
    Ordered { s with
      queue := s.queue ++ [.flush s.flushCount]
      flushes := Function.update s.flushes s.flushCount { state := .waiting, ahead := s.accepted }
      flushCount := s.flushCount + 1 } := by
  obtain ⟨hshut, -⟩ := Sender.isOpen_eq_true.1 hopen
  have hsame : payloads (s.queue ++ [.flush s.flushCount]) = payloads s.queue := by simp [payloads]
  refine of_lists rfl rfl rfl ?_ ?_ h.writer ?_ ?_ ?_
  · exact fun _ => hsame ▸ h.kept hshut
  · exact hsame ▸ h.inOrder
  · refine Marked.append (h.marks.congr fun i hi => ?_) ⟨?_, trivial⟩ <;> dsimp only
    · rw [Function.update_of_ne (Nat.ne_of_lt (h.fresh i hi))]
    · rw [Function.update_self]
      exact h.kept hshut
  · intro i hi
    by_cases hi' : i = s.flushCount
    · subst hi'
      simp at hi
    · simp only [Function.update_of_ne hi'] at hi ⊢
      exact h.returned i hi
  · intro i hi
    rcases List.mem_append.1 hi with hi | hi
    · exact Nat.lt_succ_of_lt (h.fresh i hi)
    · obtain rfl : i = s.flushCount := by simpa using hi
      exact Nat.lt_succ_self _

theorem written_of_idle (h : Ordered s) (hidle : s.writer = .idle) : s.written = s.handed := by
  have hwriter := h.writer
  rwa [hidle] at hwriter

/-- The marker at the front of an idle writer's queue waits for what has been written. -/
theorem flushes (h : Ordered s) {i : FlushId} {rest : List Item} (hidle : s.writer = .idle)
    (hqueue : s.queue = .flush i :: rest) :
    Ordered (Sender.resolve { s with queue := rest } i .returned) := by
  obtain ⟨hahead, hmarks⟩ : (s.flushes i).ahead = s.handed ∧ Marked s.flushes s.handed rest := by
    have hmarks := h.marks
    rwa [hqueue] at hmarks
  have hsame : payloads s.queue = payloads rest := by rw [hqueue, payloads]
  have hpopped : Ordered { s with queue := rest } :=
    of_lists rfl rfl rfl (fun ht => hsame ▸ h.kept ht) (hsame ▸ h.inOrder) h.writer hmarks
      h.returned fun j hj => h.fresh j (hqueue ▸ List.mem_cons_of_mem _ hj)
  obtain ⟨flushes, heq, hends, hothers, -⟩ := Sender.resolve_eq { s with queue := rest } i .returned
  rw [heq]
  refine of_lists rfl rfl rfl hpopped.kept hpopped.inOrder h.writer
    (hmarks.congr fun j _ => hends.ahead j) ?_ hpopped.fresh
  intro j hj
  by_cases hji : j = i
  · subst hji
    have hall : (flushes j).ahead = s.written :=
      (hends.ahead j).trans (hahead.trans (h.written_of_idle hidle).symm)
    exact ⟨[], (List.append_nil _).trans hall⟩
  · dsimp only at hj ⊢
    rw [hothers j hji] at hj ⊢
    exact h.returned j hj

theorem takes (h : Ordered s) {p : Payload} {rest : List Item} (hidle : s.writer = .idle)
    (hqueue : s.queue = .payload p :: rest) :
    Ordered ((Sender.countOut { s with queue := rest, writer := .writing p } p).note
      (.handed p)) := by
  have hmarks : Marked s.flushes (s.handed ++ [p]) rest := by
    have hmarks := h.marks
    rwa [hqueue] at hmarks
  have hsame : s.handed ++ payloads s.queue = s.handed ++ [p] ++ payloads rest := by
    simp [hqueue, payloads]
  refine of_lists (Sender.note_accepted_same _ rfl) (Sender.note_handed ..)
    (Sender.note_written_same _ rfl) (fun ht => (h.kept ht).trans hsame)
    (hsame ▸ h.inOrder) ?_ hmarks h.returned ?_
  · change s.handed ++ [p] = s.written ++ [p]
    rw [h.written_of_idle hidle]
  · exact fun j hj => h.fresh j (hqueue ▸ List.mem_cons_of_mem _ hj)

theorem writes (h : Ordered s) {p : Payload} (hwriting : s.writer = .writing p) :
    Ordered (Sender.note { s with writer := .idle, cancelRequested := false } (.wrote p)) := by
  have hhanded : s.handed = s.written ++ [p] := by
    have hwriter := h.writer
    rwa [hwriting] at hwriter
  refine of_lists (Sender.note_accepted_same _ rfl)
    (Sender.note_handed_same _ rfl) (Sender.note_written ..) h.kept h.inOrder
    (Eq.symm hhanded) h.marks ?_ h.fresh
  intro i hi
  exact (h.returned i hi).trans (List.prefix_append ..)

/-- A deed without a message. -/
theorem note (h : Ordered s) {d : Deed} (haccepted : d.accepted? = none)
    (hhanded : d.handed? = none) (hwrote : d.wrote? = none) : Ordered (s.note d) :=
  h.frame (Sender.note_accepted_same s haccepted) (Sender.note_handed_same s hhanded)
    (Sender.note_written_same s hwrote) rfl rfl rfl id h.writer

/-- Stop markers carry nothing. -/
theorem requeue (h : Ordered s) {q : List Item} (hpayloads : payloads q = payloads s.queue)
    (hmarks : Marked s.flushes s.handed q) (hmem : ∀ i, .flush i ∈ q → .flush i ∈ s.queue) :
    Ordered { s with queue := q } :=
  of_lists rfl rfl rfl (fun ht => hpayloads ▸ h.kept ht) (hpayloads ▸ h.inOrder) h.writer hmarks
    h.returned fun i hi => h.fresh i (hmem i hi)

theorem effect (h : Ordered s) (hflags : Flags s) (he : Effect s s') : Ordered s' := by
  cases he with
  | refuses d hd => exact h.note hd.1 hd.2.1 hd.2.2.1
  | accepts p hopen => exact h.accepts p hopen
  | waits hopen => exact h.waits hopen
  | cancels i =>
    obtain ⟨flushes, heq, hends, -⟩ := s.resolve_eq i .cancelled
    rw [heq]
    exact h.ends hends (by decide)
  | closes =>
    have hclosing : Ordered { s with closing := true } :=
      h.frame rfl rfl rfl rfl rfl rfl (by simp [Sender.shut]) h.writer
    have hnoted : Ordered (Sender.note { s with closing := true } .closeCalled) :=
      hclosing.note rfl rfl rfl
    have hqueued := hnoted.requeue (q := s.queue ++ [.stop]) (by simp [payloads, Sender.note])
      (hnoted.marks.append (by trivial)) (by simp [Sender.note])
    exact hqueued.frame rfl rfl rfl rfl rfl rfl id hqueued.writer
  | closesDone =>
    have hclosing : Ordered { s with closing := true } :=
      h.frame rfl rfl rfl rfl rfl rfl (by simp [Sender.shut]) h.writer
    have hnoted : Ordered (Sender.note { s with closing := true } .closeCalled) :=
      hclosing.note rfl rfl rfl
    exact (hnoted.discard (by simp [Sender.shut, Sender.note])).note rfl rfl rfl
  | cancelsWriter => exact h.frame rfl rfl rfl rfl rfl rfl id h.writer
  | closerEnds d hclosers hd =>
    have hshut : Sender.shut { s with closers := s.closers - 1 } = true := by
      simp [Sender.shut, hflags.closers hclosers]
    have hcloser : Ordered { s with closers := s.closers - 1 } :=
      h.frame rfl rfl rfl rfl rfl rfl id h.writer
    have hdiscarded := hcloser.discard hshut
    rcases hd with rfl | ⟨rfl, -⟩
    · exact hdiscarded.note rfl rfl rfl
    · exact hdiscarded.note rfl rfl rfl
  | stops rest hidle hqueue =>
    have hpayloads : payloads rest = payloads s.queue := by rw [hqueue, payloads]
    have hmarks : Marked s.flushes s.handed rest := by
      have hmarks := h.marks
      rwa [hqueue] at hmarks
    have hpopped := h.requeue hpayloads hmarks fun i hi => hqueue ▸ List.mem_cons_of_mem _ hi
    exact hpopped.frame rfl rfl rfl rfl rfl rfl id h.writer.initial
  | flushes i rest hidle hqueue => exact h.flushes hidle hqueue
  | takes p rest hidle hqueue => exact h.takes hidle hqueue
  | writes p hwriting => exact h.writes hwriting
  | fails p =>
    have hfailed : Ordered { s with failure := some .socket, writer := .done } :=
      h.frame rfl rfl rfl rfl rfl rfl (by simp [Sender.shut]) h.writer.initial
    exact (hfailed.discard rfl).note rfl rfl rfl
  | failsSlow p =>
    have hfailed : Ordered { s with
        failure := some .slow, writer := .done, cancelRequested := false } :=
      h.frame rfl rfl rfl rfl rfl rfl (by simp [Sender.shut]) h.writer.initial
    exact (hfailed.discard rfl).note rfl rfl rfl
  | callsSlow p =>
    have hfailed : Ordered { s with
        failure := some .slow, writer := .onSlow, cancelRequested := false } :=
      h.frame rfl rfl rfl rfl rfl rfl (by simp [Sender.shut]) h.writer.initial
    exact ((hfailed.discard rfl).note rfl rfl rfl).note rfl rfl rfl
  | slowReturns => exact h.frame rfl rfl rfl rfl rfl rfl id h.writer.initial
  | cancelled => exact h.frame rfl rfl rfl rfl rfl rfl id h.writer.initial

end Ordered

-- ---------------------------------------------------------------------------
-- The waits
-- ---------------------------------------------------------------------------

/-- Whoever waits is in the queue, and the queue is cleared of whoever will not be served. -/
structure Waits (s : Sender) : Prop where
  queued : ∀ i, (s.flushes i).state = .waiting → .flush i ∈ s.queue
  failed : s.failure.isSome = true → ∀ x ∈ s.queue, x.isStop = true
  closed : s.closing = true → s.closers = 0 → ∀ x ∈ s.queue, x.isStop = true

namespace Waits

theorem init : Waits {} where
  queued _ h := nomatch h
  failed _ _ h := nomatch h
  closed _ _ _ h := nomatch h

/-- After `_discard_pending` the queue is empty and nobody waits. -/
theorem discard {t : Sender} (hqueued : ∀ i, (t.flushes i).state = .waiting → .flush i ∈ t.queue) :
    Waits t.discardPending := by
  obtain ⟨flushes, heq, hends, hgone⟩ := t.discardPending_eq
  rw [heq]
  refine ⟨?_, fun _ _ hx => (nomatch hx), fun _ _ _ hx => (nomatch hx)⟩
  intro i hi
  have hsame := Sender.Ends.of_state hends (by decide) hi
  have hwaiting : (t.flushes i).state = .waiting := by rw [← hsame]; exact hi
  exact absurd hi (hgone i (hqueued i hwaiting))

/-- A future that no longer waits. -/
theorem resolve {t : Sender} {i : FlushId} {state : FlushState} (hne : state ≠ .waiting)
    (hqueued : ∀ j, j ≠ i → (t.flushes j).state = .waiting → .flush j ∈ t.queue)
    (hfailed : t.failure.isSome = true → ∀ x ∈ t.queue, x.isStop = true)
    (hclosed : t.closing = true → t.closers = 0 → ∀ x ∈ t.queue, x.isStop = true) :
    Waits (t.resolve i state) := by
  obtain ⟨flushes, heq, hends, hothers, hi⟩ := t.resolve_eq i state
  rw [heq]
  refine ⟨?_, hfailed, hclosed⟩
  intro j hj
  by_cases hji : j = i
  · subst hji
    exact absurd hj (hi hne)
  · dsimp only at hj
    rw [hothers j hji] at hj
    exact hqueued j hji hj

/-- The front of the queue is taken, and no future waits on it. -/
theorem pop (h : Waits s) {x : Item} {rest : List Item} (hqueue : s.queue = x :: rest)
    (hx : ∀ i, x ≠ .flush i) {t : Sender} (ht : t.queue = rest) (hflushes : t.flushes = s.flushes)
    (hfailure : t.failure = s.failure) (hclosing : t.closing = s.closing)
    (hclosers : t.closers = s.closers) : Waits t := by
  have hrest : ∀ y ∈ rest, y ∈ s.queue := fun y hy => hqueue ▸ List.mem_cons_of_mem _ hy
  refine ⟨?_, ?_, ?_⟩
  · intro i hi
    rw [hflushes] at hi
    have hmem := h.queued i hi
    rw [hqueue, List.mem_cons] at hmem
    rw [ht]
    exact hmem.resolve_left fun heq => hx i heq.symm
  · rw [hfailure, ht]
    exact fun hf y hy => h.failed hf y (hrest y hy)
  · rw [hclosing, hclosers, ht]
    exact fun hc h0 y hy => h.closed hc h0 y (hrest y hy)

theorem effect (h : Waits s) (he : Effect s s') : Waits s' := by
  have hopen : s.isOpen = true → s.failure.isSome = false ∧ s.closing = false := by
    intro hopen
    simpa [Sender.shut] using (Sender.isOpen_eq_true.1 hopen).1
  cases he with
  | refuses d => exact ⟨h.queued, h.failed, h.closed⟩
  | accepts p hopen' =>
    obtain ⟨hfailure, hclosing⟩ := hopen hopen'
    exact ⟨fun i hi => List.mem_append_left _ (h.queued i hi),
      fun hf => absurd (hf.symm.trans hfailure) (by decide),
      fun hc => absurd (hc.symm.trans hclosing) (by decide)⟩
  | waits hopen' =>
    obtain ⟨hfailure, hclosing⟩ := hopen hopen'
    refine ⟨?_, fun hf => absurd (hf.symm.trans hfailure) (by decide),
      fun hc => absurd (hc.symm.trans hclosing) (by decide)⟩
    intro i hi
    by_cases hi' : i = s.flushCount
    · subst hi'
      exact List.mem_append_right _ List.mem_cons_self
    · dsimp only at hi
      rw [Function.update_of_ne hi'] at hi
      exact List.mem_append_left _ (h.queued i hi)
  | cancels i => exact resolve (by decide) (fun j _ hj => h.queued j hj) h.failed h.closed
  | closes =>
    refine ⟨fun i hi => List.mem_append_left _ (h.queued i hi), ?_, fun _ h0 => absurd h0 (Nat.succ_ne_zero _)⟩
    intro hf x hx
    rcases List.mem_append.1 hx with hx | hx
    · exact h.failed hf x hx
    · obtain rfl := List.mem_singleton.1 hx
      rfl
  | closesDone =>
    have hdiscarded := discard (t := Sender.note { s with closing := true } .closeCalled) h.queued
    exact ⟨hdiscarded.queued, hdiscarded.failed, hdiscarded.closed⟩
  | cancelsWriter => exact ⟨h.queued, h.failed, h.closed⟩
  | closerEnds d =>
    have hdiscarded := discard (t := { s with closers := s.closers - 1 }) h.queued
    exact ⟨hdiscarded.queued, hdiscarded.failed, hdiscarded.closed⟩
  | stops rest _ hqueue => exact h.pop hqueue (fun i heq => by cases heq) rfl rfl rfl rfl rfl
  | flushes i rest _ hqueue =>
    have hrest : ∀ y ∈ rest, y ∈ s.queue := fun y hy => hqueue ▸ List.mem_cons_of_mem _ hy
    refine resolve (by decide) ?_ (fun hf y hy => h.failed hf y (hrest y hy))
      (fun hc h0 y hy => h.closed hc h0 y (hrest y hy))
    intro j hj hwaiting
    have hmem := h.queued j hwaiting
    rw [hqueue, List.mem_cons] at hmem
    exact hmem.resolve_left fun heq => hj (by cases heq; rfl)
  | takes p rest _ hqueue => exact h.pop hqueue (fun i heq => by cases heq) rfl rfl rfl rfl rfl
  | writes p => exact ⟨h.queued, h.failed, h.closed⟩
  | fails p =>
    have hdiscarded := discard (t := { s with failure := some .socket, writer := .done }) h.queued
    exact ⟨hdiscarded.queued, hdiscarded.failed, hdiscarded.closed⟩
  | failsSlow p =>
    have hdiscarded := discard (t := { s with
      failure := some .slow, writer := .done, cancelRequested := false }) h.queued
    exact ⟨hdiscarded.queued, hdiscarded.failed, hdiscarded.closed⟩
  | callsSlow p =>
    have hdiscarded := discard (t := { s with
      failure := some .slow, writer := .onSlow, cancelRequested := false }) h.queued
    exact ⟨hdiscarded.queued, hdiscarded.failed, hdiscarded.closed⟩
  | slowReturns => exact ⟨h.queued, h.failed, h.closed⟩
  | cancelled => exact ⟨h.queued, h.failed, h.closed⟩

end Waits

-- ---------------------------------------------------------------------------
-- The log
-- ---------------------------------------------------------------------------

structure Logged (s : Sender) : Prop where
  ends : ∀ d ∈ s.log, d.ends = true → s.writer.stopped = true
  shuts : ∀ d ∈ s.log, d.shuts = true → s.shut = true
  slow : ∀ d ∈ s.log, d.isSlow = true → s.writer.stopped = true
  noWrite : s.log.Pairwise fun d e => d.ends = true → e.writes = false
  noAccept : s.log.Pairwise fun d e => d.shuts = true → e.accepts = false
  slowOnce : s.log.countP Deed.isSlow ≤ 1

theorem pairwise_append_one {α : Type*} {r : α → α → Prop} {l : List α} {a : α}
    (hl : l.Pairwise r) (ha : ∀ b ∈ l, r b a) : (l ++ [a]).Pairwise r :=
  List.pairwise_append.2 ⟨hl, List.pairwise_singleton r a, fun b hb c hc => by
    obtain rfl := List.mem_singleton.1 hc
    exact ha b hb⟩

namespace Logged

theorem init : Logged {} where
  ends _ h := nomatch h
  shuts _ h := nomatch h
  slow _ h := nomatch h
  noWrite := .nil
  noAccept := .nil
  slowOnce := Nat.zero_le _

/-- A step that says nothing. -/
theorem frame {t : Sender} (h : Logged s) (hlog : t.log = s.log)
    (hstopped : s.writer.stopped = true → t.writer.stopped = true)
    (hshut : s.shut = true → t.shut = true) : Logged t where
  ends d hd he := hstopped (h.ends d (hlog ▸ hd) he)
  shuts d hd he := hshut (h.shuts d (hlog ▸ hd) he)
  slow d hd he := hstopped (h.slow d (hlog ▸ hd) he)
  noWrite := hlog ▸ h.noWrite
  noAccept := hlog ▸ h.noAccept
  slowOnce := hlog ▸ h.slowOnce

theorem discard (h : Logged s) : Logged s.discardPending :=
  h.frame (by simp) (by simp) (by simp)

/-- A step that says `d`, with what `d` asks of the states before and after it. -/
theorem note {t : Sender} (h : Logged s) {d : Deed} (hlog : t.log = s.log ++ [d])
    (hstopped : s.writer.stopped = true → t.writer.stopped = true)
    (hshut : s.shut = true → t.shut = true) (hends : d.ends = true → t.writer.stopped = true)
    (hshuts : d.shuts = true → t.shut = true)
    (hwrites : d.writes = true → s.writer.stopped = false)
    (haccepts : d.accepts = true → s.shut = false)
    (hslow : d.isSlow = true → t.writer.stopped = true ∧ ∀ e ∈ s.log, e.isSlow = false) :
    Logged t where
  ends := by
    rw [hlog]
    intro e he hend
    rcases List.mem_append.1 he with he | he
    · exact hstopped (h.ends e he hend)
    · obtain rfl := List.mem_singleton.1 he
      exact hends hend
  shuts := by
    rw [hlog]
    intro e he hend
    rcases List.mem_append.1 he with he | he
    · exact hshut (h.shuts e he hend)
    · obtain rfl := List.mem_singleton.1 he
      exact hshuts hend
  slow := by
    rw [hlog]
    intro e he hend
    rcases List.mem_append.1 he with he | he
    · exact hstopped (h.slow e he hend)
    · obtain rfl := List.mem_singleton.1 he
      exact (hslow hend).1
  noWrite := by
    rw [hlog]
    refine pairwise_append_one h.noWrite fun e he hend => ?_
    by_contra hw
    exact absurd ((h.ends e he hend).symm.trans (hwrites (eq_true_of_ne_false hw))) nofun
  noAccept := by
    rw [hlog]
    refine pairwise_append_one h.noAccept fun e he hend => ?_
    by_contra ha
    exact absurd ((h.shuts e he hend).symm.trans (haccepts (eq_true_of_ne_false ha))) nofun
  slowOnce := by
    rw [hlog, List.countP_append]
    cases hd : d.isSlow with
    | false => simpa [hd] using h.slowOnce
    | true =>
      have hnone : s.log.countP Deed.isSlow = 0 :=
        List.countP_eq_zero.2 fun e he => by simp [(hslow hd).2 e he]
      simp [hd, hnone]

/-- The writer stops in `w` because of a failure, and says so. -/
theorem fails (h : Logged s) (f : Failure) {w : Writer} (hw : w.stopped = true) (c : Bool)
    {d : Deed} (hwrites : d.writes = false) (haccepts : d.accepts = false)
    (hslow : d.isSlow = false) :
    Logged ((Sender.discardPending { s with
      failure := some f, writer := w, cancelRequested := c }).note d) := by
  have hfailed : Logged { s with failure := some f, writer := w, cancelRequested := c } :=
    h.frame rfl (fun _ => hw) fun _ => rfl
  have hstopped : (Sender.discardPending { s with
      failure := some f, writer := w, cancelRequested := c }).writer.stopped = true := by
    rw [Sender.discardPending_writer]
    exact hw
  have hshut : (Sender.discardPending { s with
      failure := some f, writer := w, cancelRequested := c }).shut = true := by
    rw [Sender.discardPending_shut]
    rfl
  refine hfailed.discard.note rfl id id (fun _ => hstopped) (fun _ => hshut) ?_ ?_ ?_
  · simp [hwrites]
  · simp [haccepts]
  · simp [hslow]

theorem effect (h : Logged s) (he : Effect s s') : Logged s' := by
  cases he with
  | refuses d hd =>
    obtain ⟨haccepted, hhanded, hwrote, hshuts, hends, hslow⟩ := hd
    refine h.note rfl id id ?_ ?_ ?_ ?_ ?_
    · simp [hends]
    · simp [hshuts]
    · simp [Deed.writes, hhanded, hwrote]
    · simp [Deed.accepts, haccepted]
    · simp [hslow]
  | accepts p hopen =>
    exact h.note rfl id id nofun nofun nofun (fun _ => (Sender.isOpen_eq_true.1 hopen).1) nofun
  | waits => exact h.frame rfl id id
  | cancels i =>
    obtain ⟨flushes, heq, -⟩ := s.resolve_eq i .cancelled
    rw [heq]
    exact h.frame rfl id id
  | closes =>
    exact h.note rfl id (fun _ => Sender.shut_of_closing rfl) nofun
      (fun _ => Sender.shut_of_closing rfl) nofun nofun nofun
  | closesDone hdone =>
    have hclosing : Logged (Sender.note { s with closing := true } .closeCalled) :=
      h.note rfl id (fun _ => Sender.shut_of_closing rfl) nofun
        (fun _ => Sender.shut_of_closing rfl) nofun nofun nofun
    refine hclosing.discard.note rfl id id (fun _ => ?_) nofun nofun nofun nofun
    change (Sender.discardPending _).writer.stopped = true
    rw [Sender.discardPending_writer]
    exact Sender.stopped_of_done hdone
  | cancelsWriter => exact h.frame rfl id id
  | closerEnds d _ hd =>
    have hcloser : Logged { s with closers := s.closers - 1 } := h.frame rfl id id
    rcases hd with rfl | ⟨rfl, hdone⟩
    · exact hcloser.discard.note rfl id id nofun nofun nofun nofun nofun
    · refine hcloser.discard.note rfl id id (fun _ => ?_) nofun nofun nofun nofun
      change (Sender.discardPending _).writer.stopped = true
      rw [Sender.discardPending_writer]
      exact Sender.stopped_of_done hdone
  | stops rest => exact h.frame rfl (fun _ => rfl) id
  | flushes i rest =>
    obtain ⟨flushes, heq, -⟩ := Sender.resolve_eq { s with queue := rest } i .returned
    rw [heq]
    exact h.frame rfl id id
  | takes p rest hidle =>
    have hlive : s.writer.stopped = false := by rw [hidle]; rfl
    exact h.note rfl (fun hw => absurd (hw.symm.trans hlive) nofun) id nofun nofun (fun _ => hlive)
      nofun nofun
  | writes p hwriting =>
    have hlive : s.writer.stopped = false := by rw [hwriting]; rfl
    exact h.note rfl (fun hw => absurd (hw.symm.trans hlive) nofun) id nofun nofun (fun _ => hlive)
      nofun nofun
  | fails p => exact h.fails .socket rfl s.cancelRequested rfl rfl rfl
  | failsSlow p => exact h.fails .slow rfl false rfl rfl rfl
  | callsSlow p hwriting =>
    have hlive : s.writer.stopped = false := by rw [hwriting]; rfl
    refine (h.fails .slow (w := .onSlow) rfl false (d := .writeTimedOut) rfl rfl rfl).note rfl id id
      nofun nofun nofun nofun fun _ => ⟨?_, ?_⟩
    · change (Sender.discardPending _).writer.stopped = true
      rw [Sender.discardPending_writer]
      rfl
    · intro e he
      by_contra hslow
      simp only [Sender.note, Sender.discardPending_log, List.mem_append, List.mem_singleton] at he
      rcases he with he | rfl
      · exact absurd ((h.slow e he (eq_true_of_ne_false hslow)).symm.trans hlive) nofun
      · exact hslow rfl
  | slowReturns => exact h.frame rfl (fun _ => rfl) id
  | cancelled => exact h.frame rfl (fun _ => rfl) id

end Logged

-- ---------------------------------------------------------------------------
-- The contract
-- ---------------------------------------------------------------------------

structure Inv (s : Sender) : Prop where
  counted : Counted s
  ordered : Ordered s
  flags : Flags s
  waits : Waits s
  logged : Logged s

theorem Inv.init : Inv {} := ⟨⟨rfl, rfl⟩, .init, .init, .init, .init⟩

theorem Inv.next {a : Action} (h : Inv s) (hstep : step hasOnSlow s a = some s') : Inv s' := by
  have he := step_effect hstep
  exact ⟨h.counted.effect he, h.ordered.effect h.flags he, h.flags.effect he, h.waits.effect he,
    h.logged.effect he⟩

theorem Inv.of_reachable (h : Reachable (step hasOnSlow) {} s) : Inv s :=
  h.invariant .init fun _ _ _ hinv _ hstep => hinv.next hstep

theorem nbytes_sum_nonneg (ps : List Payload) : 0 ≤ (ps.map Payload.nbytes).sum := by
  induction ps with
  | nil => exact Int.le_refl 0
  | cons p ps ih =>
    have hp : 0 ≤ p.nbytes := by cases p <;> simp [Payload.nbytes]
    simp only [List.map_cons, List.sum_cons]
    omega

theorem Counted.nonneg (h : Counted s) : 0 ≤ s.pendingMsgs ∧ 0 ≤ s.pendingBytes :=
  ⟨h.msgs ▸ Int.natCast_nonneg _, h.bytes ▸ nbytes_sum_nonneg _⟩

/-- Once the writer is done and no `aclose` waits for it the queue holds stop markers only. -/
theorem Inv.drained (h : Inv s) (hdone : s.writerDone = true) (hclosers : s.closers = 0) :
    ∀ x ∈ s.queue, x.isStop = true := by
  have hshut := h.flags.stopped (Sender.stopped_of_done hdone)
  unfold Sender.shut at hshut
  rcases Bool.or_eq_true_iff.1 hshut with hfailed | hclosing
  · exact h.waits.failed hfailed
  · exact h.waits.closed hclosing hclosers

/-- What the sender promises in every state it can reach. -/
structure Contract (hasOnSlow : Bool) (s : Sender) : Prop where
  handed : s.handed <+: s.accepted
  written : s.written <+: s.handed
  /-- nothing reaches the socket after a failed or timed-out write, or once `aclose` returned -/
  ended : s.log.Pairwise fun d e => d.ends = true → e.writes = false
  flushed : ∀ i, (s.flushes i).state = .returned → (s.flushes i).ahead <+: s.written
  /-- after a failure, or once `aclose` was called, whoever calls gets `ClientGone` -/
  refused : (∃ d ∈ s.log, d.shuts = true) →
    (∀ p, step hasOnSlow s (.send p) = some (s.note (.refused p))) ∧
      step hasOnSlow s .flush = some (s.note .flushRefused)
  slowOnce : s.log.countP Deed.isSlow ≤ 1
  msgs : s.pendingMsgs = (payloads s.queue).length
  bytes : s.pendingBytes = ((payloads s.queue).map Payload.nbytes).sum
  nonneg : 0 ≤ s.pendingMsgs ∧ 0 ≤ s.pendingBytes
  stopped : s.writerDone = true → s.closers = 0 → s.pendingMsgs = 0 ∧ s.pendingBytes = 0

theorem Inv.contract (h : Inv s) : Contract hasOnSlow s where
  handed := (List.prefix_append ..).trans h.ordered.inOrder
  written := h.ordered.writer.initial
  ended := h.logged.noWrite
  flushed := h.ordered.returned
  refused := by
    rintro ⟨d, hd, hshuts⟩
    have hclosed : s.isOpen = false := by
      rw [← Bool.not_eq_true, Sender.isOpen_eq_true, h.logged.shuts d hd hshuts]
      exact fun hopen => nomatch hopen.1
    exact ⟨fun p => by simp [step, Sender.send, hclosed], by simp [step, Sender.flush, hclosed]⟩
  slowOnce := h.logged.slowOnce
  msgs := h.counted.msgs
  bytes := h.counted.bytes
  nonneg := h.counted.nonneg
  stopped hdone hclosers := by
    have hnone := payloads_eq_nil (h.drained hdone hclosers)
    rw [h.counted.msgs, h.counted.bytes, hnone]
    exact ⟨rfl, rfl⟩

-- ---------------------------------------------------------------------------
-- No flush waits forever
-- ---------------------------------------------------------------------------

def Item.isFlush (i : FlushId) : Item → Bool
  | .flush j => i == j
  | _ => false

/-- How far the writer is from a state in which flush `i` has its answer: two steps for
each item up to its marker, and what is left of the step under way. -/
def rank (i : FlushId) (s : Sender) : Nat :=
  2 * s.queue.findIdx (Item.isFlush i) +
    match s.writer with
    | .writing _ => 2
    | .idle => 1
    | .onSlow => 0
    | .done => 0

def Waiting (i : FlushId) (s : Sender) : Prop := (s.flushes i).state = .waiting

/-- The marker of a waiting flush does not move when something is queued behind it. -/
theorem findIdx_append_flush {i : FlushId} {q r : List Item} (h : .flush i ∈ q) :
    (q ++ r).findIdx (Item.isFlush i) = q.findIdx (Item.isFlush i) := by
  rw [List.findIdx_append, if_pos]
  exact List.findIdx_lt_length_of_exists ⟨_, h, by simp [Item.isFlush]⟩

theorem waiting_live (h : Inv s) {i : FlushId} (hwaits : Waiting i s) :
    s.failure.isSome = false ∧ (s.closing = true → s.closers ≠ 0) := by
  have hmem := h.waits.queued i hwaits
  refine ⟨?_, ?_⟩
  · by_contra hfailed
    cases h.waits.failed (eq_true_of_ne_false hfailed) _ hmem
  · intro hclosing hclosers
    cases h.waits.closed hclosing hclosers _ hmem

/-- While a flush waits, the writer or a caller of `aclose` can go on. -/
theorem waiting_enabled (h : Inv s) {i : FlushId} (hwaits : Waiting i s) :
    Execution.Enabled (step hasOnSlow) (fun a => a.ofSender = true) s := by
  obtain ⟨hfailure, hclosers⟩ := waiting_live h hwaits
  cases hwriter : s.writer with
  | idle =>
    cases hcancel : s.cancelRequested with
    | true => exact ⟨.writerCancelled, rfl, by simp [step, hcancel, Sender.writerDone, hwriter]⟩
    | false =>
      refine ⟨.writerGets, rfl, ?_⟩
      have hmem := h.waits.queued i hwaits
      cases hqueue : s.queue with
      | nil => rw [hqueue] at hmem; cases hmem
      | cons x rest => cases x <;> simp [step, hwriter, hcancel, Sender.get, hqueue]
  | writing p => exact ⟨.writeSucceeds, rfl, by simp [step, hwriter]⟩
  | onSlow =>
    have hfailed := h.flags.onSlow hwriter
    rw [hfailure] at hfailed
    cases hfailed
  | done =>
    have hdone : s.writerDone = true := by simp [Sender.writerDone, hwriter]
    have hshut := h.flags.stopped (Sender.stopped_of_done hdone)
    simp only [Sender.shut, hfailure, Bool.false_or] at hshut
    exact ⟨.closerResumes false, rfl, by simp [step, hdone, hclosers hshut]⟩

theorem findIdx_pop {i : FlushId} {x : Item} {rest : List Item} (hx : x ≠ .flush i) :
    (x :: rest).findIdx (Item.isFlush i) = rest.findIdx (Item.isFlush i) + 1 := by
  have hfalse : Item.isFlush i x = false := by
    cases x with
    | payload p => rfl
    | flush j => exact beq_eq_false_iff_ne.2 fun heq => hx (heq ▸ rfl)
    | stop => rfl
  simp [List.findIdx_cons, hfalse]

theorem Sender.aclose_queue (s : Sender) : s.aclose.queue = [] ∨
    s.aclose.queue = s.queue ++ [.stop] ∧ s.aclose.writer = s.writer := by
  unfold Sender.aclose
  dsimp only
  split
  · exact .inl (Sender.discardPending_queue _)
  · exact .inr ⟨rfl, rfl⟩

/-- Taking the front of the queue brings every later marker nearer. -/
theorem get_rank {i : FlushId} (hidle : s.writer = .idle)
    (hwaits' : Waiting i s') (hget : s.get = some s') : rank i s' < rank i s := by
  unfold Sender.get at hget
  split at hget
  · cases hget
  · rename_i rest hqueue
    cases hget
    have hfront : (Item.stop :: rest).findIdx (Item.isFlush i) =
        rest.findIdx (Item.isFlush i) + 1 := findIdx_pop nofun
    simp only [rank, hidle, hqueue, hfront]
    omega
  · rename_i j rest hqueue
    cases hget
    obtain ⟨flushes, heq, -, -, hj⟩ := Sender.resolve_eq { s with queue := rest } j .returned
    rw [heq] at hwaits' ⊢
    have hne : Item.flush j ≠ .flush i := by
      intro hji
      cases hji
      exact hj nofun hwaits'
    simp only [rank, hidle, hqueue, findIdx_pop hne]
    omega
  · rename_i p rest hqueue
    cases hget
    have hfront : (Item.payload p :: rest).findIdx (Item.isFlush i) =
        rest.findIdx (Item.isFlush i) + 1 := findIdx_pop nofun
    simp only [rank, hidle, hqueue, hfront, Sender.note, Sender.countOut]
    omega

/-- No step takes a waiting flush further from its answer, and those of the sender bring
it nearer. -/
theorem step_rank {i : FlushId} {a : Action} (h : Inv s) (hwaits : Waiting i s)
    (hstep : step hasOnSlow s a = some s') (hwaits' : Waiting i s') :
    rank i s' ≤ rank i s ∧ (a.ofSender = true → rank i s' < rank i s) := by
  have hmem := h.waits.queued i hwaits
  have hmem' := (h.next hstep).waits.queued i hwaits'
  have hgone : ∀ {t : Sender}, .flush i ∈ t.discardPending.queue → False := by
    intro t hin
    rw [Sender.discardPending_queue] at hin
    cases hin
  have hlive : s.writer = .onSlow → False := by
    intro hslow
    have hfailed := h.flags.onSlow hslow
    rw [(waiting_live h hwaits).1] at hfailed
    cases hfailed
  have happend : ∀ r : List Item, (s.queue ++ r).findIdx (Item.isFlush i) =
      s.queue.findIdx (Item.isFlush i) := fun r => findIdx_append_flush hmem
  cases a with
  | send p =>
    cases hstep
    refine ⟨?_, fun hof => by cases hof⟩
    unfold Sender.send
    split
    · simp [rank, Sender.countIn, Sender.note, happend]
    · exact Nat.le_refl _
  | flush =>
    cases hstep
    refine ⟨?_, fun hof => by cases hof⟩
    unfold Sender.flush
    split
    · simp [rank, happend]
    · exact Nat.le_refl _
  | cancelFlush j =>
    cases hstep
    obtain ⟨flushes, heq, -⟩ := s.resolve_eq j .cancelled
    rw [heq]
    exact ⟨Nat.le_refl _, fun hof => by cases hof⟩
  | aclose =>
    cases hstep
    refine ⟨?_, fun hof => by cases hof⟩
    rcases s.aclose_queue with hempty | ⟨hqueue, hwriter⟩
    · rw [hempty] at hmem'
      cases hmem'
    · simp [rank, hqueue, hwriter, happend]
  | cancelWriter =>
    simp only [step] at hstep
    split at hstep
    · cases hstep
      exact ⟨Nat.le_refl _, fun hof => by cases hof⟩
    · cases hstep
  | closerResumes raises =>
    simp only [step] at hstep
    split at hstep
    · cases hstep
      exact (hgone hmem').elim
    · cases hstep
  | closerLeaves =>
    simp only [step] at hstep
    split at hstep
    · cases hstep
      exact (hgone hmem').elim
    · cases hstep
  | writerGets =>
    simp only [step] at hstep
    split at hstep
    · rename_i hidle _
      have hfront := get_rank hidle hwaits' hstep
      exact ⟨Nat.le_of_lt hfront, fun _ => hfront⟩
    · cases hstep
  | writeSucceeds =>
    simp only [step] at hstep
    split at hstep
    · rename_i hwriting
      cases hstep
      simp [rank, Sender.note, hwriting]
    · cases hstep
  | writeFails =>
    simp only [step] at hstep
    split at hstep
    · cases hstep
      exact (hgone hmem').elim
    · cases hstep
  | writeTimesOut =>
    simp only [step] at hstep
    split at hstep
    · cases hstep
      unfold Sender.failSlow at hmem'
      dsimp only at hmem'
      split at hmem'
      · exact (hgone hmem').elim
      · exact (hgone hmem').elim
    · cases hstep
  | slowReturns =>
    cases hwriter : s.writer with
    | onSlow => exact (hlive hwriter).elim
    | idle => simp [step, hwriter] at hstep
    | writing p => simp [step, hwriter] at hstep
    | done => simp [step, hwriter] at hstep
  | writerCancelled =>
    simp only [step] at hstep
    split at hstep
    · rename_i hguard
      cases hstep
      cases hwriter : s.writer with
      | idle => simp [rank, hwriter]
      | writing p => simp [rank, hwriter]
      | onSlow => exact (hlive hwriter).elim
      | done => simp [Sender.writerDone, hwriter] at hguard
    · cases hstep

/-- A future that has been called stays so. -/
theorem Effect.called (he : Effect s s') {i : FlushId} (h : (s.flushes i).state ≠ .uncalled) :
    (s'.flushes i).state ≠ .uncalled := by
  have hends : ∀ {state : FlushState} {flushes : FlushId → Flush},
      Sender.Ends state s.flushes flushes → state ≠ .uncalled → (flushes i).state ≠ .uncalled := by
    intro state flushes hends hne huncalled
    exact h (hends.of_state hne huncalled ▸ huncalled)
  have hdiscard : ∀ {t : Sender}, t.flushes = s.flushes →
      (t.discardPending.flushes i).state ≠ .uncalled := by
    intro t ht
    obtain ⟨flushes, heq, hleaves, -⟩ := t.discardPending_eq
    have hkept := hends (ht ▸ hleaves) (by decide)
    rw [heq]
    exact hkept
  cases he with
  | waits =>
    by_cases hi : i = s.flushCount
    · subst hi
      simp
    · simpa [Function.update_of_ne hi] using h
  | cancels j =>
    obtain ⟨flushes, heq, hleaves, -⟩ := s.resolve_eq j .cancelled
    rw [heq]
    exact hends hleaves nofun
  | flushes j rest =>
    obtain ⟨flushes, heq, hleaves, -⟩ := Sender.resolve_eq { s with queue := rest } j .returned
    rw [heq]
    exact hends hleaves nofun
  | closesDone => exact hdiscard rfl
  | closerEnds d => exact hdiscard rfl
  | fails p => exact hdiscard rfl
  | failsSlow p => exact hdiscard rfl
  | callsSlow p => exact hdiscard rfl
  | _ => exact h

/-- A fair run answers every flush: with a result, with `ClientGone`, or by the
cancellation of its caller. -/
theorem flush_answered {e : Execution (step hasOnSlow) {}}
    (hfair : e.WeaklyFair fun a => a.ofSender = true) {i : FlushId} {n : ℕ}
    (hwaits : Waiting i (e.state n)) :
    ∃ m ≥ n, ((e.state m).flushes i).state = .returned ∨
      ((e.state m).flushes i).state = .clientGone ∨ ((e.state m).flushes i).state = .cancelled := by
  obtain ⟨m, hm, hends⟩ := Execution.wait_ends (Waiting i) (rank i) hfair
    (fun s hs hw => waiting_enabled (.of_reachable hs) hw)
    (fun s a s' hs hw hstep hw' => step_rank (.of_reachable hs) hw hstep hw') n
  have hcalled : ((e.state m).flushes i).state ≠ .uncalled := by
    refine e.stable (p := fun s => (s.flushes i).state ≠ .uncalled) ?_ ?_ hm
    · exact fun s a s' hs hstep => (step_effect hstep).called hs
    · rw [hwaits]
      nofun
  refine ⟨m, hm, ?_⟩
  cases hstate : ((e.state m).flushes i).state with
  | uncalled => exact absurd hstate hcalled
  | waiting => exact absurd hstate hends
  | returned => exact .inl rfl
  | clientGone => exact .inr (.inl rfl)
  | cancelled => exact .inr (.inr rfl)

/-- The contract of the sender, in every state of every run, and on every fair run an
answer to every flush. -/
theorem delivery (hasOnSlow : Bool) :
    (∀ s, Reachable (step hasOnSlow) {} s → Contract hasOnSlow s) ∧
      ∀ e : Execution (step hasOnSlow) {}, e.WeaklyFair (fun a => a.ofSender = true) →
        ∀ i n, Waiting i (e.state n) → ∃ m ≥ n,
          ((e.state m).flushes i).state = .returned ∨
            ((e.state m).flushes i).state = .clientGone ∨
              ((e.state m).flushes i).state = .cancelled :=
  ⟨fun _ hs => (Inv.of_reachable hs).contract, fun _ hfair _ _ hwaits => flush_answered hfair hwaits⟩

/-- A flush, a close, and then messages that come too late. -/
def orderly : ℕ → Action
  | 0 => .flush
  | 1 => .writerGets
  | 2 => .aclose
  | 3 => .writerGets
  | 4 => .closerResumes false
  | _ => .send (.json [])

def orderlyState : ℕ → Sender
  | 0 => {}
  | n + 1 => (step true (orderlyState n) (orderly n)).getD (orderlyState n)

def orderlyRun : Execution (step true) {} where
  state := orderlyState
  action := orderly
  starts := rfl
  steps
    | 0 | 1 | 2 | 3 | 4 => rfl
    | _ + 5 => rfl

theorem orderlyRun_over (n : ℕ) : (orderlyState (n + 5)).writer = .done ∧
    (orderlyState (n + 5)).closers = 0 := by
  induction n with
  | zero => exact ⟨rfl, rfl⟩
  | succ n ih =>
    change ((orderlyState (n + 5)).send (.json [])).writer = .done ∧
      ((orderlyState (n + 5)).send (.json [])).closers = 0
    unfold Sender.send
    split
    · exact ih
    · exact ih

theorem orderlyRun_fair : orderlyRun.WeaklyFair fun a => a.ofSender = true := by
  intro n henabled
  obtain ⟨a, hsender, hsome⟩ := henabled (n + 5) (Nat.le_add_right n 5)
  obtain ⟨hdone, hclosers⟩ := orderlyRun_over n
  change (step true (orderlyState (n + 5)) a).isSome = true at hsome
  cases a <;> simp_all [step, Action.ofSender, Sender.writerDone]

theorem delivery_orderly :
    (∃ s, run (step true) {} [.send (.json []), .flush, .writerGets, .writeSucceeds, .writerGets,
        .aclose, .writerGets, .closerResumes false] = some s ∧ Contract true s) ∧
      ∃ m ≥ 1, ((orderlyRun.state m).flushes 0).state = .returned ∨
        ((orderlyRun.state m).flushes 0).state = .clientGone ∨
          ((orderlyRun.state m).flushes 0).state = .cancelled := by
  refine ⟨?_, (delivery true).2 orderlyRun orderlyRun_fair 0 1 rfl⟩
  obtain ⟨s, hs⟩ : ∃ s, run (step true) {} [.send (.json []), .flush, .writerGets, .writeSucceeds,
      .writerGets, .aclose, .writerGets, .closerResumes false] = some s := ⟨_, rfl⟩
  exact ⟨s, hs, (delivery true).1 s (reachable_of_run hs)⟩

end Outbound
