-- SUMMARY: The pushes of a client by the keys of their frames: what is said in a push turn, and what ends it.
import JotaGateway.Bridge.Closers

/-!
# The keys of the pushes

The frames of all the session keys of a client come to one bridge, and one
backlog. The handlers get the key of an event and do not compare it with the
key of the push that is open.
-/

namespace Bridge

/-- The push that the event in hand is to end. -/
def AfterDrop.ending : AfterDrop → Option Nat
  | .chat => none
  | .ended n => some n

def WorkerPc.ending : WorkerPc → Option Nat
  | .dropAudio _ k | .dropClose k => k.ending
  | .endTts n | .drain n _ | .drainCancelled n | .closeTts n => some n
  | _ => none

/-- An event that says something in an open push, or ends it. -/
def Push.touches (cfg : Config) (push : Push) : PushEvent → Bool
  | .turnStart _ => false
  | .chat payload => cfg.outputText && !(push.text.feed payload).2.isEmpty
  | .tool data => cfg.toolCallsEnabled && carriesToolCall data
  | .turnEnd _ => true

/-- It does so in a push of another key. -/
def Push.crosses (cfg : Config) (push : Push) (q : Queued) : Bool :=
  push.turnOpen && push.touches cfg q.event && decide (push.sessionKey ≠ some q.key)

theorem send_cases (out : Output) (m : Msg) :
    ∃ more, (out.send m).wire = out.wire ++ more ∧ ∀ m' ∈ more, m' = m := by
  unfold Output.send
  dsimp only
  split
  · exact ⟨[m], rfl, fun m' hm' => List.mem_singleton.mp hm'⟩
  · exact ⟨[], (List.append_nil _).symm, fun m' hm' => by cases hm'⟩

-- ---------------------------------------------------------------------------
-- What a step of the worker logs
-- ---------------------------------------------------------------------------

namespace Pushing

/-- If push `n` is open, the event in hand is of its key. -/
def Owns (p : Pushing) (n : Nat) : Prop :=
  p.push.turnOpen = true → p.push.turnId = n → p.push.sessionKey = some p.push.worker.key

/-- The push goes on, and nothing is said. -/
structure Same (p₀ p : Pushing) : Prop where
  log : p.push.log = p₀.push.log
  wire : p.out.wire = p₀.out.wire
  seq : p.out.turnSeq = p₀.out.turnSeq
  turnId : p.push.turnId = p₀.push.turnId
  turnOpen : p.push.turnOpen = p₀.push.turnOpen
  sessionKey : p.push.sessionKey = p₀.push.sessionKey

/-- The kinds of step, by what they log. -/
inductive Keyed (p₀ p : Pushing) : Prop where
  | same (h : Same p₀ p) (howns : ∀ n, p.push.worker.pc.ending = some n → p.Owns n)
  | opened (n : Nat) (sk : SessionKey) (hn : n = p₀.out.turnSeq + 1) (hseq : p.out.turnSeq = n)
      (hlog : p.push.log = p₀.push.log ++ [.opened n sk])
      (hwire : p.out.wire = (p₀.out.send (.turnStart n (turnSeq16 n))).wire)
      (hid : p.push.turnId = n) (hopen : p.push.turnOpen = true)
      (hkey : p.push.sessionKey = some sk) (hending : p.push.worker.pc.ending = none)
  | said (m : Msg) (hopen : p₀.push.turnOpen = true) (hm : m.replyOf = some p₀.push.turnId)
      (hkey : p₀.push.sessionKey = some p.push.worker.key)
      (hlog : p.push.log = p₀.push.log ++ [.content m p.push.worker.key])
      (hwire : p.out.wire = (p₀.out.send m).wire) (hseq : p.out.turnSeq = p₀.out.turnSeq)
      (hid : p.push.turnId = p₀.push.turnId) (hopen' : p.push.turnOpen = p₀.push.turnOpen)
      (hsame : p.push.sessionKey = p₀.push.sessionKey) (hending : p.push.worker.pc.ending = none)
  | ended (hopen : p₀.push.turnOpen = true) (hkey : p₀.push.sessionKey = some p.push.worker.key)
      (hlog : p.push.log = p₀.push.log ++ [.closed p₀.push.turnId (.ended p.push.worker.key)])
      (hwire : p.out.wire = (p₀.out.send (.turnEnd p₀.push.turnId)).wire)
      (hseq : p.out.turnSeq = p₀.out.turnSeq) (hid : p.push.turnId = p₀.push.turnId)
      (hclosed : p.push.turnOpen = false) (hsame : p.push.sessionKey = p₀.push.sessionKey)
      (hending : p.push.worker.pc.ending = none)

variable {cfg : Config} {env : WorkerEnv} {closing : Bool} {p₀ p : Pushing} {n : Nat}

theorem Same.refl (p : Pushing) : Same p p := ⟨rfl, rfl, rfl, rfl, rfl, rfl⟩

theorem ending_finishEvent : (p.finishEvent closing).push.worker.pc.ending = none := by
  cases closing with
  | true => rfl
  | false => rfl

/-- No push is to be ended. -/
theorem Same.keyed (h : Same p₀ p) (hending : p.push.worker.pc.ending = none) : Keyed p₀ p := by
  refine .same h fun n hn => ?_
  rw [hending] at hn
  cases hn

theorem finishEvent_keyed (h : Same p₀ p) : Keyed p₀ (p.finishEvent closing) := by
  have hsame : Same p₀ (p.finishEvent closing) :=
    ⟨h.log, h.wire, h.seq, h.turnId, h.turnOpen, h.sessionKey⟩
  exact hsame.keyed ending_finishEvent

theorem send_wire {out out' : Output} (hwire : out'.wire = out.wire)
    (hsender : out'.senderOpen = out.senderOpen) (m : Msg) : (out'.send m).wire = (out.send m).wire := by
  simp only [Output.send, hwire, hsender]

theorem endTurn_keyed (h : Same p₀ p) (hsender : p.out.senderOpen = p₀.out.senderOpen)
    (howns : p.Owns n) : Keyed p₀ (p.endTurn closing n) := by
  unfold endTurn closePushTurn
  split
  · rename_i hopen
    simp only [Bool.and_eq_true, beq_iff_eq] at hopen
    obtain ⟨hopen, rfl⟩ := hopen
    refine .ended (h.turnOpen.symm.trans hopen) ?_ ?_ ?_ h.seq h.turnId rfl h.sessionKey ending_finishEvent
    · exact h.sessionKey.symm.trans (howns hopen rfl)
    · simp only [finishEvent, h.log, h.turnId]
    · exact h.turnId ▸ send_wire h.wire hsender _
  · exact finishEvent_keyed h

theorem afterDrain_keyed (h : Same p₀ p) (hsender : p.out.senderOpen = p₀.out.senderOpen)
    (howns : p.Owns n) : Keyed p₀ (p.afterDrain closing n) := by
  unfold afterDrain
  dsimp only
  split
  · refine .same ⟨h.log, h.wire, h.seq, h.turnId, h.turnOpen, h.sessionKey⟩ fun k hk => ?_
    cases hk
    exact howns
  · exact endTurn_keyed ⟨h.log, h.wire, h.seq, h.turnId, h.turnOpen, h.sessionKey⟩ hsender howns

theorem drain_keyed (h : Same p₀ p) (hsender : p.out.senderOpen = p₀.out.senderOpen)
    (howns : p.Owns n) : Keyed p₀ (p.drain closing n) := by
  unfold drain
  split
  · split
    · refine .same ⟨h.log, h.wire, h.seq, h.turnId, h.turnOpen, h.sessionKey⟩ fun k hk => ?_
      cases hk
      exact howns
    · exact afterDrain_keyed h hsender howns
  · exact afterDrain_keyed h hsender howns

theorem afterDrop_keyed {k : AfterDrop} (h : Same p₀ p) (hsender : p.out.senderOpen = p₀.out.senderOpen)
    (howns : ∀ n, k.ending = some n → p.Owns n) : Keyed p₀ (p.afterDrop closing k) := by
  cases k with
  | chat => exact finishEvent_keyed h
  | ended n => exact drain_keyed h hsender (howns n rfl)

theorem dropPushTts_keyed {k : AfterDrop} (howns : ∀ n, k.ending = some n → p.Owns n) :
    Keyed p (p.dropPushTts closing k) := by
  unfold dropPushTts
  split
  · exact afterDrop_keyed (.refl p) rfl howns
  · split
    all_goals
      rename_i hdrop
      have hdropped := dropTts_dropped hdrop
      have hpush := hdropped.push
      refine .same ⟨?_, hdropped.wire, hdropped.out.seq, ?_, ?_, ?_⟩ fun n hn => ?_
      all_goals simp only [goto, Owns, hpush]
      exact howns n hn

theorem deliverPush_keyed {payload : PyDict}
    (howns : p.push.touches cfg (.chat payload) = true → p.push.turnOpen = true →
      p.push.sessionKey = some p.push.worker.key) :
    Keyed p (p.deliverPush cfg closing payload) := by
  have hfed : ∀ text, Same p { p with push.text := text } := fun _ => ⟨rfl, rfl, rfl, rfl, rfl, rfl⟩
  unfold deliverPush pushAllowed
  split
  · rename_i hallowed
    have hopen : p.push.turnOpen = true := (Bool.and_eq_true _ _ ▸ hallowed).2
    dsimp only
    split
    · exact finishEvent_keyed (hfed _)
    · rename_i hdelta
      have hdelta := Bool.eq_false_iff.mpr hdelta
      cases htext : cfg.outputText with
      | true =>
        have hkey := howns (by simp only [Push.touches, htext, hdelta, Bool.not_false, Bool.and_self])
          hopen
        simp only [if_true]
        split
        · exact .said _ hopen rfl hkey rfl rfl rfl rfl rfl rfl rfl
        · exact .said _ hopen rfl hkey rfl rfl rfl rfl rfl rfl ending_finishEvent
      | false =>
        simp only [Bool.false_eq_true, if_false]
        split
        · refine Same.keyed ?_ rfl
          exact ⟨rfl, rfl, rfl, rfl, rfl, rfl⟩
        · exact finishEvent_keyed (hfed _)
  · exact finishEvent_keyed (.refl p)

theorem deliverPushToolCall_keyed {data : PyDict}
    (howns : p.push.touches cfg (.tool data) = true → p.push.turnOpen = true →
      p.push.sessionKey = some p.push.worker.key) :
    Keyed p (p.deliverPushToolCall cfg closing data) := by
  unfold deliverPushToolCall pushAllowed
  split
  · rename_i hallowed
    simp only [Bool.and_eq_true] at hallowed
    obtain ⟨⟨-, hopen⟩, henabled⟩ := hallowed
    split
    · rename_i hcall
      have hkey := howns (by simp only [Push.touches, carriesToolCall, henabled, hcall, Bool.and_self])
        hopen
      exact .said _ hopen rfl hkey rfl rfl rfl rfl rfl rfl ending_finishEvent
    · exact finishEvent_keyed (.refl p)
  · exact finishEvent_keyed (.refl p)

theorem onPushTurnEnd_keyed (howns : p.Owns p.push.turnId) : Keyed p (p.onPushTurnEnd closing) := by
  unfold onPushTurnEnd
  split
  · split
    · refine .same ⟨rfl, rfl, rfl, rfl, rfl, rfl⟩ fun n hn => ?_
      cases hn
      exact howns
    · exact drain_keyed (.refl p) rfl howns
  · exact finishEvent_keyed (.refl p)

theorem onPushTurnStart_keyed {sk : SessionKey} : Keyed p (p.onPushTurnStart cfg closing sk) := by
  unfold onPushTurnStart
  split
  · exact finishEvent_keyed (.refl p)
  · dsimp only
    split
    · exact .opened _ sk rfl rfl rfl rfl rfl rfl rfl rfl
    · exact .opened _ sk rfl rfl rfl rfl rfl rfl rfl ending_finishEvent

theorem throughLock_keyed {sk : SessionKey} : Keyed p (p.throughLock env sk) := by
  unfold throughLock
  split
  · exact Same.keyed ⟨rfl, rfl, rfl, rfl, rfl, rfl⟩ rfl
  · split
    · exact onPushTurnStart_keyed
    · exact Same.keyed ⟨rfl, rfl, rfl, rfl, rfl, rfl⟩ rfl

theorem handle_keyed {event : PushEvent}
    (howns : p.push.touches env.cfg event = true → p.push.turnOpen = true →
      p.push.sessionKey = some p.push.worker.key) : Keyed p (p.handle env event) := by
  cases event with
  | turnStart sk => exact throughLock_keyed
  | chat payload => exact deliverPush_keyed howns
  | tool data => exact deliverPushToolCall_keyed howns
  | turnEnd sk => exact onPushTurnEnd_keyed fun hopen _ => howns rfl hopen

/-- The backlog and the event in hand are no part of what is logged. -/
theorem Keyed.of_taken {queue : List Queued} {worker : Worker}
    (h : Keyed { p₀ with push.queue := queue, push.worker := worker } p) : Keyed p₀ p := by
  cases h with
  | same h howns =>
    exact .same ⟨h.log, h.wire, h.seq, h.turnId, h.turnOpen, h.sessionKey⟩ howns
  | opened n sk hn hseq hlog hwire hid hopen hkey hending =>
    exact .opened n sk hn hseq hlog hwire hid hopen hkey hending
  | said m hopen hm hkey hlog hwire hseq hid hopen' hsame hending =>
    exact .said m hopen hm hkey hlog hwire hseq hid hopen' hsame hending
  | ended hopen hkey hlog hwire hseq hid hclosed hsame hending =>
    exact .ended hopen hkey hlog hwire hseq hid hclosed hsame hending

theorem take_keyed (howns : ∀ q, p₀.push.queue.head? = some q → p₀.push.crosses env.cfg q = false)
    (h : p₀.take env = some p) : Keyed p₀ p := by
  unfold take at h
  split at h
  · cases h
  · rename_i q rest hqueue
    cases h
    refine Keyed.of_taken (handle_keyed fun htouches hopen => ?_)
    have hcrosses := howns q (by rw [hqueue]; rfl)
    have htouches : p₀.push.touches env.cfg q.event = true := htouches
    have hopen : p₀.push.turnOpen = true := hopen
    simp only [Push.crosses, htouches, hopen, Bool.and_self, Bool.true_and, decide_eq_false_iff_not,
      not_not] at hcrosses
    exact hcrosses

theorem onCancelled_keyed (h : p₀.onCancelled = some p) : Keyed p₀ p := by
  unfold onCancelled at h
  split at h
  · cases h
  · cases h
    exact Same.keyed ⟨rfl, rfl, rfl, rfl, rfl, rfl⟩ rfl
  · cases h
    exact finishEvent_keyed (.refl p₀)

theorem connected_keyed : Keyed p (p.connected closing n) := by
  unfold connected
  dsimp only
  split
  · refine Same.keyed ?_ ending_finishEvent
    exact ⟨rfl, rfl, rfl, rfl, rfl, rfl⟩
  · exact Same.keyed ⟨rfl, rfl, rfl, rfl, rfl, rfl⟩ rfl

theorem resume_keyed {a : WorkerAct} (howns : ∀ n, p₀.push.worker.pc.ending = some n → p₀.Owns n)
    (htake : a = .take → ∀ q, p₀.push.queue.head? = some q → p₀.push.crosses env.cfg q = false)
    (h : p₀.resume env a = some p) : Keyed p₀ p := by
  unfold resume at h
  split at h
  case h_22 => cases h
  all_goals rename_i hpc; simp only [WorkerPc.ending, hpc] at howns
  case h_1 => exact take_keyed (htake rfl) h
  case h_2 =>
    split at h
    · cases h
      exact Same.keyed ⟨rfl, rfl, rfl, rfl, rfl, rfl⟩ rfl
    · cases h
  case h_3 | h_4 =>
    split at h
    all_goals first | cases h; exact throughLock_keyed | cases h
  case h_5 =>
    cases h
    exact connected_keyed
  case h_6 | h_7 | h_8 | h_9 | h_10 =>
    cases h
    exact finishEvent_keyed (.refl p₀)
  case h_11 =>
    cases h
    exact dropPushTts_keyed fun _ hn => by cases hn
  case h_12 s k =>
    cases h
    exact .same ⟨rfl, rfl, rfl, rfl, rfl, rfl⟩ howns
  case h_13 | h_14 =>
    cases h
    exact afterDrop_keyed (.refl p₀) rfl howns
  case h_15 n =>
    cases h
    exact drain_keyed (.refl p₀) rfl (howns n rfl)
  case h_16 n =>
    cases h
    exact dropPushTts_keyed howns
  case h_17 n a =>
    split at h
    · cases h
    · cases h
      exact afterDrain_keyed (.refl p₀) rfl (howns n rfl)
  case h_18 n a =>
    split at h
    · cases h
      exact .same ⟨rfl, rfl, rfl, rfl, rfl, rfl⟩ howns
    · cases h
  case h_19 n =>
    cases h
    exact afterDrain_keyed (.refl p₀) rfl (howns n rfl)
  case h_20 n | h_21 n =>
    cases h
    exact endTurn_keyed ⟨rfl, rfl, rfl, rfl, rfl, rfl⟩ rfl (howns n rfl)

/-- What one step of the worker logs, unless it crosses two keys. -/
theorem step_keyed {a : WorkerAct} (howns : ∀ n, p₀.push.worker.pc.ending = some n → p₀.Owns n)
    (htake : a = .take → ∀ q, p₀.push.queue.head? = some q → p₀.push.crosses env.cfg q = false)
    (h : p₀.step env a = some p) : Keyed p₀ p := by
  unfold step at h
  split at h
  · split at h
    · exact (onCancelled_keyed h).of_taken
    · cases h
  · split at h
    · cases h
    · exact resume_keyed howns htake h

end Pushing

-- ---------------------------------------------------------------------------
-- The invariant
-- ---------------------------------------------------------------------------

/-- What the keys of the pushes are about. -/
structure KeyView where
  log : List PushDeed
  wire : List Msg
  seq : Nat
  turns : TurnRef → TurnTask
  turnOpen : Bool
  turnId : Nat
  sessionKey : Option SessionKey
  ending : Option Nat
  key : SessionKey

namespace KeyView

structure Ok (v : KeyView) : Prop where
  bound : ∀ n sk, .opened n sk ∈ v.log → n ≤ v.seq
  once : ∀ n sk sk', .opened n sk ∈ v.log → .opened n sk' ∈ v.log → sk = sk'
  current : v.turnOpen = true → ∃ sk, v.sessionKey = some sk ∧ .opened v.turnId sk ∈ v.log
  ending : ∀ n, v.ending = some n → v.turnOpen = true → v.turnId = n → v.sessionKey = some v.key
  content : ∀ m key n, .content m key ∈ v.log → m.replyOf = some n → .opened n key ∈ v.log
  closed : ∀ n key, .closed n (.ended key) ∈ v.log → .opened n key ∈ v.log
  turns : ∀ t, (v.turns t).started = true → ∀ sk, .opened (v.turns t).id sk ∉ v.log
  replies : ∀ m ∈ v.wire, ∀ n sk, m.replyOf = some n → .opened n sk ∈ v.log →
    ∃ key, .content m key ∈ v.log
  ends : ∀ n sk, .turnEnd n ∈ v.wire → .opened n sk ∈ v.log → ∃ by_, .closed n by_ ∈ v.log

namespace Ok

variable {v : KeyView}

/-- The worker goes on. -/
theorem worker (h : v.Ok) (ending : Option Nat) (key : SessionKey)
    (hending : ∀ n, ending = some n → v.turnOpen = true → v.turnId = n → v.sessionKey = some key) :
    Ok { v with ending := ending, key := key } :=
  ⟨h.bound, h.once, h.current, hending, h.content, h.closed, h.turns, h.replies, h.ends⟩

theorem later (h : v.Ok) {seq : Nat} {turns : TurnRef → TurnTask} (hseq : v.seq ≤ seq)
    (hturns : ∀ t, (turns t).started = true → ∀ sk, .opened (turns t).id sk ∉ v.log) :
    Ok { v with seq := seq, turns := turns } :=
  ⟨fun n sk hn => (h.bound n sk hn).trans hseq, h.once, h.current, h.ending, h.content, h.closed, hturns,
    h.replies, h.ends⟩

/-- What is said in a push, or ends it, has been logged. -/
theorem tells (h : v.Ok) (more : List Msg)
    (hreplies : ∀ m ∈ more, ∀ n sk, m.replyOf = some n → .opened n sk ∈ v.log →
      ∃ key, .content m key ∈ v.log)
    (hends : ∀ n sk, .turnEnd n ∈ more → .opened n sk ∈ v.log → ∃ by_, .closed n by_ ∈ v.log) :
    Ok { v with wire := v.wire ++ more } := by
  refine ⟨h.bound, h.once, h.current, h.ending, h.content, h.closed, h.turns, ?_, ?_⟩
  · intro m hm
    cases List.mem_append.mp hm with
    | inl hold => exact h.replies m hold
    | inr hnew => exact hreplies m hnew
  · intro n sk hn
    cases List.mem_append.mp hn with
    | inl hold => exact h.ends n sk hold
    | inr hnew => exact hends n sk hnew

/-- What is said is of no push. -/
theorem apart (h : v.Ok) (more : List Msg)
    (hmore : ∀ m ∈ more, ∀ n, m.replyOf = some n ∨ m = .turnEnd n → ∀ sk, .opened n sk ∉ v.log) :
    Ok { v with wire := v.wire ++ more } :=
  h.tells more (fun m hm n sk hn ho => absurd ho (hmore m hm n (.inl hn) sk))
    fun n sk hn ho => absurd ho (hmore _ hn n (.inr rfl) sk)

/-- Something is logged of a push that has been opened. -/
theorem logs (h : v.Ok) (d : PushDeed) (hopened : ∀ n sk, d ≠ .opened n sk)
    (hcontent : ∀ m key n, d = .content m key → m.replyOf = some n → .opened n key ∈ v.log)
    (hclosed : ∀ n key, d = .closed n (.ended key) → .opened n key ∈ v.log) :
    Ok { v with log := v.log ++ [d] } := by
  have hold : ∀ {n sk}, .opened n sk ∈ v.log ++ [d] → .opened n sk ∈ v.log := by
    intro n sk hn
    cases List.mem_append.mp hn with
    | inl hold => exact hold
    | inr hnew => exact absurd (List.mem_singleton.mp hnew).symm (hopened n sk)
  have hkeep : ∀ {d'}, d' ∈ v.log → d' ∈ v.log ++ [d] := List.mem_append_left _
  refine ⟨fun n sk hn => h.bound n sk (hold hn), fun n sk sk' hn hn' => h.once n sk sk' (hold hn) (hold hn'),
    ?_, h.ending, ?_, ?_, fun t ht sk hn => h.turns t ht sk (hold hn), ?_, ?_⟩
  · intro hopen
    obtain ⟨sk, hkey, hn⟩ := h.current hopen
    exact ⟨sk, hkey, hkeep hn⟩
  · intro m key n hm hreply
    cases List.mem_append.mp hm with
    | inl hm => exact hkeep (h.content m key n hm hreply)
    | inr hm => exact hkeep (hcontent m key n (List.mem_singleton.mp hm).symm hreply)
  · intro n key hn
    cases List.mem_append.mp hn with
    | inl hn => exact hkeep (h.closed n key hn)
    | inr hn => exact hkeep (hclosed n key (List.mem_singleton.mp hn).symm)
  · intro m hm n sk hreply hn
    obtain ⟨key, hkey⟩ := h.replies m hm n sk hreply (hold hn)
    exact ⟨key, hkeep hkey⟩
  · intro n sk hn ho
    obtain ⟨by_, hby⟩ := h.ends n sk hn (hold ho)
    exact ⟨by_, hkeep hby⟩

/-- The push that is open ends. -/
theorem closes (h : v.Ok) (hopen : v.turnOpen = true) (by_ : PushCloser)
    (hby : ∀ key, by_ = .ended key → v.sessionKey = some key) :
    Ok { v with log := v.log ++ [.closed v.turnId by_], turnOpen := false } := by
  have hlogged : Ok { v with log := v.log ++ [.closed v.turnId by_] } := by
    refine h.logs _ (fun _ _ hd => by cases hd) (fun _ _ _ hd => by cases hd) fun n key hd => ?_
    cases hd
    obtain ⟨sk, hsk, hn⟩ := h.current hopen
    obtain rfl : key = sk := Option.some.inj ((hby key rfl).symm.trans hsk)
    exact hn
  exact ⟨hlogged.bound, hlogged.once, fun ho => (by cases ho), fun _ _ ho => (by cases ho),
    hlogged.content, hlogged.closed, hlogged.turns, hlogged.replies, hlogged.ends⟩

/-- A push is opened under a new number. -/
theorem opens (h : v.Ok) {n : Nat} (hn : v.seq < n) (hturns : ∀ t, (v.turns t).started = true →
    (v.turns t).id ≤ v.seq) (hwire : ∀ m ∈ v.wire, ∀ k, m.replyOf = some k ∨ m = .turnEnd k → k ≤ v.seq)
    (sk key : SessionKey) :
    Ok { v with
      log := v.log ++ [.opened n sk], seq := n, turnOpen := true, turnId := n, sessionKey := some sk,
      ending := none, key := key } := by
  have hopened : ∀ {k sk'}, .opened k sk' ∈ v.log ++ [.opened n sk] →
      .opened k sk' ∈ v.log ∨ k = n ∧ sk' = sk := by
    intro k sk' hk
    refine (List.mem_append.mp hk).imp_right fun hnew => ?_
    exact PushDeed.opened.inj (List.mem_singleton.mp hnew)
  have hold : ∀ {d : PushDeed}, d ∈ v.log ++ [.opened n sk] → (∀ k sk', d ≠ .opened k sk') → d ∈ v.log := by
    intro d hd hne
    refine (List.mem_append.mp hd).resolve_right fun hnew => ?_
    exact hne n sk (List.mem_singleton.mp hnew)
  have hkeep : ∀ {d}, d ∈ v.log → d ∈ v.log ++ [.opened n sk] := List.mem_append_left _
  have hnew : ∀ {k sk'}, k ≤ v.seq → .opened k sk' ∈ v.log ++ [.opened n sk] → .opened k sk' ∈ v.log := by
    intro k sk' hle hk
    refine (hopened hk).resolve_right fun heq => ?_
    exact absurd (heq.1 ▸ hle) (Nat.not_le.mpr hn)
  refine ⟨?_, ?_, fun _ => ⟨sk, rfl, List.mem_append_right _ (List.mem_singleton_self _)⟩,
    fun _ hk => (by cases hk), ?_, ?_, ?_, ?_, ?_⟩
  · intro k sk' hk
    rcases hopened hk with hk | ⟨rfl, -⟩
    · exact (h.bound k sk' hk).trans hn.le
    · exact Nat.le_refl _
  · intro k sk₁ sk₂ h₁ h₂
    rcases hopened h₁ with hk | ⟨rfl, rfl⟩
    · exact h.once k sk₁ sk₂ hk (hnew (h.bound k sk₁ hk) h₂)
    · refine (hopened h₂).elim (fun hk => ?_) fun heq => heq.2.symm
      exact absurd (h.bound _ _ hk) (Nat.not_le.mpr hn)
  · intro m key' k hm hreply
    exact hkeep (h.content m key' k (hold hm fun _ _ hd => by cases hd) hreply)
  · intro k key' hk
    exact hkeep (h.closed k key' (hold hk fun _ _ hd => by cases hd))
  · intro t ht sk' hk
    exact h.turns t ht sk' (hnew (hturns t ht) hk)
  · intro m hm k sk' hreply hk
    obtain ⟨key', hkey⟩ := h.replies m hm k sk' hreply (hnew (hwire m hm k (.inl hreply)) hk)
    exact ⟨key', hkeep hkey⟩
  · intro k sk' hk ho
    obtain ⟨by_, hby⟩ := h.ends k sk' hk (hnew (hwire _ hk k (.inr rfl)) ho)
    exact ⟨by_, hkeep hby⟩

end Ok

end KeyView

namespace Running

variable {cfg : Config} {endSent : Option Nat} {r₀ r : Running}

/-- What a turn says of a turn is of its own. -/
theorem Effect.tells (h : Effect cfg endSent r₀ r) :
    ∃ more, r.out.wire = r₀.out.wire ++ more ∧ ∀ m ∈ more, ∀ n, m.replyOf = some n ∨ m = .turnEnd n →
      r₀.task.started = true ∧ n = r₀.task.id := by
  have hends : ∀ out : Output, ∃ more, (out.send (.turnEnd r₀.task.id)).wire = out.wire ++ more ∧
      ∀ m ∈ more, ∀ n, m.replyOf = some n ∨ m = .turnEnd n → n = r₀.task.id := by
    intro out
    obtain ⟨more, hwire, hmore⟩ := send_cases out (.turnEnd r₀.task.id)
    refine ⟨more, hwire, fun m hm n hn => ?_⟩
    rw [hmore m hm] at hn
    rcases hn with hn | hn
    · cases hn
    · exact (Msg.turnEnd.inj hn).symm
  have hreplies : ∀ r, Progress r₀ r → ∃ more, r.out.wire = r₀.out.wire ++ more ∧
      ∀ m ∈ more, ∀ n, m.replyOf = some n ∨ m = .turnEnd n → n = r₀.task.id := by
    intro r hprogress
    obtain ⟨replies, hwire, hreplies, -⟩ := hprogress.wire
    refine ⟨replies, hwire, fun m hm n hn => ?_⟩
    have hreply := hreplies m hm
    rcases hn with hn | rfl
    · exact Option.some.inj (hn.symm.trans hreply)
    · cases hreply
  have hnone : r.out.wire = r₀.out.wire → ∃ more, r.out.wire = r₀.out.wire ++ more ∧
      ∀ m ∈ more, ∀ n, m.replyOf = some n ∨ m = .turnEnd n →
        r₀.task.started = true ∧ n = r₀.task.id := by
    intro heq
    exact ⟨[], by rw [heq, List.append_nil], fun m hm => by cases hm⟩
  cases h with
  | start hpc hopen heq =>
    rw [start_of_open hopen] at heq
    obtain ⟨more, hwire, hmore⟩ := send_cases { r₀.out with turnSeq := r₀.out.turnSeq + 1 }
      (.turnStart (r₀.out.turnSeq + 1) (turnSeq16 (r₀.out.turnSeq + 1)))
    refine ⟨more, heq ▸ hwire, fun m hm n hn => ?_⟩
    rw [hmore m hm] at hn
    rcases hn with hn | hn <;> cases hn
  | unsent hpc heq =>
    obtain ⟨n, -, hout⟩ := heq
    exact hnone (by rw [hout])
  | connected hpc _ heq => exact hnone (by rw [heq]; rfl)
  | move hstarted hprogress =>
    obtain ⟨more, hwire, hmore⟩ := hreplies r hprogress
    exact ⟨more, hwire, fun m hm n hn => ⟨hstarted, hmore m hm n hn⟩⟩
  | ended hstarted r₁ hprogress hout =>
    obtain ⟨more, hwire, hmore⟩ := hreplies r₁ hprogress
    obtain ⟨last, hlast, hend⟩ := hends r₁.out
    rw [hout]
    split
    · exact ⟨more, hwire, fun m hm n hn => ⟨hstarted, hmore m hm n hn⟩⟩
    · refine ⟨more ++ last, by rw [hlast, hwire, List.append_assoc], fun m hm n hn => ⟨hstarted, ?_⟩⟩
      cases List.mem_append.mp hm with
      | inl hm => exact hmore m hm n hn
      | inr hm => exact hend m hm n hn

/-- A turn that has started keeps its number; one that starts gets a new one. -/
theorem Effect.numbered (h : Effect cfg endSent r₀ r) (hstarted : r.task.started = true) :
    r₀.task.started = true ∧ r.task.id = r₀.task.id ∨ r.task.id = r₀.out.turnSeq + 1 := by
  have hdone : r.task.pc = .done → False := by
    intro hdone
    rw [TurnTask.started, hdone] at hstarted
    cases hstarted
  cases h with
  | start hpc hopen heq =>
    rw [start_of_open hopen] at heq
    exact .inr (by rw [heq])
  | unsent _ _ _ hover => exact (hdone hover).elim
  | connected hpc _ heq => exact .inl ⟨by rw [TurnTask.started, hpc], by rw [heq]; rfl⟩
  | move hstarted₀ hprogress => exact .inl ⟨hstarted₀, hprogress.id⟩
  | ended _ _ _ _ _ hover => exact (hdone hover).elim

end Running

namespace JotaBridge

variable {cfg : Config} {b b' : JotaBridge} {t : TurnRef} {r : Running} {p : Pushing}

def keyView (b : JotaBridge) : KeyView where
  log := b.push.log
  wire := b.out.wire
  seq := b.out.turnSeq
  turns t := { pc := (b.turns t).pc, id := (b.turns t).id }
  turnOpen := b.push.turnOpen
  turnId := b.push.turnId
  sessionKey := b.push.sessionKey
  ending := b.push.worker.pc.ending
  key := b.push.worker.key

/-- Each push turn is of the key that opened it. -/
abbrev Keys (b : JotaBridge) : Prop := b.keyView.Ok

/-- What is on the wire of a turn is of one that has been numbered. -/
theorem Wire.named_le (h : Wire b) {m : Msg} {n : Nat} (hm : m ∈ b.out.wire)
    (hn : m.replyOf = some n ∨ m = .turnEnd n) : n ≤ b.out.turnSeq := by
  refine h.lines.bound n ?_
  rcases hn with hreply | rfl
  · exact h.lines.bracketed.opened_of_within hm (Msg.mark_of_replyOf hreply)
  · exact h.lines.bracketed.opened_of_closed (closed_iff.mpr hm)

namespace Keys

theorem init : Keys {} := by
  refine ⟨?_, ?_, ?_, ?_, ?_, ?_, ?_, ?_, ?_⟩
  · rintro _ _ ⟨⟩
  · rintro _ _ _ ⟨⟩
  · rintro ⟨⟩
  · rintro _ ⟨⟩
  · rintro _ _ _ ⟨⟩
  · rintro _ _ ⟨⟩
  · rintro _ ⟨⟩
  · rintro _ ⟨⟩
  · rintro _ _ ⟨⟩

theorem keep (h : Keys b) (heq : b'.keyView = b.keyView) : Keys b' := by
  unfold Keys
  rw [heq]
  exact h

/-- A message that is of no turn, or of one that is no push. -/
theorem send (h : Keys b) {m : Msg}
    (hm : ∀ n, m.replyOf = some n ∨ m = .turnEnd n → ∀ sk, .opened n sk ∉ b.push.log) :
    Keys (b.send m) := by
  obtain ⟨more, hwire, hmore⟩ := send_cases b.out m
  have happart : KeyView.Ok { b.keyView with wire := b.out.wire ++ more } :=
    KeyView.Ok.apart h more fun m' hm' n hn => hm n (hmore m' hm' ▸ hn)
  rw [← hwire] at happart
  exact happart

theorem view_cancelTask (b : JotaBridge) (t : TurnRef) : (b.cancelTask t).keyView = b.keyView := by
  unfold JotaBridge.cancelTask
  split
  · simp only [keyView, KeyView.mk.injEq, true_and, and_true]
    funext t'
    rcases eq_or_ne t' t with rfl | hne
    · simp only [Function.update_self]
    · simp only [Function.update_of_ne hne]
  · rfl

theorem view_cancelWorker (b : JotaBridge) :
    ({ b with push.worker := Session.cancelWorker b.push.worker } : JotaBridge).keyView = b.keyView := by
  have hkey : (Session.cancelWorker b.push.worker).key = b.push.worker.key := by
    unfold Session.cancelWorker
    split <;> rfl
  simp only [keyView, Session.cancelWorker_pc, hkey]

/-- The push that is open is closed, other than by an end. -/
theorem closePush (h : Keys b) (hopen : b.push.turnOpen = true) {by_ : PushCloser}
    (hby : ∀ key, by_ ≠ .ended key) :
    Keys (b.setPushing (b.pushing.closePushTurn b.push.turnId by_)) := by
  have hcloses := KeyView.Ok.closes h hopen by_ fun key hkey => absurd hkey (hby key)
  obtain ⟨more, hwire, hmore⟩ := send_cases b.out (.turnEnd b.push.turnId)
  have htells := hcloses.tells more ?_ ?_
  · rw [Pushing.closePushTurn_of_open (p := b.pushing) hopen]
    have heq : b.keyView.wire ++ more = (b.out.send (.turnEnd b.push.turnId)).wire := hwire.symm
    rw [heq] at htells
    exact htells
  · intro m hm n sk hreply
    rw [hmore m hm] at hreply
    cases hreply
  · intro n sk hn _
    cases hmore _ hn
    exact ⟨by_, List.mem_append_right _ (List.mem_singleton_self _)⟩

theorem event (h : Keys b) (hev : Event b b') : Keys b' := by
  cases hev with
  | frame a => exact h.send fun n hn => (by rcases hn with hn | hn <;> cases hn)
  | enqueue q =>
    unfold enqueuePush
    split
    · exact h
    · rcases b.push.worker.respawn_cases with heq | ⟨-, heq⟩
      · exact h.keep (by simp only [keyView, heq])
      · have hidle : KeyView.Ok { b.keyView with ending := none, key := [] } :=
          KeyView.Ok.worker h none [] fun _ hn => by cases hn
        refine (congrArg KeyView.Ok ?_).mpr hidle
        simp only [keyView, heq, WorkerPc.ending]
  | cancelTask t => exact h.keep (view_cancelTask b t)
  | cancelWorker => exact h.keep (view_cancelWorker b)
  | forgets i t =>
    unfold forget
    split <;> exact h
  | cancels i t => exact h.keep (view_cancelTask (b.did _) t)
  | drops i s p waits _ _ hdrop =>
    refine h.keep ?_
    have hpush := hdrop.push
    simp only [keyView, suspend, setOp, JotaBridge.setPushing, hpush, hdrop.wire, hdrop.out.seq]
  | closesPush by_ hby hopen => exact h.closePush hopen hby
  | creates i =>
    refine KeyView.Ok.later h (Nat.le_refl _) fun t ht => ?_
    rcases eq_or_ne t b.turnCount with rfl | hne
    · simp only [createTurn, Function.update_self] at ht
      cases ht
    · simp only [createTurn, Function.update_of_ne hne] at ht ⊢
      exact h.turns t ht
  | speaks m hm =>
    refine h.send fun n hn => ?_
    rcases hm with ⟨_, rfl⟩ | ⟨_, rfl⟩ | ⟨_, rfl, -⟩
    all_goals rcases hn with hn | hn <;> cases hn
  | _ => exact h

theorem handling (h : Keys b) (hc : Control b) (hhandling : Handling b b') : Keys b' := by
  cases hhandling with
  | event hev => exact h.event hev
  | abandons t n hlive _ hid _ heq =>
    subst heq
    have hnoted : Keys { b with turnEndSentAtClose := some n } := h
    refine hnoted.send fun k hk => ?_
    rcases hk with hk | hk
    · cases hk
    · cases hk
      obtain ⟨t', hstarted, hid'⟩ := hc.active n hid
      exact hid' ▸ h.turns t' hstarted

theorem handlings (h : Keys b) (hinv : Inv b) (hhandlings : Handlings b b') : Keys b' := by
  induction hhandlings with
  | refl => exact h
  | tail hbefore hhandling ih => exact ih.handling (hinv.handlings hbefore).control hhandling

theorem setRunning {endSent : Option Nat} (h : Keys b)
    (heff : Running.Effect cfg endSent (b.running t) r) : Keys (b.setRunning t r) := by
  obtain ⟨more, hwire, hmore⟩ := heff.tells
  have htold := KeyView.Ok.apart h more fun m hm n hn => by
    obtain ⟨hstarted, rfl⟩ := hmore m hm n hn
    exact h.turns t hstarted
  have heq : b.keyView.wire ++ more = r.out.wire := hwire.symm
  rw [heq] at htold
  refine htold.later heff.later.seq fun t' ht' => ?_
  rcases eq_or_ne t' t with rfl | hne
  · have hself : (b.setRunning t' r).turns t' = r.task := Function.update_self _ _ _
    rw [hself] at ht' ⊢
    rcases heff.numbered ht' with ⟨hstarted, hid⟩ | hnew
    · exact hid ▸ h.turns t' hstarted
    · intro sk hn
      have hle : r.task.id ≤ b.out.turnSeq := h.bound _ sk hn
      rw [hnew] at hle
      exact Nat.not_succ_le_self _ hle
  · have hsame : (b.setRunning t r).turns t' = b.turns t' := Function.update_of_ne hne _ _
    rw [hsame] at ht' ⊢
    exact h.turns t' ht'

theorem setPushing (h : Keys b) (hc : Control b) (hw : Wire b) (hkeyed : Pushing.Keyed b.pushing p) :
    Keys (b.setPushing p) := by
  cases hkeyed with
  | same hsame howns =>
    have hworker : KeyView.Ok { b.keyView with
        ending := p.push.worker.pc.ending, key := p.push.worker.key } := by
      refine KeyView.Ok.worker h _ _ fun n hn hopen hid => ?_
      exact hsame.sessionKey.symm.trans
        (howns n hn (hsame.turnOpen.trans hopen) (hsame.turnId.trans hid))
    refine (congrArg KeyView.Ok ?_).mpr hworker
    simp only [keyView, JotaBridge.setPushing, hsame.log, hsame.wire, hsame.seq, hsame.turnOpen,
      hsame.turnId, hsame.sessionKey]
  | opened n sk hn hseq hlog hwire hid hopen hkey hending =>
    obtain ⟨more, hsent, hmore⟩ := send_cases b.out (.turnStart n (turnSeq16 n))
    have hopens := KeyView.Ok.opens h (n := n) (hn ▸ Nat.lt_succ_self _) hc.idLe
      (fun m hm k hk => hw.named_le hm hk) sk p.push.worker.key
    have htells := hopens.apart more fun m hm k hk => by
      rw [hmore m hm] at hk
      rcases hk with hk | hk <;> cases hk
    refine (congrArg KeyView.Ok ?_).mpr htells
    simp only [keyView, JotaBridge.setPushing, hlog, hwire, hsent, hseq, hid, hopen, hkey, hending]
  | said m hopen hm hkey hlog hwire hseq hid hopen' hsame hending =>
    obtain ⟨more, hsent, hmore⟩ := send_cases b.out m
    obtain ⟨sk, hsk, hopened⟩ := h.current hopen
    obtain rfl : sk = p.push.worker.key := Option.some.inj (hsk.symm.trans hkey)
    have hlogs := KeyView.Ok.logs h (.content m p.push.worker.key) (fun _ _ hd => by cases hd)
      (fun m' key n hd hreply => by
        cases hd
        exact Option.some.inj (hm.symm.trans hreply) ▸ hopened)
      fun _ _ hd => by cases hd
    have htells := hlogs.tells more
      (fun m' hm' _ _ _ _ => by
        rw [hmore m' hm']
        exact ⟨_, List.mem_append_right _ (List.mem_singleton_self _)⟩)
      fun n sk hn _ => by
        rw [← hmore _ hn] at hm
        cases hm
    have hworker := htells.worker none p.push.worker.key fun _ hn => by cases hn
    refine (congrArg KeyView.Ok ?_).mpr hworker
    simp only [keyView, JotaBridge.setPushing, hlog, hwire, hsent, hseq, hid, hopen', hsame, hending]
  | ended hopen hkey hlog hwire hseq hid hclosed hsame hending =>
    obtain ⟨more, hsent, hmore⟩ := send_cases b.out (.turnEnd b.push.turnId)
    have hcloses := KeyView.Ok.closes h hopen (.ended p.push.worker.key) fun key heq => by
      cases heq
      exact hkey
    have htells := hcloses.tells more
      (fun m hm n _ hreply => by
        rw [hmore m hm] at hreply
        cases hreply)
      fun n _ hn _ => by
        cases hmore _ hn
        exact ⟨_, List.mem_append_right _ (List.mem_singleton_self _)⟩
    have hworker := htells.worker none p.push.worker.key fun _ hn => by cases hn
    refine (congrArg KeyView.Ok ?_).mpr hworker
    simp only [keyView, JotaBridge.setPushing, hlog, hwire, hsent, hseq, hid, hclosed, hsame, hending]

/-- What a step of the session does, unless the worker crosses two keys. -/
theorem change {a : Act} (h : Keys b) (hinv : Inv b)
    (htake : a = .worker .take → ∀ q, b.push.queue.head? = some q → b.push.crosses cfg q = false)
    (hchange : Change cfg b b' a) : Keys b' := by
  cases hchange with
  | turn t a hstep =>
    obtain ⟨r, heff, rfl⟩ := turnStep_effect hinv.tasks hstep
    exact h.setRunning heff
  | worker a hstep =>
    obtain ⟨p, hp, rfl⟩ := Option.map_eq_some_iff.mp hstep
    refine h.setPushing hinv.control hinv.wire (Pushing.step_keyed h.ending ?_ hp)
    exact fun ha => htake (congrArg Act.worker ha)
  | loses i a _ heq =>
    subst heq
    exact h
  | handles hhandlings => exact h.handlings hinv hhandlings

end Keys

end JotaBridge

-- ---------------------------------------------------------------------------
-- The frames of a client
-- ---------------------------------------------------------------------------

/-- What moves a session that OpenClaw sends frames to. The dispatcher finds the clients and the
turns of the moment. -/
inductive FedAct where
  | frame (clients : ClientRegistry) (turns : TurnRegistry TurnItem) (now : Time) (run : Run)
      (frame : PyDict)
  | session (a : Act)

namespace Session

/-- An event comes to the backlog with the `sessionKey` of its frame. -/
def receive (self : BridgeRef) (s : Session) (frame : PyDict) :
    Option (BridgeRef × PushEvent) → Session
  | some (bridge, event) =>
    if bridge = self then
      let key := (FrameDispatcher.sessionKey? (FrameDispatcher.asDict (frame.get "payload"))).getD []
      { s with bridge := s.bridge.enqueuePush { event := event, key := key } }
    else s
  | none => s

/-- `self` is the bridge of the session. Only frames put events in its backlog. -/
def feed (cfg : Config) (self : BridgeRef) (s : Session) : FedAct → Option Session
  | .frame clients turns now run frame =>
    some (s.receive self frame (FrameDispatcher.dispatch clients now turns run frame).2)
  | .session (.enqueue _) => none
  | .session a => s.step cfg a

/-- The worker takes nothing that would cross two keys. -/
def apart (cfg : Config) (s : Session) : FedAct → Bool
  | .session (.worker .take) => s.bridge.push.queue.head?.all fun q => !s.bridge.push.crosses cfg q
  | _ => true

/-- A push turn is closed by an end of its key, a cut or `close_all`, and what is said in it is of
frames of its key. -/
def KeyedPushes (s : Session) : Prop :=
  ∀ n sk, .opened n sk ∈ s.bridge.push.log →
    (.turnEnd n ∈ s.bridge.out.wire → ∃ by_, .closed n by_ ∈ s.bridge.push.log) ∧
      (∀ key, .closed n (.ended key) ∈ s.bridge.push.log → key = sk) ∧
        ∀ m, m.replyOf = some n →
          (m ∈ s.bridge.out.wire → ∃ key, .content m key ∈ s.bridge.push.log) ∧
            ∀ key, .content m key ∈ s.bridge.push.log → key = sk

open Transition

variable {cfg : Config} {self : BridgeRef} {s s' : Session}

theorem feed_ok {a : FedAct} (hok : s.Ok) (hkeys : s.bridge.Keys) (hapart : s.apart cfg a = true)
    (hstep : s.feed cfg self a = some s') : s'.Ok ∧ s'.bridge.Keys := by
  cases a with
  | frame clients turns now run frame =>
    cases hstep
    unfold receive
    split
    · split
      · exact ⟨hok.event (.enqueue _), hkeys.event (.enqueue _)⟩
      · exact ⟨hok, hkeys⟩
    · exact ⟨hok, hkeys⟩
  | session a =>
    have hact : s.step cfg a = some s' := by
      cases a with
      | enqueue q => cases hstep
      | _ => exact hstep
    have hadvances := step_advances hok hact
    refine ⟨hadvances.ok, hkeys.change hok.inv ?_ hadvances.change⟩
    rintro rfl q hq
    have hhead : s.bridge.push.queue.head?.all (fun q => !s.bridge.push.crosses cfg q) = true := hapart
    rw [hq] at hhead
    simpa only [Option.all_some, Bool.not_eq_true'] using hhead

theorem keys_of_reachable
    (h : ReachableBy (feed cfg self) (fun s a => s.apart cfg a = true) {} s) :
    s.Ok ∧ s.bridge.Keys := by
  induction h with
  | start => exact ⟨.init, .init⟩
  | next _ hapart hstep ih => exact feed_ok ih.1 ih.2 hapart hstep

def agentFrame (key phase : String) : PyDict :=
  [(py "type", .str (py "event")), (py "event", .str (py "agent")),
    (py "payload", .obj [(py "sessionKey", .str (py key)),
      (py "data", .obj [(py "phase", .str (py phase))])])]

def chatFrame (key text : String) : PyDict :=
  [(py "type", .str (py "event")), (py "event", .str (py "chat")),
    (py "payload", .obj [(py "sessionKey", .str (py key)), (py "deltaText", .str (py text))])]

/-- The client `c`, and a turn of its own session key. -/
def onlyClient : ClientRegistry := ({} : ClientRegistry).register (py "c") 0

def ownTurn : TurnRegistry TurnItem :=
  (((({ maxQueueSize := 8 } : TurnRegistry TurnItem).register (py "r1") (py "agent:main:c"))).get rfl).1

/-- A frame that comes while that turn is live. -/
def received (run : Run) (frame : PyDict) : FedAct := .frame onlyClient ownTurn 0 run frame

/-- A push of the Telegram session of the client is open. The turn's own start is suppressed, but
not its end. -/
def suppressedStart : List FedAct :=
  [received (.ofAgent 0) (agentFrame "agent:main:telegram:direct:c" "start"),
    .session (.worker .take),
    received (.ofRequest (py "r1")) (agentFrame "agent:main:c" "start"),
    received (.ofRequest (py "r1")) (agentFrame "agent:main:c" "end"),
    .session (.worker .take)]

theorem ended_by_another :
    ¬ ∀ (cfg : Config) (self : BridgeRef) (s : Session), Reachable (feed cfg self) {} s →
      s.KeyedPushes := by
  intro hall
  have hrun : Reachable (feed textOnly 0) {} ((run (feed textOnly 0) {} suppressedStart).get rfl) :=
    reachable_of_run (Option.some_get _).symm
  have hclosed := (hall textOnly 0 _ hrun 1 (py "agent:main:telegram:direct:c") List.mem_cons_self).2.1
    (py "agent:main:c") (List.mem_cons_of_mem _ List.mem_cons_self)
  exact absurd hclosed (by decide)

theorem keyed_pushes (cfg : Config) (self : BridgeRef) (s : Session)
    (h : ReachableBy (feed cfg self) (fun s a => s.apart cfg a = true) {} s) : s.KeyedPushes := by
  obtain ⟨-, hkeys⟩ := keys_of_reachable h
  intro n sk hn
  refine ⟨fun hend => hkeys.ends n sk hend hn, fun key hkey => ?_, fun m hm => ⟨fun hwire => ?_, ?_⟩⟩
  · exact hkeys.once n key sk (hkeys.closed n key hkey) hn
  · exact hkeys.replies m hwire n sk hm hn
  · exact fun key hkey => hkeys.once n key sk (hkeys.content m key n hkey hm) hn

/-- A push is opened, says something and ends, all under one key. -/
def onePush : List FedAct :=
  [received (.ofAgent 0) (agentFrame "agent:main:telegram:direct:c" "start"),
    .session (.worker .take),
    received (.ofAgent 0) (chatFrame "agent:main:telegram:direct:c" "hi"),
    .session (.worker .take),
    received (.ofAgent 0) (agentFrame "agent:main:telegram:direct:c" "end"),
    .session (.worker .take)]

theorem keyed_pushes_one :
    ∃ s : Session, s.bridge.out.wire = [.turnStart 1 1, .token 1 (py "hi"), .turnEnd 1] ∧
      s.KeyedPushes := by
  have hrun : ReachableBy (feed textOnly 0) (fun s a => s.apart textOnly a = true) {}
      ((run (guarded (feed textOnly 0) (apart textOnly)) {} onePush).get rfl) :=
    reachableBy_of_run (Option.some_get _).symm
  exact ⟨_, rfl, keyed_pushes textOnly 0 _ hrun⟩

end Session

end Bridge
