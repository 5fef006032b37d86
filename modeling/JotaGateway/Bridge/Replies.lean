-- SUMMARY: What a turn says on the wire is what the orchestrator yielded to it, in order and nothing twice.
import JotaGateway.Bridge.WireContract

/-!
# Replies

The tokens and tool calls of a turn come from `call_orchestrator`, one await at a
time, while the tasks of the session send messages of their own. Each reaches the
client under the id of its turn, except one at which the turn finds the client
gone, and that is its last.
-/

namespace Bridge

open Transition

-- ---------------------------------------------------------------------------
-- What is said
-- ---------------------------------------------------------------------------

/-- An event of the orchestrator that a turn forwards. -/
inductive Content where
  | token (text : PyStr)
  | toolCall (call : ToolCallEvent)

/-- The content of a message, if it is one of turn `n`. -/
def Msg.content (n : Nat) : Msg → Option Content
  | .token m text => if m = n then some (.token text) else none
  | .toolCall m call => if m = n then some (.toolCall call) else none
  | _ => none

/-- What turn `n` has said. -/
def said (n : Nat) (wire : List Msg) : List Content := wire.filterMap (Msg.content n)

def Config.forwards (cfg : Config) : Content → Bool
  | .token _ => cfg.outputText
  | .toolCall _ => cfg.toolCallsEnabled

def Content.msg (n : Nat) : Content → Msg
  | .token text => .token n text
  | .toolCall call => .toolCall n call

theorem content_msg (n : Nat) (c : Content) : (c.msg n).content n = some c := by
  cases c <;> exact if_pos rfl

theorem content_of_ne {m : Msg} {n : Nat} (h : m.replyOf ≠ some n) : m.content n = none := by
  cases m with
  | token m text | toolCall m call => exact if_neg fun heq => h (congrArg some heq)
  | _ => rfl

theorem content_msg_ne (c : Content) {n m : Nat} (h : m ≠ n) : (c.msg m).content n = none := by
  cases c <;> exact if_neg h

theorem said_append (n : Nat) (wire more : List Msg) : said n (wire ++ more) = said n wire ++ said n more :=
  List.filterMap_append

theorem said_send {n : Nat} {m : Msg} (out : Output) (h : m.content n = none) :
    said n (out.send m).wire = said n out.wire := by
  unfold Output.send
  dsimp only
  split
  · rw [said_append, show said n [m] = [] from List.filterMap_cons_none h, List.append_nil]
  · rfl

/-- What the orchestrator yields to a turn. -/
def TurnAct.yields : TurnAct → Option Content
  | .token text => some (.token text)
  | .toolCall call => some (.toolCall call)
  | _ => none

/-- The turn takes events of the orchestrator, or will. -/
def TurnPc.piping : TurnPc → Bool
  | .created | .connect | .next | .sendChunk | .dropChunk => true
  | _ => false

theorem TurnTask.started_of_piping {task : TurnTask} (h : task.pc.piping = true)
    (hcreated : task.pc ≠ .created) : task.started = true := by
  unfold started
  split
  · rename_i hpc
    exact absurd hpc hcreated
  · rename_i hpc
    rw [hpc] at h
    cases h
  · rfl

-- ---------------------------------------------------------------------------
-- A turn between two events
-- ---------------------------------------------------------------------------

namespace Running

variable {cfg : Config} {endSent : Option Nat} {r r' : Running}

/-- The turn has said nothing on the way, and takes no events if it did not. -/
structure Mute (r r' : Running) : Prop where
  said : ∀ n, Bridge.said n r'.out.wire = Bridge.said n r.out.wire
  id : r'.task.id = r.task.id
  piping : r'.task.pc.piping = true → r.task.pc.piping = true

namespace Mute

variable {r'' : Running} {pc : TurnPc} {m : Msg}

theorem trans (h : Mute r r') (h' : Mute r' r'') : Mute r r'' :=
  ⟨fun n => (h'.said n).trans (h.said n), h'.id.trans h.id, h.piping ∘ h'.piping⟩

theorem then_goto (h : Mute r r') (hpc : pc.piping = true → r.task.pc.piping = true) :
    Mute r (r'.goto pc) := ⟨h.said, h.id, hpc⟩

theorem goto (hpc : pc.piping = true → r.task.pc.piping = true) : Mute r (r.goto pc) :=
  ⟨fun _ => rfl, rfl, hpc⟩

/-- It leaves the events of the orchestrator. -/
theorem stop (hpc : pc.piping = false) : Mute r (r.goto pc) :=
  goto fun heq => Bool.noConfusion (hpc.symm.trans heq)

theorem send (hm : ∀ n, m.content n = none) : Mute r (r.send m) :=
  ⟨fun n => said_send _ (hm n), rfl, fun heq => heq⟩

theorem quiet (out : Output) (hwire : out.wire = r.out.wire) : Mute r { r with out := out } :=
  ⟨fun _ => congrArg _ hwire, rfl, fun heq => heq⟩

theorem leave : Mute r (r.leave endSent) := by
  refine ⟨fun n => ?_, rfl, fun heq => Bool.noConfusion heq⟩
  unfold Running.leave
  dsimp only
  split
  · rfl
  · exact said_send _ rfl

theorem finish (e : Option Exc) : Mute r (r.finish endSent e) := by
  unfold Running.finish
  split
  · exact leave
  · exact leave
  · exact leave
  · exact (send fun _ => rfl).trans leave

theorem closeTts (e : Option Exc) : Mute r (r.closeTts endSent e) := by
  unfold Running.closeTts
  split
  · exact finish e
  · exact (quiet (r.out.closeStream _) rfl).trans (stop rfl)

theorem reap (e : Option Exc) : Mute r (r.reap endSent e) := by
  unfold Running.reap
  split
  · exact finish e
  · split
    · exact (quiet (r.out.cancelAudio _) rfl).trans (stop rfl)
    · exact closeTts e

theorem drain : Mute r (r.drain endSent) := by
  unfold Running.drain
  split
  · exact finish none
  · extract_lets r₁
    have hgone : Mute r r₁ := by
      unfold r₁
      split
      · exact quiet _ rfl
      · exact quiet r.out rfl
    split
    · exact hgone.trans (stop rfl)
    · exact hgone.trans (reap none)

theorem afterTokens (e : Option Exc) : Mute r (r.afterTokens endSent e) := by
  unfold Running.afterTokens
  split
  · exact drain
  · exact reap _

theorem endTokens (e : Option Exc) : Mute r (r.endTokens endSent e) := by
  unfold Running.endTokens
  split
  · exact stop rfl
  · exact afterTokens e

theorem leaveTokens (e : Option Exc) : Mute r (r.leaveTokens endSent e) := by
  unfold Running.leaveTokens
  split
  · exact endTokens none
  · exact (send fun _ => rfl).trans (endTokens none)
  · exact (send fun _ => rfl).trans (endTokens none)
  · exact endTokens _

theorem dropTts {wait : TurnPc} {k : Running → Running}
    (hwait : wait.piping = true → r.task.pc.piping = true)
    (hk : ∀ r', Mute r r' → Mute r (k r')) : Mute r (r.dropTts wait k) := by
  have hdropped : Mute r { r with task := { r.task with ttsLive := false } } := 
    ⟨fun _ => rfl, rfl, fun heq => heq⟩
  unfold Running.dropTts
  split
  · dsimp only
    split
    · exact ⟨fun _ => rfl, rfl, hwait⟩
    · exact hk _ hdropped
  · exact hk r (quiet r.out rfl)

theorem raiseGone : Mute r r.raiseGone := (quiet { r.out with clientGone := true } rfl).trans (stop rfl)

end Mute

theorem onCancelled_mute (hstep : r.onCancelled endSent = some r') : Mute r r' := by
  unfold onCancelled at hstep
  split at hstep
  · cases hstep
    exact .stop rfl
  · cases hstep
    exact .finish _
  · cases hstep
    exact .stop rfl
  · cases hstep
    exact .stop rfl
  · cases hstep
    exact .stop rfl
  · cases hstep
    exact .leaveTokens _
  · cases hstep
    exact .afterTokens _
  · cases hstep
    exact .afterTokens _
  · cases hstep
    exact .reap _
  · cases hstep
    exact .reap _
  · cases hstep
    exact .finish _
  · cases hstep
    exact .finish _
  · cases hstep

/-- The turn resumes with something else than its start or an event to forward. -/
theorem resume_mute {a : TurnAct} (hstep : r.resume cfg endSent a = some r') (hstart : a ≠ .start)
    (hyields : a.yields = none) : Mute r r' := by
  have hgoes : ∀ pc, r.task.pc.piping = true → Mute r (r.goto pc) := fun _ hpc => .goto fun _ => hpc
  unfold resume at hstep
  split at hstep
  case h_1 => exact absurd rfl hstart
  case h_5 | h_6 => cases hyields
  case h_2 hpc =>
    cases hstep
    exact ⟨fun _ => rfl, rfl, fun _ => congrArg TurnPc.piping hpc⟩
  case h_3 hpc | h_10 hpc | h_12 hpc =>
    cases hstep
    exact hgoes _ (congrArg TurnPc.piping hpc)
  case h_11 hpc =>
    cases hstep
    exact .dropTts (fun _ => congrArg TurnPc.piping hpc)
      fun _ h => h.then_goto fun _ => congrArg TurnPc.piping hpc
  case h_4 | h_21 | h_22 =>
    cases hstep
    exact .finish _
  case h_7 | h_9 | h_13 =>
    cases hstep
    exact .leaveTokens _
  case h_8 =>
    cases hstep
    exact .stop rfl
  case h_14 | h_16 =>
    cases hstep
    exact .afterTokens _
  case h_15 =>
    cases hstep
    exact .dropTts Bool.noConfusion fun _ h => h.trans (.afterTokens _)
  case h_17 =>
    split at hstep
    · split at hstep
      · cases hstep
      · cases hstep
        exact .reap _
    · cases hstep
  case h_18 =>
    cases hstep
    exact .dropTts Bool.noConfusion fun _ h => h.trans (.reap _)
  case h_19 =>
    cases hstep
    exact .reap _
  case h_20 =>
    cases hstep
    exact .closeTts _
  case h_23 => cases hstep

-- ---------------------------------------------------------------------------
-- A turn with an event to forward
-- ---------------------------------------------------------------------------

/-- The turn has said `c`, if it is one that it forwards; or it found the client gone, and leaves. -/
inductive Says (cfg : Config) (c : Content) (r r' : Running) : Prop where
  | forwards (hid : r'.task.id = r.task.id)
      (hsaid : ∀ n, said n r'.out.wire =
        said n r.out.wire ++ if n = r.task.id ∧ cfg.forwards c = true then [c] else [])
  | gone (hmute : Mute r r') (hleaves : r'.task.pc.piping = false)
      (hgone : r.out.senderOpen = false ∨ r.out.clientGone = true)

theorem raiseGone_relays {c : Content} (hgone : r.out.senderOpen = false ∨ r.out.clientGone = true) :
    Says cfg c r r.raiseGone := .gone .raiseGone rfl hgone

theorem sendContent_relays {c : Content} {k : Running → Running} (hc : cfg.forwards c = true)
    (hk : ∀ r₁, (k r₁).out = r₁.out ∧ (k r₁).task.id = r₁.task.id) :
    Says cfg c r (r.sendContent (c.msg r.task.id) k) := by
  unfold sendContent
  split
  · rename_i hopen
    refine .forwards (hk _).2 fun n => ?_
    rw [(hk _).1, show (r.send (c.msg r.task.id)).out.wire = r.out.wire ++ [c.msg r.task.id] from
      Output.send_of_open hopen _, said_append]
    congr 1
    split
    · rename_i heq
      rw [heq.1]
      exact List.filterMap_cons_some (content_msg _ c)
    · rename_i hne
      exact List.filterMap_cons_none (content_msg_ne c fun heq => hne ⟨heq.symm, hc⟩)
  · rename_i hclosed
    exact raiseGone_relays (.inl (Bool.eq_false_iff.mpr hclosed))

/-- Its text is not in the output mode, or tool calls are off. -/
theorem skips_relays {c : Content} {pc : TurnPc} (hc : ¬cfg.forwards c = true) :
    Says cfg c r (r.goto pc) := by
  refine .forwards rfl fun n => ?_
  rw [if_neg fun heq => hc heq.2, List.append_nil]
  rfl

theorem onToken_relays (text : PyStr) : Says cfg (.token text) r (r.onToken cfg text) := by
  unfold onToken
  dsimp only
  split
  · rename_i hgone
    exact raiseGone_relays (.inr hgone)
  · split
    · rename_i htext
      exact sendContent_relays (c := .token text) htext fun _ => ⟨rfl, rfl⟩
    · rename_i htext
      exact skips_relays (c := .token text) htext

theorem onToolCall_relays (call : ToolCallEvent) : Says cfg (.toolCall call) r (r.onToolCall cfg call) := by
  unfold onToolCall
  split
  · rename_i hgone
    exact raiseGone_relays (.inr hgone)
  · split
    · rename_i hcalls
      exact sendContent_relays (c := .toolCall call) hcalls fun _ => ⟨rfl, rfl⟩
    · rename_i hcalls
      exact skips_relays (c := .toolCall call) hcalls

theorem resume_relays {a : TurnAct} {c : Content} (hyields : a.yields = some c)
    (hstep : r.resume cfg endSent a = some r') :
    r.task.pc.piping = true ∧ r.task.pc ≠ .created ∧ Says cfg c r r' := by
  unfold resume at hstep
  split at hstep
  case h_5 hpc =>
    cases hyields
    cases hstep
    exact ⟨congrArg TurnPc.piping hpc, hpc ▸ TurnPc.noConfusion, onToken_relays _⟩
  case h_6 hpc =>
    cases hyields
    cases hstep
    exact ⟨congrArg TurnPc.piping hpc, hpc ▸ TurnPc.noConfusion, onToolCall_relays _⟩
  case h_23 => cases hstep
  all_goals cases hyields

-- ---------------------------------------------------------------------------
-- A step of a turn
-- ---------------------------------------------------------------------------

/-- The kinds of step of a turn, by what it takes from the orchestrator. -/
inductive Takes (cfg : Config) (a : TurnAct) (r r' : Running) : Prop where
  | nothing (hyields : a.yields = none) (h : Mute r r')
  | start (hyields : a.yields = none) (hpc : r.task.pc = .created)
      (hsaid : ∀ n, said n r'.out.wire = said n r.out.wire)
  | event (c : Content) (hyields : a.yields = some c) (hpiping : r.task.pc.piping = true)
      (hcreated : r.task.pc ≠ .created) (h : Says cfg c r r')

theorem start_said (n : Nat) : said n (r.start cfg).out.wire = said n r.out.wire := by
  unfold start
  dsimp only
  split
  · exact said_send { r.out with turnSeq := r.out.turnSeq + 1 } rfl
  · rfl

theorem step_takes {a : TurnAct} (hstep : r.step cfg endSent a = some r') : Takes cfg a r r' := by
  unfold step at hstep
  split at hstep
  · split at hstep
    · have hmute := onCancelled_mute hstep
      exact .nothing rfl ⟨hmute.said, hmute.id, hmute.piping⟩
    · cases hstep
  · split at hstep
    · cases hstep
    · cases hyields : a.yields with
      | none =>
        by_cases hstart : a = .start
        · subst hstart
          unfold resume at hstep
          split at hstep
          case h_1 hpc _ =>
            cases hstep
            exact .start rfl hpc start_said
          case h_23 => cases hstep
          all_goals contradiction
        · exact .nothing hyields (resume_mute hstep hstart hyields)
      | some c =>
        obtain ⟨hpiping, hcreated, hsay⟩ := resume_relays hyields hstep
        exact .event c hyields hpiping hcreated hsay

/-- A turn says nothing under another id. -/
theorem Takes.said_ne {a : TurnAct} (h : Takes cfg a r r') {n : Nat} (hn : n ≠ r.task.id) :
    said n r'.out.wire = said n r.out.wire := by
  cases h with
  | nothing _ hmute => exact hmute.said n
  | start _ _ hsaid => exact hsaid n
  | event c _ _ _ hsay =>
    cases hsay with
    | forwards _ hsaid =>
      rw [hsaid, if_neg fun heq => hn heq.1, List.append_nil]
    | gone hmute => exact hmute.said n

end Running

-- ---------------------------------------------------------------------------
-- The ids of the turns
-- ---------------------------------------------------------------------------

namespace JotaBridge

variable {cfg : Config} {b b' : JotaBridge} {t : TurnRef} {r : Running} {p : Pushing} {env : WorkerEnv}

/-- No two turns have one id, and none has that of the push. -/
structure Ids (b : JotaBridge) : Prop where
  le : ∀ t, (b.turns t).id ≤ b.out.turnSeq
  pushLe : b.push.turnId ≤ b.out.turnSeq
  ne : ∀ t t', t ≠ t' → (b.turns t).id ≠ 0 → (b.turns t).id ≠ (b.turns t').id
  push : ∀ t, (b.turns t).id ≠ 0 → (b.turns t).id ≠ b.push.turnId
  created : ∀ t, (b.turns t).pc = .created → (b.turns t).id = 0
  started : ∀ t, (b.turns t).started = true → (b.turns t).id ≠ 0
  fresh : ∀ t, b.turnCount ≤ t → (b.turns t).id = 0

theorem Ids.init : Ids {} :=
  ⟨fun _ => Nat.le_refl _, Nat.le_refl _, fun _ _ _ h => absurd rfl h, fun _ h => absurd rfl h,
    fun _ _ => rfl, fun _ => Bool.noConfusion, fun _ _ => rfl⟩

/-- An event of the session says nothing, and names nothing. -/
structure Tacit (b b' : JotaBridge) : Prop where
  said : ∀ n, Bridge.said n b'.out.wire = Bridge.said n b.out.wire
  pushId : b'.push.turnId = b.push.turnId
  count : b.turnCount ≤ b'.turnCount

theorem Event.tacit (h : Event b b') : Tacit b b' := by
  cases h with
  | frame a => exact ⟨fun n => said_send _ rfl, rfl, Nat.le_refl _⟩
  | speaks m hm =>
    refine ⟨fun n => said_send _ ?_, rfl, Nat.le_refl _⟩
    rcases hm with ⟨text, rfl⟩ | ⟨text, rfl⟩ | ⟨id, rfl, -⟩ <;> rfl
  | enqueue q =>
    unfold enqueuePush
    split <;> exact ⟨fun _ => rfl, rfl, Nat.le_refl _⟩
  | cancelTask t =>
    unfold JotaBridge.cancelTask
    split <;> exact ⟨fun _ => rfl, rfl, Nat.le_refl _⟩
  | forgets i t =>
    unfold forget
    split <;> exact ⟨fun _ => rfl, rfl, Nat.le_refl _⟩
  | cancels i t =>
    unfold cancelAndWait JotaBridge.cancelTask
    split <;> exact ⟨fun _ => rfl, rfl, Nat.le_refl _⟩
  | drops i s p waits _ _ hdrop =>
    have hpush : p.push.turnId = b.push.turnId := by rw [hdrop.push]
    exact ⟨fun n => congrArg (Bridge.said n) hdrop.wire, hpush, Nat.le_refl _⟩
  | closesPush by_ _ hopen =>
    rw [Pushing.closePushTurn_of_open (p := b.pushing) hopen]
    exact ⟨fun n => said_send _ rfl, rfl, Nat.le_refl _⟩
  | creates i => exact ⟨fun _ => rfl, rfl, Nat.le_succ _⟩
  | _ => exact ⟨fun _ => rfl, rfl, Nat.le_refl _⟩

/-- The turns keep their ids; the push keeps its own or has a new one. -/
theorem Ids.keep (h : Ids b) (hseq : b.out.turnSeq ≤ b'.out.turnSeq)
    (hid : ∀ t, (b'.turns t).id = (b.turns t).id)
    (hpush : b'.push.turnId = b.push.turnId ∨
      b.out.turnSeq < b'.push.turnId ∧ b'.push.turnId ≤ b'.out.turnSeq)
    (hcreated : ∀ t, (b'.turns t).pc = .created → (b.turns t).id = 0)
    (hstarted : ∀ t, (b'.turns t).started = true → (b.turns t).id ≠ 0)
    (hcount : b.turnCount ≤ b'.turnCount) : Ids b' := by
  refine ⟨fun t => ?_, ?_, fun t t' hne => ?_, fun t ht => ?_, fun t => ?_, fun t => ?_, fun t ht => ?_⟩
  · rw [hid]
    exact (h.le t).trans hseq
  · rcases hpush with heq | ⟨-, hle⟩
    · rw [heq]
      exact h.pushLe.trans hseq
    · exact hle
  · rw [hid, hid]
    exact h.ne t t' hne
  · rw [hid] at ht ⊢
    rcases hpush with heq | ⟨hlt, -⟩
    · rw [heq]
      exact h.push t ht
    · exact ((h.le t).trans_lt hlt).ne
  · rw [hid]
    exact hcreated t
  · rw [hid]
    exact hstarted t
  · rw [hid]
    exact h.fresh t (hcount.trans ht)

theorem Ids.event (h : Ids b) (hev : Event b b') : Ids b' := by
  have htacit := hev.tacit
  refine h.keep hev.later.seq (fun t => ?_) (.inl htacit.pushId) (fun t => ?_) (fun t => ?_) htacit.count
  all_goals rcases hev.turns t with heq | ⟨-, heq⟩ | ⟨rfl, -, -, heq⟩ <;> rw [heq]
  · exact (h.fresh _ (Nat.le_refl _)).symm
  · exact h.created t
  · exact h.created t
  · exact fun _ => h.fresh _ (Nat.le_refl _)
  · exact h.started t
  · exact h.started t
  · exact Bool.noConfusion

end JotaBridge

/-- A turn gets the next id when it starts, and keeps it. -/
inductive Running.Numbers (r₀ r : Running) : Prop where
  | keeps (hid : r.task.id = r₀.task.id) (hpc : r.task.pc ≠ .created)
      (hstarted : r.task.started = true → r₀.task.started = true)
  | takes (hpc₀ : r₀.task.pc = .created) (hid : r.task.id = r₀.out.turnSeq + 1)
      (hseq : r.out.turnSeq = r₀.out.turnSeq + 1) (hpc : r.task.pc ≠ .created)

theorem Running.Effect.numbers {cfg : Config} {endSent : Option Nat} {r₀ r : Running}
    (heff : Running.Effect cfg endSent r₀ r) : Running.Numbers r₀ r := by
  have hdone : r.task.pc = .done → r.task.started = true → r₀.task.started = true := by
    intro hpc hstarted
    rw [TurnTask.started, hpc] at hstarted
    cases hstarted
  cases heff with
  | start hpc hopen heq =>
    rw [heq, Running.start_of_open hopen]
    refine .takes hpc rfl ?_ ?_
    · unfold Output.send
      dsimp only
    · dsimp only
      split <;> exact TurnPc.noConfusion
  | unsent _ _ _ hpc hid => exact .keeps hid (hpc ▸ TurnPc.noConfusion) (hdone hpc)
  | connected hpc _ heq =>
    rw [heq]
    refine .keeps rfl TurnPc.noConfusion fun _ => ?_
    rw [TurnTask.started, hpc]
  | move hstarted₀ h hstarted =>
    refine .keeps h.id (fun hpc => ?_) fun _ => hstarted₀
    rw [TurnTask.started, hpc] at hstarted
    cases hstarted
  | ended _ r₁ _ _ _ hpc hid => exact .keeps hid (hpc ▸ TurnPc.noConfusion) (hdone hpc)

namespace JotaBridge

variable {cfg : Config} {b b' : JotaBridge} {t : TurnRef} {r : Running} {p : Pushing} {env : WorkerEnv}

theorem Ids.setRunning {endSent : Option Nat} (h : Ids b)
    (hfresh : ∀ t, b.turnCount ≤ t → (b.turns t).live = false)
    (heff : Running.Effect cfg endSent (b.running t) r) : Ids (b.setRunning t r) := by
  have hseq : b.out.turnSeq ≤ r.out.turnSeq := heff.later.seq
  have hself : (b.setRunning t r).turns t = r.task := Function.update_self _ _ _
  have hother : ∀ t', t' ≠ t → (b.setRunning t r).turns t' = b.turns t' :=
    fun _ hne => Function.update_of_ne hne _ _
  cases heff.numbers with
  | keeps hid hpc hstarted =>
    refine h.keep hseq (fun t' => ?_) (.inl rfl) (fun t' => ?_) (fun t' => ?_) (Nat.le_refl _)
    all_goals rcases eq_or_ne t' t with rfl | hne
    · rw [hself]
      exact hid
    · rw [hother t' hne]
    · rw [hself]
      exact fun heq => absurd heq hpc
    · rw [hother t' hne]
      exact h.created t'
    · rw [hself]
      exact fun heq => h.started t' (hstarted heq)
    · rw [hother t' hne]
      exact h.started t'
  | takes hpc₀ hid hnext hpc =>
    have hid : r.task.id = b.out.turnSeq + 1 := hid
    have hnext : r.out.turnSeq = b.out.turnSeq + 1 := hnext
    have hlt : ∀ t', (b.turns t').id < r.task.id := fun t' => by
      have hle := h.le t'
      omega
    refine ⟨fun t' => ?_, h.pushLe.trans hseq, fun t₁ t₂ hne hid₁ => ?_, fun t' ht' => ?_, fun t' => ?_,
      fun t' => ?_, fun t' ht' => ?_⟩
    · rcases eq_or_ne t' t with rfl | hne
      · rw [hself, hid]
        exact hnext.ge
      · rw [hother t' hne]
        exact (h.le t').trans hseq
    · rcases eq_or_ne t₁ t with rfl | hne₁
      · rw [hself, hother t₂ hne.symm]
        exact (hlt t₂).ne'
      · rw [hother t₁ hne₁] at hid₁ ⊢
        rcases eq_or_ne t₂ t with rfl | hne₂
        · rw [hself]
          exact (hlt t₁).ne
        · rw [hother t₂ hne₂]
          exact h.ne t₁ t₂ hne hid₁
    · have hpushLe := h.pushLe
      rcases eq_or_ne t' t with rfl | hne
      · rw [hself]
        change r.task.id ≠ b.push.turnId
        omega
      · rw [hother t' hne] at ht' ⊢
        exact h.push t' ht'
    · rcases eq_or_ne t' t with rfl | hne
      · rw [hself]
        exact fun heq => absurd heq hpc
      · rw [hother t' hne]
        exact h.created t'
    · rcases eq_or_ne t' t with rfl | hne
      · rw [hself]
        exact fun _ => by omega
      · rw [hother t' hne]
        exact h.started t'
    · rcases eq_or_ne t' t with rfl | hne
      · have hidle := hfresh t' ht'
        rw [TurnTask.live, show (b.turns t').pc = .created from hpc₀] at hidle
        cases hidle
      · rw [hother t' hne]
        exact h.fresh t' ht'

/-- The worker says nothing, but under the id of the push. -/
theorem effect_said (heff : Pushing.Effect env b.pushing p) {n : Nat} (hn : n ≠ b.push.turnId) :
    said n p.out.wire = said n b.out.wire := by
  cases heff with
  | opened m _ _ _ _ hout =>
    rw [hout]
    exact said_send _ rfl
  | said m _ hm hout =>
    rw [hout]
    refine said_send _ (content_of_ne ?_)
    rw [hm]
    exact fun heq => hn (Option.some.inj heq).symm
  | connected m _ _ _ hout | refused m _ _ hout =>
    rw [hout]
    rfl
  | moves h =>
    rcases h.turn with ⟨-, hwire⟩ | hended
    · rw [hwire]
    · rw [hended.wire]
      exact said_send _ rfl

theorem Ids.setPushing (h : Ids b) (heff : Pushing.Effect env b.pushing p) : Ids (b.setPushing p) := by
  refine h.keep heff.later.seq (fun _ => rfl) ?_ h.created h.started (Nat.le_refl _)
  cases heff with
  | opened n hn _ _ _ hout hid =>
    have hseq : p.out.turnSeq = n := by
      rw [hout]
      unfold Output.send
      dsimp only
    have hn : n = b.out.turnSeq + 1 := hn
    exact .inr ⟨by change _ < p.push.turnId; omega, by change p.push.turnId ≤ p.out.turnSeq; omega⟩
  | said m _ _ _ hid => exact .inl hid
  | connected m _ _ hid₀ _ hid => exact .inl (hid.trans hid₀.symm)
  | refused m _ _ _ hid => exact .inl hid
  | moves hm => exact .inl hm.turnId

-- ---------------------------------------------------------------------------
-- What the other tasks do
-- ---------------------------------------------------------------------------

/-- Nothing is said but under the id of the push, and no turn goes back to the orchestrator. -/
structure Hushed (b b' : JotaBridge) : Prop where
  said : ∀ n, n ≠ b.push.turnId → Bridge.said n b'.out.wire = Bridge.said n b.out.wire
  id : ∀ t, (b'.turns t).id = (b.turns t).id
  piping : ∀ t, (b'.turns t).id ≠ 0 → (b'.turns t).pc.piping = true → (b.turns t).pc.piping = true
  seq : b.out.turnSeq ≤ b'.out.turnSeq

theorem Event.hushed (h : Event b b') (hids : Ids b) : Hushed b b' := by
  have htacit := h.tacit
  refine ⟨fun n _ => htacit.said n, fun t => ?_, fun t => ?_, h.later.seq⟩
  all_goals rcases h.turns t with heq | ⟨-, heq⟩ | ⟨rfl, -, -, heq⟩ <;> rw [heq]
  · exact (hids.fresh _ (Nat.le_refl _)).symm
  · exact fun _ h => h
  · exact fun _ h => h
  · exact fun hid => absurd rfl hid

theorem Handling.hushed (h : Handling b b') (hids : Ids b) :
    Hushed b b' ∧ b'.push.turnId = b.push.turnId ∧ Ids b' := by
  cases h with
  | event hev => exact ⟨hev.hushed hids, hev.tacit.pushId, hids.event hev⟩
  | abandons t n _ _ _ _ heq =>
    subst heq
    exact ⟨⟨fun m _ => said_send _ rfl, fun _ => rfl, fun _ _ h => h, Nat.le_refl _⟩, rfl,
      hids.keep (Nat.le_refl _) (fun _ => rfl) (.inl rfl) hids.created hids.started (Nat.le_refl _)⟩

theorem Handlings.hushed (h : Handlings b b') (hids : Ids b) :
    Hushed b b' ∧ b'.push.turnId = b.push.turnId ∧ Ids b' := by
  induction h with
  | refl => exact ⟨⟨fun _ _ => rfl, fun _ => rfl, fun _ _ h => h, Nat.le_refl _⟩, rfl, hids⟩
  | tail _ hnext ih =>
    obtain ⟨hfirst, hpush, hids'⟩ := ih
    obtain ⟨hthen, hpush', hids''⟩ := hnext.hushed hids'
    refine ⟨⟨fun n hn => ?_, fun t => (hthen.id t).trans (hfirst.id t), fun t hid hpiping => ?_,
      hfirst.seq.trans hthen.seq⟩, hpush'.trans hpush, hids''⟩
    · exact (hthen.said n (hpush.symm ▸ hn)).trans (hfirst.said n hn)
    · exact hfirst.piping t (hthen.id t ▸ hid) (hthen.piping t hid hpiping)

/-- The other tasks say nothing under the id of a turn. -/
theorem Change.hushed {a : Act} (h : Change cfg b b' a) (hinv : Inv b) (hids : Ids b)
    (hturn : ∀ t a₀, a ≠ .turn t a₀) : Hushed b b' ∧ Ids b' := by
  cases h with
  | turn t a₀ => exact absurd rfl (hturn t a₀)
  | worker a h =>
    obtain ⟨p, heff, rfl⟩ := workerStep_effect hinv.tasks h
    exact ⟨⟨fun n => effect_said heff, fun _ => rfl, fun _ _ h => h, heff.later.seq⟩,
      hids.setPushing heff⟩
  | loses i a _ heq =>
    subst heq
    exact ⟨⟨fun _ _ => rfl, fun _ => rfl, fun _ _ h => h, Nat.le_refl _⟩,
      hids.keep (Nat.le_refl _) (fun _ => rfl) (.inl rfl) hids.created hids.started (Nat.le_refl _)⟩
  | handles h =>
    obtain ⟨hhushed, -, hids'⟩ := h.hushed hids
    exact ⟨hhushed, hids'⟩

end JotaBridge

-- ---------------------------------------------------------------------------
-- The replies of a run
-- ---------------------------------------------------------------------------

/-- What the orchestrator yields to turn `t` in a step. -/
def Act.yields (t : TurnRef) : Act → Option Content
  | .turn t' a => if t' = t then a.yields else none
  | _ => none

/-- What it has yielded to `t`, in order. -/
def yielded (t : TurnRef) (actions : List Act) : List Content := actions.filterMap (Act.yields t)

/-- The client cannot be reached: its socket is gone, or its sender has closed. -/
def Session.unreachable (s : Session) : Prop :=
  s.bridge.out.senderOpen = false ∨ s.bridge.out.clientGone = true

namespace Session

variable {cfg : Config} {s s' : Session} {actions : List Act} {a : Act} {t : TurnRef}

/-- What turn `t` has said is what has been yielded to it, but at most one event at which it found
the client gone. -/
structure Relayed (cfg : Config) (actions : List Act) (s : Session) (t : TurnRef) : Prop where
  idle : (s.bridge.turns t).id = 0 → yielded t actions = []
  relayed : (s.bridge.turns t).id ≠ 0 →
    ∃ lost : List Content, (yielded t actions).filter cfg.forwards =
      said (s.bridge.turns t).id s.bridge.out.wire ++ lost ∧ lost.length ≤ 1 ∧
        (lost ≠ [] → (s.bridge.turns t).pc.piping = false ∧
          Past (step cfg) {} actions Session.unreachable)

structure Replies (cfg : Config) (actions : List Act) (s : Session) : Prop where
  ids : s.bridge.Ids
  unsaid : ∀ n, s.bridge.out.turnSeq < n → said n s.bridge.out.wire = []
  turn : ∀ t, Relayed cfg actions s t

theorem yielded_append (t : TurnRef) (actions : List Act) (a : Act) :
    yielded t (actions ++ [a]) = yielded t actions ++ (a.yields t).toList := by
  rw [yielded, List.filterMap_append, List.filterMap_cons, List.filterMap_nil]
  cases a.yields t <;> rfl

theorem yielded_of_none (hyields : a.yields t = none) :
    yielded t (actions ++ [a]) = yielded t actions := by
  rw [yielded_append, hyields]
  exact List.append_nil _

/-- Turn `t` takes nothing, and nothing is said under its id. -/
theorem Relayed.keep (h : Relayed cfg actions s t) (hyields : a.yields t = none)
    (hid : (s'.bridge.turns t).id = (s.bridge.turns t).id)
    (hsaid : (s.bridge.turns t).id ≠ 0 → said (s.bridge.turns t).id s'.bridge.out.wire =
      said (s.bridge.turns t).id s.bridge.out.wire)
    (hpiping : (s'.bridge.turns t).id ≠ 0 → (s'.bridge.turns t).pc.piping = true →
      (s.bridge.turns t).pc.piping = true) : Relayed cfg (actions ++ [a]) s' t := by
  refine ⟨fun hid' => ?_, fun hid' => ?_⟩
  · rw [yielded_of_none hyields]
    exact h.idle (hid ▸ hid')
  · have hid₀ : (s.bridge.turns t).id ≠ 0 := hid ▸ hid'
    obtain ⟨lost, heq, hlen, hlost⟩ := h.relayed hid₀
    refine ⟨lost, ?_, hlen, fun hne => ?_⟩
    · rw [yielded_of_none hyields, hid, hsaid hid₀]
      exact heq
    · obtain ⟨hleft, hpast⟩ := hlost hne
      refine ⟨Bool.eq_false_iff.mpr fun hp => ?_, hpast.later⟩
      rw [hpiping hid' hp] at hleft
      cases hleft

theorem Replies.init : Replies cfg [] {} :=
  ⟨.init, fun _ _ => rfl, fun _ => ⟨fun _ => rfl, fun hid => absurd rfl hid⟩⟩

/-- A step of another task. -/
theorem Replies.change (h : Replies cfg actions s) (hinv : JotaBridge.Inv s.bridge)
    (hchange : JotaBridge.Change cfg s.bridge s'.bridge a) (hturn : ∀ t a₀, a ≠ .turn t a₀) :
    Replies cfg (actions ++ [a]) s' := by
  obtain ⟨hhushed, hids⟩ := hchange.hushed hinv h.ids hturn
  have hyields : ∀ t, a.yields t = none := by
    intro t
    cases a with
    | turn t' a₀ => exact absurd rfl (hturn t' a₀)
    | _ => rfl
  refine ⟨hids, fun n hn => ?_, fun t => ?_⟩
  · have hlt := hhushed.seq.trans_lt hn
    rw [hhushed.said n (h.ids.pushLe.trans_lt hlt).ne']
    exact h.unsaid n hlt
  · exact (h.turn t).keep (hyields t) (hhushed.id t) (fun hid => hhushed.said _ (h.ids.push t hid))
      (hhushed.piping t)

/-- Turn `t` takes an event of the orchestrator. -/
theorem Relayed.event {r : Running} {c : Content} (h : Relayed cfg actions s t)
    (hrun : Transition.run (step cfg) {} actions = some s)
    (hid : (s.bridge.turns t).id ≠ 0) (hyields : a.yields t = some c)
    (hpiping : (s.bridge.turns t).pc.piping = true)
    (hsay : Running.Says cfg c (s.bridge.running t) r)
    (htask : s'.bridge.turns t = r.task) (hout : s'.bridge.out = r.out) :
    Relayed cfg (actions ++ [a]) s' t := by
  obtain ⟨lost, heq, -, hlost⟩ := h.relayed hid
  have hnone : lost = [] := by
    by_contra hne
    rw [(hlost hne).1] at hpiping
    cases hpiping
  rw [hnone, List.append_nil] at heq
  have hfilter : (yielded t (actions ++ [a])).filter cfg.forwards =
      said (s.bridge.turns t).id s.bridge.out.wire ++ if cfg.forwards c = true then [c] else [] := by
    rw [yielded_append, hyields, List.filter_append, heq]
    simp only [Option.toList_some, List.filter_cons, List.filter_nil]
  have hid' : r.task.id = (s.bridge.turns t).id := by
    cases hsay with
    | forwards hid _ => exact hid
    | gone hmute => exact hmute.id
  refine ⟨fun hidle => absurd (hid'.symm.trans (htask ▸ hidle)) hid, fun _ => ?_⟩
  rw [htask, hout, hid', hfilter]
  cases hsay with
  | forwards _ hsaid =>
    refine ⟨[], ?_, Nat.zero_le _, fun hne => absurd rfl hne⟩
    rw [hsaid, List.append_nil]
    exact congrArg _ (if_congr (and_iff_right rfl).symm rfl rfl)
  | gone hmute hleaves hgone =>
    refine ⟨if cfg.forwards c = true then [c] else [], ?_, ?_, fun _ => ⟨hleaves, ?_⟩⟩
    · rw [hmute.said]
    · split
      · exact Nat.le_refl _
      · exact Nat.zero_le _
    · exact (Transition.Past.now hrun hgone).later

/-- A step of a turn. -/
theorem Replies.takes {t₀ : TurnRef} {a₀ : TurnAct} (h : Replies cfg actions s)
    (hrun : Transition.run (step cfg) {} actions = some s) (hinv : JotaBridge.Inv s.bridge)
    (hstep : s.step cfg (.turn t₀ a₀) = some s') :
    Replies cfg (actions ++ [.turn t₀ a₀]) s' := by
  obtain ⟨b, hb, rfl⟩ := Option.map_eq_some_iff.mp hstep
  obtain ⟨r, hr, rfl⟩ := Option.map_eq_some_iff.mp hb
  have htakes := Running.step_takes hr
  have heff := Running.step_effect (hinv.tasks.turn t₀) hr
  have hself : (s.bridge.setRunning t₀ r).turns t₀ = r.task := Function.update_self _ _ _
  have hother : ∀ t, t ≠ t₀ → (s.bridge.setRunning t₀ r).turns t = s.bridge.turns t :=
    fun _ hne => Function.update_of_ne hne _ _
  refine ⟨h.ids.setRunning hinv.control.fresh heff, fun n hn => ?_, fun t => ?_⟩
  · have hlt : s.bridge.out.turnSeq < n := heff.later.seq.trans_lt hn
    refine (htakes.said_ne ?_).trans (h.unsaid n hlt)
    exact ((h.ids.le t₀).trans_lt hlt).ne'
  · rcases eq_or_ne t t₀ with rfl | hne
    · have hyields : Act.yields t (.turn t a₀) = a₀.yields := if_pos rfl
      cases htakes with
      | nothing hnone hmute =>
        refine (h.turn t).keep (hyields.trans hnone) ?_ (fun _ => hmute.said _) fun _ => ?_
        · rw [hself]
          exact hmute.id
        · rw [hself]
          exact hmute.piping
      | start hnone hpc hsaid =>
        have hnothing : yielded t (actions ++ [.turn t a₀]) = [] := by
          rw [yielded_of_none (hyields.trans hnone)]
          exact (h.turn t).idle (h.ids.created t hpc)
        refine ⟨fun _ => hnothing, fun hid => ⟨[], ?_, Nat.zero_le _, fun hne => absurd rfl hne⟩⟩
        rw [hnothing, hself]
        cases heff.numbers with
        | keeps hid₀ =>
          rw [hself, hid₀] at hid
          exact absurd (h.ids.created t hpc) hid
        | takes _ hid₀ =>
          have hlt : s.bridge.out.turnSeq < r.task.id := hid₀ ▸ Nat.lt_succ_self _
          exact ((List.append_nil _).trans ((hsaid _).trans (h.unsaid _ hlt))).symm
      | event c hc hpiping hcreated hsay =>
        have hstarted : (s.bridge.turns t).started = true  :=
          TurnTask.started_of_piping hpiping hcreated
        exact (h.turn t).event hrun (h.ids.started t hstarted) (hyields.trans hc) hpiping hsay hself rfl
    · refine (h.turn t).keep (if_neg hne.symm) ?_ (fun hid => ?_) fun _ => ?_
      · rw [hother t hne]
      · exact htakes.said_ne (h.ids.ne t t₀ hne hid)
      · rw [hother t hne]
        exact fun h => h

/-- The invariant of every run. -/
theorem replies_of_run (hrun : Transition.run (step cfg) {} actions = some s) : Replies cfg actions s := by
  have hnext : ∀ actions s a s', Transition.run (step cfg) {} actions = some s →
      Replies cfg actions s → step cfg s a = some s' → Replies cfg (actions ++ [a]) s' := by
    intro actions s a s' hrun h hstep
    have hok := ok_of_reachable (Transition.reachable_of_run hrun)
    by_cases hturn : ∃ t a₀, a = .turn t a₀
    · obtain ⟨t, a₀, rfl⟩ := hturn
      exact h.takes hrun hok.inv hstep
    · exact h.change hok.inv (step_advances hok hstep).change fun t a₀ heq => hturn ⟨t, a₀, heq⟩
  exact Transition.run_invariant Replies.init hnext hrun

/-- Every event the orchestrator yields to a turn that forwards it is said under the turn's own id, in
order and once, but at most one: at it the turn found the client gone, and it takes no more. -/
theorem replies_in_order (cfg : Config) (actions : List Act) (s : Session)
    (hrun : Transition.run (step cfg) {} actions = some s) (t : TurnRef) :
    ((s.bridge.turns t).id = 0 → yielded t actions = []) ∧
      ((s.bridge.turns t).id ≠ 0 →
        (∀ t', t ≠ t' → (s.bridge.turns t).id ≠ (s.bridge.turns t').id) ∧
          ∃ lost : List Content, (yielded t actions).filter cfg.forwards =
            said (s.bridge.turns t).id s.bridge.out.wire ++ lost ∧ lost.length ≤ 1 ∧
              (lost ≠ [] → (s.bridge.turns t).pc.piping = false ∧
                Transition.Past (step cfg) {} actions Session.unreachable)) := by
  have h := replies_of_run hrun
  exact ⟨(h.turn t).idle, fun hid => ⟨fun t' hne => h.ids.ne t t' hne hid, (h.turn t).relayed hid⟩⟩

/-- The client goes while the second of two turns is under way. -/
def goneMidway : List Act :=
  [.begin 0 .send, .turn 0 .start, .turn 0 (.token (py "one")), .turn 0 .streamEnds,
    .begin 1 .send, .turn 1 .start, .turn 1 (.token (py "two")), .disconnected,
    .turn 1 (.token (py "three"))]

theorem replies_in_order_gone :
    ∃ s : Session, Transition.run (step textOnly) {} goneMidway = some s ∧
      s.bridge.out.wire = [.turnStart 1 1, .token 1 (py "one"), .turnEnd 1, .turnStart 2 2,
        .token 2 (py "two")] ∧
      ∃ lost : List Content, (yielded 1 goneMidway).filter textOnly.forwards =
        said 2 s.bridge.out.wire ++ lost ∧ lost.length ≤ 1 := by
  have hrun : (Transition.run (step textOnly) {} goneMidway).isSome = true := rfl
  have hid : ((Option.get _ hrun).bridge.turns 1).id = 2 := rfl
  have hcontract := (replies_in_order textOnly goneMidway _ (Option.some_get hrun).symm 1).2
    (hid ▸ Nat.succ_ne_zero 1)
  obtain ⟨-, lost, heq, hlen, -⟩ := hcontract
  exact ⟨_, rfl, rfl, lost, heq, hlen⟩

end Session

end Bridge
