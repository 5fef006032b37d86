-- SUMMARY: Once a session is closing nothing starts in it any more: what each of its changes keeps to.
import JotaGateway.Bridge.Targets

/-!
# Winding down

`close_all` sets `_closing` before it takes its lock. From then on no turn is
created and no push enqueued, a cancelled turn says nothing new, and a
cancelled worker only ends.
-/

namespace Bridge

/-- What becomes of the push once its worker does nothing more. -/
structure Push.Wanes (p p' : Push) : Prop where
  worker : p'.worker.doomed = true
  audioTask : p'.audioTask = p.audioTask ∨ p'.audioTask = none
  tts : p'.tts = p.tts ∨ p'.tts = none
  turnOpen : p'.turnOpen = true → p.turnOpen = true
  queue : p'.queue <:+ p.queue
  pending : p'.pending ≤ p.pending

namespace Push.Wanes

variable {p p' p'' : Push}

theorem refl (h : p.worker.doomed = true) : p.Wanes p :=
  ⟨h, .inl rfl, .inl rfl, fun h => h, List.suffix_refl _, Nat.le_refl _⟩

theorem trans (h : p.Wanes p') (h' : p'.Wanes p'') : p.Wanes p'' := by
  refine ⟨h'.worker, ?_, ?_, fun ho => h.turnOpen (h'.turnOpen ho),
    h'.queue.trans h.queue, h'.pending.trans h.pending⟩
  · cases h'.audioTask with
    | inl heq => exact heq ▸ h.audioTask
    | inr hnone => exact .inr hnone
  · cases h'.tts with
    | inl heq => exact heq ▸ h.tts
    | inr hnone => exact .inr hnone

end Push.Wanes

theorem cancelWorker_doomed (w : Worker) : (Session.cancelWorker w).doomed = true := by
  unfold Session.cancelWorker
  split
  · rename_i hdone
    rw [Worker.doomed, hdone]
  · unfold Worker.doomed
    split
    · rfl
    · rfl

namespace Pushing

/-- The last step of a worker. -/
theorem step_wanes {env : WorkerEnv} {p₀ p : Pushing} {a : WorkerAct} (hok : Ok p₀)
    (hdoomed : p₀.push.worker.doomed = true) (h : p₀.step env a = some p) : p₀.push.Wanes p.push := by
  have hshrinks := step_shrinks hok h
  have hreq : p₀.push.worker.cancelReq = true := by
    unfold Worker.doomed at hdoomed
    split at hdoomed
    · rename_i hdone
      rw [step_of_done hdone] at h
      cases h
    · exact hdoomed
  obtain ⟨hdone, hmoves⟩ := hshrinks.cancelled hreq
  refine ⟨?_, hmoves.audioTask.imp_right And.left, hmoves.tts.imp_right And.left, ?_, hshrinks.queue,
    hshrinks.pending⟩
  · simp only [Worker.doomed, hdone]
  · intro hopen
    cases hmoves.turn with
    | inl hsame => exact hsame.1 ▸ hopen
    | inr hended => exact hended.opened

end Pushing

namespace Running

/-- A cancelled turn goes on only as what it is: it does not start. -/
theorem step_doomed {cfg : Config} {endSent : Option Nat} {r₀ r : Running} {a : TurnAct} (hok : Ok r₀)
    (hdoomed : r₀.task.doomed = true) (h : r₀.step cfg endSent a = some r)
    (hlive : r.task.live = true) :
    r.task.doomed = true ∧ r₀.task.started = true ∧ r.task.id = r₀.task.id := by
  have hover : r.task.pc = .done → False := by
    intro hdone
    rw [TurnTask.live, hdone] at hlive
    cases hlive
  cases step_effect hok h with
  | start hpc =>
    have hreq : r₀.task.cancelReq = true := by
      simpa only [TurnTask.doomed, TurnPc.cancelled, TurnPc.exc, hpc, reduceCtorEq, decide_false,
        Bool.or_false] using hdoomed
    unfold step at h
    split at h
    · rw [if_pos hreq] at h
      simp only [onCancelled, hpc, Option.some.injEq] at h
      subst h
      exact (hover rfl).elim
    · rw [if_pos hreq] at h
      cases h
  | unsent _ _ _ hdone => exact (hover hdone).elim
  | connected _ hreq =>
    rw [hdoomed] at hreq
    cases hreq
  | move hstarted₀ hprogress _ _ hkeeps => exact ⟨hkeeps hdoomed, hstarted₀, hprogress.id⟩
  | ended _ _ _ _ _ hdone => exact (hover hdone).elim

end Running

namespace JotaBridge

variable {cfg : Config} {b b' b'' : JotaBridge} {t : TurnRef}

/-- What a change of a closing session keeps to. -/
structure Winds (b b' : JotaBridge) : Prop where
  out : b.out.Later b'.out
  closing : b'.closing = true
  turnCount : b'.turnCount = b.turnCount
  live : ∀ t, (b'.turns t).live = true → (b.turns t).live = true
  doomed : ∀ t, (b.turns t).doomed = true → (b'.turns t).live = true → (b'.turns t).doomed = true
  started : ∀ t, (b.turns t).doomed = true → (b'.turns t).started = true →
    (b.turns t).started = true ∧ (b'.turns t).id = (b.turns t).id
  push : b.push.worker.doomed = true → b.push.Wanes b'.push
  queue : b'.push.queue <:+ b.push.queue

namespace Winds

theorem refl (h : b.closing = true) : Winds b b :=
  ⟨.refl _, h, rfl, fun _ h => h, fun _ h _ => h, fun _ _ h => ⟨h, rfl⟩, .refl, List.suffix_refl _⟩

theorem trans (h : Winds b b') (h' : Winds b' b'') : Winds b b'' := by
  refine ⟨h.out.trans h'.out, h'.closing, h'.turnCount.trans h.turnCount,
    fun t ht => h.live t (h'.live t ht), ?_, ?_, ?_, h'.queue.trans h.queue⟩
  · intro t hdoomed hlive
    exact h'.doomed t (h.doomed t hdoomed (h'.live t hlive)) hlive
  · intro t hdoomed hstarted
    have hlive := h'.live t (TurnTask.live_of_started hstarted)
    obtain ⟨hstarted', hid'⟩ := h'.started t (h.doomed t hdoomed hlive) hstarted
    obtain ⟨hstarted₀, hid⟩ := h.started t hdoomed hstarted'
    exact ⟨hstarted₀, hid'.trans hid⟩
  · exact fun hdoomed => (h.push hdoomed).trans (h'.push (h.push hdoomed).worker)

/-- A turn that has been cancelled, or is over, stays so. -/
theorem spent (h : Winds b b') (hspent : (b.turns t).live = true → (b.turns t).doomed = true)
    (hlive : (b'.turns t).live = true) : (b'.turns t).doomed = true :=
  h.doomed t (hspent (h.live t hlive)) hlive

end Winds

-- ---------------------------------------------------------------------------
-- Each change of a closing session
-- ---------------------------------------------------------------------------

theorem Event.stays_closing (h : Event b b') (hclosing : b.closing = true) : b'.closing = true := by
  cases h with
  | closing => rfl
  | enqueue q =>
    unfold enqueuePush
    split <;> exact hclosing
  | cancelTask t =>
    unfold JotaBridge.cancelTask
    split <;> exact hclosing
  | cancels i t =>
    unfold cancelAndWait JotaBridge.cancelTask
    split <;> exact hclosing
  | forgets i t =>
    unfold forget
    split <;> exact hclosing
  | _ => exact hclosing

theorem Event.turnCount (h : Event b b') (hclosing : b.closing = true) :
    b'.turnCount = b.turnCount := by
  cases h with
  | enqueue q =>
    unfold enqueuePush
    split <;> rfl
  | cancelTask t =>
    unfold JotaBridge.cancelTask
    split <;> rfl
  | cancels i t =>
    unfold cancelAndWait JotaBridge.cancelTask
    split <;> rfl
  | forgets i t =>
    unfold forget
    split <;> rfl
  | creates i _ _ _ hopen =>
    rw [hclosing] at hopen
    cases hopen
  | _ => rfl

/-- An event has nothing for a cancelled worker. -/
theorem Event.push (h : Event b b') (hclosing : b.closing = true)
    (hdoomed : b.push.worker.doomed = true) : b.push.Wanes b'.push := by
  have hsame : b.push.Wanes b.push := .refl hdoomed
  cases h with
  | enqueue q =>
    rw [enqueuePush, if_pos hclosing]
    exact hsame
  | cancelTask t =>
    unfold JotaBridge.cancelTask
    split <;> exact hsame
  | cancelWorker =>
    exact ⟨cancelWorker_doomed _, .inl rfl, .inl rfl, fun h => h, List.suffix_refl _, Nat.le_refl _⟩
  | cancels i t =>
    unfold cancelAndWait JotaBridge.cancelTask
    split <;> exact hsame
  | forgets i t =>
    unfold forget
    split <;> exact hsame
  | drops i s p waits _ _ hdrop =>
    have hpush : p.push = _ := hdrop.push
    simp only [suspend, setOp, JotaBridge.setPushing, hpush]
    exact ⟨hdoomed, .inr rfl, .inr rfl, fun h => h, List.suffix_refl _, Nat.le_refl _⟩
  | closesPush by_ _ hopen =>
    rw [Pushing.closePushTurn_of_open (p := b.pushing) hopen]
    exact ⟨hdoomed, .inl rfl, .inl rfl, fun _ => hopen, List.suffix_refl _, Nat.le_refl _⟩
  | dropsBacklog =>
    exact ⟨hdoomed, .inl rfl, .inl rfl, fun h => h, List.nil_suffix, Nat.zero_le _⟩
  | clearsTts => exact ⟨hdoomed, .inl rfl, .inr rfl, fun h => h, List.suffix_refl _, Nat.le_refl _⟩
  | _ => exact hsame

/-- None is put in the backlog. -/
theorem Event.queue (h : Event b b') (hclosing : b.closing = true) :
    b'.push.queue <:+ b.push.queue := by
  have hsame : b.push.queue <:+ b.push.queue := List.suffix_refl _
  cases h with
  | enqueue q =>
    rw [enqueuePush, if_pos hclosing]
  | cancelTask t =>
    unfold JotaBridge.cancelTask
    split <;> exact hsame
  | cancels i t =>
    unfold cancelAndWait JotaBridge.cancelTask
    split <;> exact hsame
  | forgets i t =>
    unfold forget
    split <;> exact hsame
  | drops i s p waits _ _ hdrop =>
    have hpush : p.push = _ := hdrop.push
    simp only [suspend, setOp, JotaBridge.setPushing, hpush]
    exact hsame
  | closesPush by_ _ hopen =>
    rw [Pushing.closePushTurn_of_open (p := b.pushing) hopen]
    exact hsame
  | dropsBacklog => exact List.nil_suffix
  | _ => exact hsame

theorem Event.winds (h : Event b b') (hclosing : b.closing = true) : Winds b b' := by
  have hasked : ∀ t, b'.turns t = b.turns t ∨
      (b.turns t).live = true ∧ b'.turns t = { b.turns t with cancelReq := true } := by
    intro t
    refine (h.turns t).imp_right fun hturn => hturn.resolve_right fun hnew => ?_
    rw [hclosing] at hnew
    cases hnew.2.2.1
  refine ⟨h.later, h.stays_closing hclosing, h.turnCount hclosing, ?_, ?_, ?_, h.push hclosing,
    h.queue hclosing⟩
  · intro t hlive
    cases hasked t with
    | inl heq => exact heq ▸ hlive
    | inr hcancelled => exact hcancelled.1
  · intro t hdoomed _
    cases hasked t with
    | inl heq => exact heq ▸ hdoomed
    | inr hcancelled =>
      rw [hcancelled.2]
      exact Bool.true_or _
  · intro t _ hstarted
    cases hasked t with
    | inl heq =>
      rw [heq] at hstarted ⊢
      exact ⟨hstarted, rfl⟩
    | inr hcancelled =>
      rw [hcancelled.2] at hstarted ⊢
      exact ⟨hstarted, rfl⟩

theorem turnStep_winds {a : TurnAct} (hinv : Inv b) (hclosing : b.closing = true)
    (hstep : b.turnStep cfg t a = some b') : Winds b b' := by
  simp only [turnStep, Option.map_eq_some_iff] at hstep
  obtain ⟨r, hr, rfl⟩ := hstep
  have hself : (b.setRunning t r).turns t = r.task := Function.update_self _ _ _
  have hsame : ∀ t', t' ≠ t → (b.setRunning t r).turns t' = b.turns t' :=
    fun t' hne => Function.update_of_ne hne _ _
  have hdoomed := Running.step_doomed (hinv.tasks.turn t) (h := hr)
  have hlater : b.out.Later r.out := (Running.step_effect (hinv.tasks.turn t) hr).later
  refine ⟨hlater, hclosing, rfl, ?_, ?_, ?_, .refl, List.suffix_refl _⟩
  · intro t' hlive
    rcases eq_or_ne t' t with rfl | hne
    · exact (Running.step_effect (hinv.tasks.turn t') hr).live
    · exact hsame t' hne ▸ hlive
  · intro t' ht' hlive
    rcases eq_or_ne t' t with rfl | hne
    · rw [hself] at hlive ⊢
      exact (hdoomed ht' hlive).1
    · exact hsame t' hne ▸ ht'
  · intro t' ht' hstarted
    rcases eq_or_ne t' t with rfl | hne
    · rw [hself] at hstarted ⊢
      exact (hdoomed ht' (TurnTask.live_of_started hstarted)).2
    · rw [hsame t' hne] at hstarted ⊢
      exact ⟨hstarted, rfl⟩

theorem workerStep_winds {a : WorkerAct} (hinv : Inv b) (hclosing : b.closing = true)
    (hstep : b.workerStep cfg a = some b') : Winds b b' := by
  simp only [workerStep, Option.map_eq_some_iff] at hstep
  obtain ⟨p, hp, rfl⟩ := hstep
  have hlater : b.out.Later p.out := (Pushing.step_effect hinv.tasks.push hp).later
  exact ⟨hlater, hclosing, rfl, fun _ h => h, fun _ h _ => h, fun _ _ h => ⟨h, rfl⟩,
    fun hdoomed => Pushing.step_wanes hinv.tasks.push hdoomed hp,
    (Pushing.step_shrinks hinv.tasks.push hp).queue⟩

theorem Handling.winds (h : Handling b b') (hclosing : b.closing = true) : Winds b b' := by
  cases h with
  | event hev => exact hev.winds hclosing
  | abandons t n _ _ _ _ heq =>
    subst heq
    have hlater : b.out.Later (b.out.send (.turnEnd n)) := .send _ _
    exact ⟨hlater, hclosing, rfl, fun _ h => h, fun _ h _ => h, fun _ _ h => ⟨h, rfl⟩, .refl,
      List.suffix_refl _⟩

theorem Handlings.winds (h : Handlings b b') (hclosing : b.closing = true) : Winds b b' := by
  induction h with
  | refl => exact .refl hclosing
  | tail _ hhandling ih => exact ih.trans (hhandling.winds ih.closing)

theorem Change.winds {a : Act} (h : Change cfg b b' a) (hinv : Inv b) (hclosing : b.closing = true) :
    Winds b b' := by
  cases h with
  | turn t a hstep => exact turnStep_winds hinv hclosing hstep
  | worker a hstep => exact workerStep_winds hinv hclosing hstep
  | loses i a _ heq =>
    subst heq
    exact ⟨.refl _, hclosing, rfl, fun _ h => h, fun _ h _ => h, fun _ _ h => ⟨h, rfl⟩, .refl,
      List.suffix_refl _⟩
  | handles h => exact h.winds hclosing

/-- Only `close_all` notes a `turn_end` as sent. -/
theorem Event.endSent (h : Event b b') : b'.turnEndSentAtClose = b.turnEndSentAtClose := by
  cases h with
  | enqueue q =>
    unfold enqueuePush
    split <;> rfl
  | cancelTask t =>
    unfold JotaBridge.cancelTask
    split <;> rfl
  | cancels i t =>
    unfold cancelAndWait JotaBridge.cancelTask
    split <;> rfl
  | forgets i t =>
    unfold forget
    split <;> rfl
  | _ => rfl

theorem Events.endSent (h : Events b b') : b'.turnEndSentAtClose = b.turnEndSentAtClose := by
  induction h with
  | refl => rfl
  | tail _ hev ih => exact hev.endSent.trans ih

end JotaBridge

end Bridge
