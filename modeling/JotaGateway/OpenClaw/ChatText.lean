-- SUMMARY: `chat_text.py`: the text of a reply rebuilt from `chat` events, and that whatever it declares was sent.
import JotaGateway.Base.Alignment
import JotaGateway.Python.Value

/-!
# Chat text

`ChatTextTracker` applies the `deltaText`, `replace` and snapshot rules of
OpenClaw to the `chat` events of one reply. Tokens that were sent cannot be
taken back, so each event emits only what the client still lacks.
-/

open Alignment

-- ---------------------------------------------------------------------------
-- Reading a payload
-- ---------------------------------------------------------------------------

/-- The text of one part of `message["content"]`. -/
def partText : Json → PyStr
  | .obj part =>
    if (PyDict.get part "type").isStr "text" then (PyDict.get part "text").str?.getD [] else []
  | _ => []

/-- Text of `message`; any unexpected shape reads as "". -/
def extractMessageText (message : Json) : PyStr :=
  match message with
  | .obj message =>
    match PyDict.get message "content" with
    | .str content => content
    | .arr content => content.flatMap partText
    | _ => []
  | _ => []

/-- `not text.strip()`. -/
def isBlank (text : PyStr) : Bool := text.all isSpace

/-- `text` is a strict, non-empty prefix of what was emitted. -/
def isRetraction (emitted text : PyStr) : Bool :=
  !text.isEmpty && text.length < emitted.length && text.isPrefixOf emitted

/-- How a text fits what was emitted: it adds a tail, or it retracts. -/
inductive TailHit where
  | ok (tail : PyStr)
  | retract
deriving DecidableEq

/-- The tail `text` adds to `emitted`, compared also without leading whitespace; `none` if
it diverges. -/
def tailHit (emitted text : PyStr) : Option TailHit :=
  if emitted.isPrefixOf text then
    some (.ok (text.drop emitted.length))
  else
    let e := lstrip isSpace emitted
    let f := lstrip isSpace text
    if !isBlank e && e.isPrefixOf f then
      some (.ok (f.drop e.length))
    else if isRetraction emitted text then
      some .retract
    else
      none

/-- A `chat` payload that carries text. -/
def carriesText (payload : PyDict) : Bool :=
  !((payload.get "deltaText").str?.getD []).isEmpty ||
    !(extractMessageText (payload.get "message")).isEmpty

-- ---------------------------------------------------------------------------
-- The tracker
-- ---------------------------------------------------------------------------

structure ChatTextTracker where
  emitted : PyStr := []
  current : PyStr := []
  allOut : PyStr := []
deriving DecidableEq

namespace ChatTextTracker

def reset (_ : ChatTextTracker) : ChatTextTracker := {}

/-- Emit what `current` lacks, compared first with `emitted` and then with `all_out`. -/
def emitMissing (t : ChatTextTracker) : ChatTextTracker × PyStr :=
  if t.current.isEmpty then
    (t, [])
  else
    match (tailHit t.emitted t.current).or (tailHit t.allOut t.current) with
    | none => ({ t with emitted := t.current, allOut := t.allOut ++ t.current }, t.current)
    -- what was sent stays: `emitted` is kept so that regrowth is not repeated
    | some .retract => (t, [])
    | some (.ok out) => ({ t with emitted := t.current, allOut := t.allOut ++ out }, out)

def isFinal (payload : PyDict) : Bool := (payload.get "state").isStr "final"

/-- The update of `current` a payload makes; `none` where `feed` returns "" at once. -/
def declare (t : ChatTextTracker) (payload : PyDict) : Option ChatTextTracker :=
  let state := payload.get "state"
  let delta := (payload.get "deltaText").str?
  let message := payload.get "message"
  let hasSnapshot := message.dict?.isSome
  let snapshot := extractMessageText message
  let grown := { t with current := t.current ++ delta.getD [] }
  let hasDelta := !(delta.getD []).isEmpty
  if isFinal payload then
    if hasSnapshot && (!snapshot.isEmpty || delta.isNone) then
      some { t with current := snapshot }
    else
      some grown
  else if !(state.isNone || state.isStr "delta") then
    -- other states keep the old behaviour of deltaText and never read `message`
    if hasDelta then some grown else none
  else if hasSnapshot then
    some { t with current := snapshot }
  else if delta.isSome && (payload.get "replace") matches .bool true then
    some { t with current := delta.getD [] }
  else if hasDelta then
    some grown
  else
    none

/-- Text to send as a token for this `chat` event. -/
def feed (t : ChatTextTracker) (payload : PyDict) : ChatTextTracker × PyStr :=
  match t.declare payload with
  | none => (t, [])
  | some t =>
    let (t, out) := t.emitMissing
    (if isFinal payload then t.reset else t, out)

/-- The `current` a feed leaves; for `final`, the one held just before the reset. -/
def held (t : ChatTextTracker) (payload : PyDict) : PyStr :=
  ((t.declare payload).getD t).current

-- ---------------------------------------------------------------------------
-- Runs
-- ---------------------------------------------------------------------------

/-- One feed of a run: the tracker, and all that feed has returned since the last reset. -/
def feedStep (run : ChatTextTracker × PyStr) (payload : PyDict) : ChatTextTracker × PyStr :=
  let (t, out) := run.1.feed payload
  (t, if isFinal payload then [] else run.2 ++ out)

def feedAll (payloads : List PyDict) : ChatTextTracker × PyStr :=
  payloads.foldl feedStep ({}, [])

/-- One feed of a run: the tracker, and the texts declared since the last reset. -/
def declareStep (run : ChatTextTracker × List PyStr) (payload : PyDict) :
    ChatTextTracker × List PyStr :=
  ((run.1.feed payload).1, if isFinal payload then [] else run.2 ++ [run.1.held payload])

def declareAll (payloads : List PyDict) : ChatTextTracker × List PyStr :=
  payloads.foldl declareStep ({}, [])

end ChatTextTracker

-- ---------------------------------------------------------------------------
-- Whatever is declared was sent
-- ---------------------------------------------------------------------------

/-- A tail that fits completes the emitted text, exactly or up to leading whitespace. -/
theorem tailHit_ok {emitted text out : PyStr} (h : tailHit emitted text = some (.ok out)) :
    text = emitted ++ out ∨ lstrip isSpace text = lstrip isSpace emitted ++ out := by
  simp only [tailHit] at h
  split at h
  · rename_i hpre
    obtain ⟨rest, rfl⟩ := List.isPrefixOf_iff_prefix.mp hpre
    left
    simpa using h
  · split at h
    · rename_i _ hpre
      simp only [Bool.and_eq_true] at hpre
      obtain ⟨rest, hrest⟩ := List.isPrefixOf_iff_prefix.mp hpre.2
      right
      rw [← hrest] at h ⊢
      simpa using h
    · split at h <;> simp at h

theorem tailHit_retract {emitted text : PyStr} (h : tailHit emitted text = some .retract) :
    text <+: emitted := by
  simp only [tailHit] at h
  split at h
  · simp at h
  · split at h
    · simp at h
    · split at h
      · rename_i _ _ hret
        simp only [isRetraction, Bool.and_eq_true] at hret
        exact List.isPrefixOf_iff_prefix.mp hret.2
      · simp at h

namespace ChatTextTracker

/-- What the tracker keeps between two feeds: the emitted text is the end of what was
sent, and the declared one is part of it. -/
structure Inv (t : ChatTextTracker) : Prop where
  emitted_aligned : Aligned isSpace t.emitted t.allOut
  current_covered : Covered isSpace t.current t.allOut

theorem Inv.init : Inv {} where
  emitted_aligned := .nil _
  current_covered := .nil _

/-- An aligned text that takes a fitting tail is aligned with the stream that takes it too. -/
theorem aligned_of_hit {emitted text out sent : PyStr} (h : Aligned isSpace emitted sent)
    (hhit : tailHit emitted text = some (.ok out)) : Aligned isSpace text (sent ++ out) := by
  rcases tailHit_ok hhit with rfl | hstripped
  · exact h.append
  · exact h.append_stripped hstripped

/-- Emitting what is missing needs only the alignment of `emitted`: the declared text may be
anything before it and is covered after it. -/
theorem emitMissing_inv {t : ChatTextTracker} (h : Aligned isSpace t.emitted t.allOut) :
    Inv t.emitMissing.1 := by
  simp only [emitMissing]
  split
  · rename_i hempty
    have hcurrent : t.current = [] := by simpa using hempty
    exact ⟨h, by rw [hcurrent]; exact .nil _⟩
  · split
    · exact ⟨.sent_whole _ _, (Aligned.sent_whole _ _).covered⟩
    · rename_i hhit
      refine ⟨h, ?_⟩
      rcases Option.or_eq_some_iff.mp hhit with hemitted | ⟨_, hall⟩
      · exact h.covers_initial (tailHit_retract hemitted)
      · exact (Aligned.self _).covers_initial (tailHit_retract hall)
    · rename_i out hhit
      have haligned : Aligned isSpace t.current (t.allOut ++ out) := by
        rcases Option.or_eq_some_iff.mp hhit with hemitted | ⟨_, hall⟩
        · exact aligned_of_hit h hemitted
        · exact aligned_of_hit (.self _) hall
      exact ⟨haligned, haligned.covered⟩

/-- Declaring touches neither what was emitted nor what was sent. -/
theorem declare_emitted {t t' : ChatTextTracker} {payload : PyDict}
    (h : t.declare payload = some t') : t'.emitted = t.emitted ∧ t'.allOut = t.allOut := by
  simp only [declare] at h
  grind

theorem emitMissing_current (t : ChatTextTracker) : t.emitMissing.1.current = t.current := by
  unfold emitMissing
  split
  · rfl
  · split <;> rfl

theorem emitMissing_allOut (t : ChatTextTracker) :
    t.emitMissing.1.allOut = t.allOut ++ t.emitMissing.2 := by
  unfold emitMissing
  split
  · exact (List.append_nil _).symm
  · split
    · rfl
    · exact (List.append_nil _).symm
    · rfl

/-- A `final` always declares. -/
theorem not_final_of_declare {t : ChatTextTracker} {payload : PyDict}
    (h : t.declare payload = none) : isFinal payload = false := by
  refine Bool.eq_false_iff.mpr fun hfinal => ?_
  simp only [declare, hfinal, if_true] at h
  split at h <;> cases h

/-- One feed: the invariant is kept, and the text held after it is covered by all that was
sent, this feed's output included. -/
theorem feed_inv {t : ChatTextTracker} (h : Inv t) (payload : PyDict) :
    Inv (t.feed payload).1 ∧
      Covered isSpace (t.held payload) (t.allOut ++ (t.feed payload).2) ∧
      (isFinal payload = false → (t.feed payload).1.allOut = t.allOut ++ (t.feed payload).2) ∧
      (isFinal payload = true → (t.feed payload).1 = {}) := by
  simp only [feed, held]
  cases hdecl : t.declare payload with
  | none =>
    refine ⟨h, by simpa using h.current_covered, by simp, ?_⟩
    intro hfinal
    rw [not_final_of_declare hdecl] at hfinal
    cases hfinal
  | some t' =>
    obtain ⟨hemitted, hall⟩ := declare_emitted hdecl
    have hinv : Inv t'.emitMissing.1 := by
      refine emitMissing_inv ?_
      rw [hemitted, hall]
      exact h.emitted_aligned
    have hcurrent := emitMissing_current t'
    have hout := emitMissing_allOut t'
    refine ⟨?_, ?_, ?_, ?_⟩
    · by_cases hfinal : isFinal payload = true
      · simpa [hfinal, reset] using Inv.init
      · simpa [hfinal] using hinv
    · rw [← hall, ← hout, Option.getD_some, ← hcurrent]
      exact hinv.current_covered
    · intro hfinal
      simpa [hfinal, hall] using hout
    · intro hfinal
      simp [hfinal, reset]

/-- Along a run the tracker's `all_out` is what feed has returned since the last reset. -/
theorem feedAll_inv (payloads : List PyDict) :
    Inv (feedAll payloads).1 ∧ (feedAll payloads).1.allOut = (feedAll payloads).2 := by
  induction payloads using List.reverseRecOn with
  | nil => exact ⟨.init, rfl⟩
  | append_singleton payloads payload ih =>
    obtain ⟨hinv, hall⟩ := ih
    obtain ⟨hinv', _, hgrow, hreset⟩ := feed_inv hinv payload
    simp only [feedAll, List.foldl_append, List.foldl_cons, List.foldl_nil] at hall hinv' hgrow hreset ⊢
    refine ⟨hinv', ?_⟩
    simp only [feedStep]
    cases hfinal : isFinal payload with
    | true => simp [hreset hfinal]
    | false => simp [hgrow hfinal, hall]

/-- Whatever text a payload declares, the client has been sent all of it: without its leading
whitespace it occurs in what feed has returned since the last reset. -/
theorem held_sent (payloads : List PyDict) (payload : PyDict) :
    lstrip isSpace ((feedAll payloads).1.held payload) <:+:
      (feedAll payloads).2 ++ ((feedAll payloads).1.feed payload).2 := by
  obtain ⟨hinv, hall⟩ := feedAll_inv payloads
  rw [← hall]
  exact (feed_inv hinv payload).2.1

-- ---------------------------------------------------------------------------
-- Texts that only grow and shrink
-- ---------------------------------------------------------------------------

/-- A strict prefix of what was emitted is a retraction: the match up to leading whitespace
does not fire. -/
theorem tailHit_of_shorter {emitted text : PyStr} (h : text <+: emitted)
    (hlt : text.length < emitted.length) (hne : text ≠ []) :
    tailHit emitted text = some .retract := by
  have hlonger : emitted.isPrefixOf text = false := by
    refine Bool.eq_false_iff.mpr fun hpre => ?_
    exact absurd (List.isPrefixOf_iff_prefix.mp hpre).length_le (Nat.not_le.mpr hlt)
  have hstripped : (!isBlank (lstrip isSpace emitted) &&
      (lstrip isSpace emitted).isPrefixOf (lstrip isSpace text)) = false := by
    refine Bool.eq_false_iff.mpr fun hboth => ?_
    obtain ⟨hnonblank, hpre⟩ := Bool.and_eq_true_iff.mp hboth
    obtain ⟨rest, rfl⟩ := h
    have hpre : lstrip isSpace (text ++ rest) <+: lstrip isSpace text :=
      List.isPrefixOf_iff_prefix.mp hpre
    cases hblank : lstrip isSpace text with
    | nil =>
      rw [hblank, List.prefix_nil] at hpre
      rw [hpre] at hnonblank
      cases hnonblank
    | cons c cs =>
      have hlen := hpre.length_le
      rw [lstrip_append_of_not_blank (by rw [hblank]; exact List.cons_ne_nil _ _),
        List.length_append] at hlen
      rw [List.length_append] at hlt
      omega
  have hretraction : isRetraction emitted text = true := by
    simp only [isRetraction, Bool.and_eq_true, decide_eq_true_eq, Bool.not_eq_true',
      List.isEmpty_eq_false_iff]
    exact ⟨⟨hne, hlt⟩, List.isPrefixOf_iff_prefix.mpr h⟩
  simp only [tailHit, hlonger, hstripped, hretraction, Bool.false_eq_true, if_false, if_true]

theorem tailHit_of_longer {emitted text : PyStr} (h : emitted <+: text) :
    tailHit emitted text = some (.ok (text.drop emitted.length)) := by
  simp only [tailHit, List.isPrefixOf_iff_prefix.mpr h, if_true]

/-- When the declared text and the emitted one are parts of one text, what is missing is
exactly what the longer has more. -/
theorem emitMissing_plain {t : ChatTextTracker} {T : PyStr} (hsent : t.allOut = t.emitted)
    (hemitted : t.emitted <+: T) (hcurrent : t.current <+: T) :
    t.emitMissing.1.allOut = t.emitMissing.1.emitted ∧
      (t.emitMissing.1.allOut = t.current ∧ t.emitted <+: t.current ∨
        t.emitMissing.1.allOut = t.emitted ∧ t.current <+: t.emitted) := by
  cases hempty : t.current.isEmpty with
  | true =>
    have hnil : t.current = [] := List.isEmpty_iff.mp hempty
    simp only [emitMissing, hempty, if_true]
    exact ⟨hsent, .inr ⟨hsent, hnil ▸ List.nil_prefix⟩⟩
  | false =>
    have hne : t.current ≠ [] := List.isEmpty_eq_false_iff.mp hempty
    rcases Nat.lt_or_ge t.current.length t.emitted.length with hlt | hge
    · have hshorter : t.current <+: t.emitted :=
        List.prefix_of_prefix_length_le hcurrent hemitted (Nat.le_of_lt hlt)
      simp only [emitMissing, hempty, tailHit_of_shorter hshorter hlt hne, Option.some_or,
        Bool.false_eq_true, if_false]
      exact ⟨hsent, .inr ⟨hsent, hshorter⟩⟩
    · have hlonger : t.emitted <+: t.current :=
        List.prefix_of_prefix_length_le hemitted hcurrent hge
      have hwhole : t.emitted ++ t.current.drop t.emitted.length = t.current := by
        obtain ⟨rest, hrest⟩ := hlonger
        rw [← hrest, List.drop_left]
      simp only [emitMissing, hempty, tailHit_of_longer hlonger, Option.some_or,
        Bool.false_eq_true, if_false, hsent, hwhole, true_and]
      exact .inl hlonger

/-- What the tracker keeps while every declared text is a prefix of `T`: all that was sent is
the longest of them. -/
structure Plain (T : PyStr) (t : ChatTextTracker) (texts : List PyStr) : Prop where
  sent : t.allOut = t.emitted
  emitted : t.emitted <+: T
  current : t.current <+: t.allOut
  longest : ∀ text ∈ texts, text <+: t.allOut
  declared : t.allOut = [] ∨ t.allOut ∈ texts

theorem Plain.init (T : PyStr) : Plain T {} [] where
  sent := rfl
  emitted := List.nil_prefix
  current := List.nil_prefix
  longest _ h := by cases h
  declared := .inl rfl

/-- One feed: before a reset, all that was sent is the longest text declared, this one
included. -/
theorem feed_plain {T : PyStr} {t : ChatTextTracker} {texts : List PyStr} (h : Plain T t texts)
    (payload : PyDict) (hheld : t.held payload <+: T) :
    t.allOut ++ (t.feed payload).2 ∈ texts ++ [t.held payload] ∧
      (∀ text ∈ texts ++ [t.held payload], text <+: t.allOut ++ (t.feed payload).2) ∧
      Plain T (t.feed payload).1
        (if isFinal payload then [] else texts ++ [t.held payload]) := by
  have hall : ∀ {sent}, t.allOut <+: sent → t.held payload <+: sent →
      ∀ text ∈ texts ++ [t.held payload], text <+: sent := by
    intro sent hgrown hthis text htext
    rcases List.mem_append.mp htext with htext | htext
    · exact (h.longest text htext).trans hgrown
    · exact List.mem_singleton.mp htext ▸ hthis
  have hsame : t.held payload <+: t.allOut →
      t.allOut ∈ texts ++ [t.held payload] := by
    intro hthis
    rcases h.declared with hnil | hmem
    · rw [hnil, List.prefix_nil] at hthis
      rw [hnil, hthis]
      exact List.mem_append_right _ (List.mem_singleton.mpr rfl)
    · exact List.mem_append_left _ hmem
  cases hdecl : t.declare payload with
  | none =>
    have hthis : t.held payload = t.current := by rw [held, hdecl, Option.getD_none]
    have hfeed : t.feed payload = (t, []) := by rw [feed, hdecl]
    rw [hfeed, List.append_nil, hthis, not_final_of_declare hdecl]
    rw [hthis] at hsame hall
    refine ⟨hsame h.current, hall (List.prefix_refl _) h.current, h.sent, h.emitted, h.current,
      hall (List.prefix_refl _) h.current, .inr (hsame h.current)⟩
  | some t' =>
    have hthis : t.held payload = t'.current := by rw [held, hdecl, Option.getD_some]
    have hfeed : t.feed payload =
        (if isFinal payload then t'.emitMissing.1.reset else t'.emitMissing.1,
          t'.emitMissing.2) := by
      rw [feed, hdecl]
    obtain ⟨hemitted, hallOut⟩ := declare_emitted hdecl
    obtain ⟨hsent, hlonger⟩ := emitMissing_plain (T := T) (t := t') (by
      rw [hemitted, hallOut]
      exact h.sent) (hemitted ▸ h.emitted) (hthis ▸ hheld)
    have hgrown : t'.emitMissing.1.allOut = t.allOut ++ t'.emitMissing.2 := by
      rw [← hallOut]
      exact emitMissing_allOut t'
    have hcurrent : t'.emitMissing.1.current = t.held payload := by
      rw [hthis]
      exact emitMissing_current t'
    rw [hfeed, ← hgrown]
    rw [hemitted, ← hthis, ← h.sent] at hlonger
    have hmem : t'.emitMissing.1.allOut ∈ texts ++ [t.held payload] := by
      rcases hlonger with ⟨heq, -⟩ | ⟨heq, hshorter⟩
      · rw [heq]
        exact List.mem_append_right _ (List.mem_singleton.mpr rfl)
      · rw [heq]
        exact hsame hshorter
    have hcover : t.allOut <+: t'.emitMissing.1.allOut ∧
        t.held payload <+: t'.emitMissing.1.allOut := by
      rcases hlonger with ⟨heq, hle⟩ | ⟨heq, hle⟩
      · rw [heq]
        exact ⟨hle, List.prefix_refl _⟩
      · rw [heq]
        exact ⟨List.prefix_refl _, hle⟩
    refine ⟨hmem, hall hcover.1 hcover.2, ?_⟩
    cases isFinal payload with
    | true => exact .init T
    | false =>
      have hpre : t'.emitMissing.1.emitted <+: T := by
        rw [← hsent]
        rcases hlonger with ⟨heq, -⟩ | ⟨heq, -⟩
        · rw [heq]
          exact hheld
        · rw [heq, h.sent]
          exact h.emitted
      exact ⟨hsent, hpre, hcurrent ▸ hcover.2, hall hcover.1 hcover.2, .inr hmem⟩

/-- Along a run whose declared texts are prefixes of `T`. -/
theorem feedAll_plain (T : PyStr) (payloads : List PyDict)
    (hdeclared : ∀ past p future, payloads = past ++ p :: future →
      (feedAll past).1.held p <+: T) :
    Plain T (feedAll payloads).1 (declareAll payloads).2 ∧
      (declareAll payloads).1 = (feedAll payloads).1 := by
  induction payloads using List.reverseRecOn with
  | nil => exact ⟨.init T, rfl⟩
  | append_singleton payloads payload ih =>
    obtain ⟨hplain, htracker⟩ := ih fun past p future heq =>
      hdeclared past p (future ++ [payload]) (by rw [heq, List.append_assoc, List.cons_append])
    obtain ⟨-, -, hplain'⟩ := feed_plain hplain payload (hdeclared payloads payload [] rfl)
    simp only [feedAll, declareAll, List.foldl_append, List.foldl_cons, List.foldl_nil, feedStep,
      declareStep] at htracker hplain' ⊢
    rw [htracker]
    exact ⟨hplain', rfl⟩

/-- Over texts that grow, shrink and grow again along one text, all that was sent since the
last reset is the longest of those declared. -/
theorem sent_longest (T : PyStr) (payloads : List PyDict) (payload : PyDict)
    (hdeclared : ∀ past p future, payloads ++ [payload] = past ++ p :: future →
      (feedAll past).1.held p <+: T) :
    let sent := (feedAll payloads).2 ++ ((feedAll payloads).1.feed payload).2
    let texts := (declareAll payloads).2 ++ [(feedAll payloads).1.held payload]
    sent ∈ texts ∧ (∀ text ∈ texts, text <+: sent) ∧
      ((feedAll payloads).1.held payload = T → sent = T) := by
  intro sent texts
  have hthis : (feedAll payloads).1.held payload <+: T := hdeclared payloads payload [] rfl
  obtain ⟨hplain, -⟩ := feedAll_plain T payloads fun past p future heq =>
    hdeclared past p (future ++ [payload]) (by rw [heq, List.append_assoc, List.cons_append])
  obtain ⟨hmem, hlongest, -⟩ := feed_plain hplain payload hthis
  rw [(feedAll_inv payloads).2] at hmem hlongest
  refine ⟨hmem, hlongest, fun hwhole => ?_⟩
  have hsent : sent <+: T := by
    rcases List.mem_append.mp hmem with htext | htext
    · exact (hplain.longest sent htext).trans (hplain.sent ▸ hplain.emitted)
    · rw [show sent = _ from List.mem_singleton.mp htext]
      exact hthis
  have hT : T <+: sent :=
    hlongest T (List.mem_append_right _ (List.mem_singleton.mpr hwhole.symm))
  exact hsent.eq_of_length_le hT.length_le

/-- "ab" is retracted to "a" and grows again to the final "abc". -/
def regrowth : List PyDict :=
  [[(py "deltaText", .str (py "ab"))],
    [(py "deltaText", .str (py "a")), (py "replace", .bool true)]]

def regrowthFinal : PyDict :=
  [(py "state", .str (py "final")), (py "message", .obj [(py "content", .str (py "abc"))])]

/-- The client has been sent "ab" and then only "c". -/
theorem sent_longest_regrowth :
    (feedAll regrowth).2 = py "ab" ∧ ((feedAll regrowth).1.feed regrowthFinal).2 = py "c" ∧
      (feedAll regrowth).2 ++ ((feedAll regrowth).1.feed regrowthFinal).2 = py "abc" := by
  refine ⟨rfl, rfl, (sent_longest (py "abc") regrowth regrowthFinal ?_).2.2 rfl⟩
  intro past p future heq
  match past, heq with
  | [], heq =>
    cases heq
    decide
  | [_], heq =>
    cases heq
    decide
  | [_, _], heq =>
    cases heq
    decide
  | _ :: _ :: _ :: past, heq =>
    have hlen := congrArg List.length heq
    simp [regrowth] at hlen

-- ---------------------------------------------------------------------------
-- A payload without text
-- ---------------------------------------------------------------------------

/-- Nothing is missing: emitting now would send nothing. -/
def Settled (t : ChatTextTracker) : Prop := t.emitMissing.2 = []

theorem Settled.init : Settled {} := rfl

theorem tailHit_self (text : PyStr) : tailHit text text = some (.ok []) := by
  simp [tailHit]

theorem emitMissing_of_emitted {t : ChatTextTracker} (h : t.emitted = t.current) : Settled t := by
  unfold Settled emitMissing
  split
  · rfl
  · rw [h, tailHit_self]
    rfl

/-- Emitting leaves nothing missing. -/
theorem emitMissing_settled (t : ChatTextTracker) : Settled t.emitMissing.1 := by
  cases hempty : t.current.isEmpty with
  | true => simp [Settled, emitMissing, hempty]
  | false =>
    cases hhit : (tailHit t.emitted t.current).or (tailHit t.allOut t.current) with
    | none => exact emitMissing_of_emitted (by simp [emitMissing, hempty, hhit])
    | some hit =>
      cases hit with
      | ok out => exact emitMissing_of_emitted (by simp [emitMissing, hempty, hhit])
      | retract => simp [Settled, emitMissing, hempty, hhit]

/-- Every feed leaves the tracker settled. -/
theorem feed_settled {t : ChatTextTracker} (h : Settled t) (payload : PyDict) :
    Settled (t.feed payload).1 := by
  unfold feed
  cases t.declare payload with
  | none => exact h
  | some t' =>
    simp only
    split
    · exact .init
    · exact emitMissing_settled t'

/-- A payload that declares no text keeps the declared text, or empties it. -/
theorem declare_textless {t t' : ChatTextTracker} {payload : PyDict}
    (h : t.declare payload = some t') (htext : carriesText payload = false) :
    t' = t ∨ t'.current = [] := by
  simp only [carriesText, Bool.or_eq_false_iff, Bool.not_eq_false', List.isEmpty_iff] at htext
  obtain ⟨hdelta, hmessage⟩ := htext
  simp only [declare, hdelta, hmessage, List.append_nil] at h
  repeat' split at h
  all_goals first
    | cases h; exact .inl rfl
    | cases h; exact .inr rfl
    | cases h

/-- A payload without text sends nothing. -/
theorem feed_textless {t : ChatTextTracker} (h : Settled t) {payload : PyDict}
    (htext : carriesText payload = false) : (t.feed payload).2 = [] := by
  unfold feed
  cases hdecl : t.declare payload with
  | none => rfl
  | some t' =>
    rcases declare_textless hdecl htext with rfl | hcurrent
    · exact h
    · simp [emitMissing, hcurrent]

-- ---------------------------------------------------------------------------
-- A final that was trimmed
-- ---------------------------------------------------------------------------

/-- A payload that only adds text: a delta without a snapshot that replaces nothing. -/
def isAppend (payload : PyDict) : Bool :=
  ((payload.get "state").isNone || (payload.get "state").isStr "delta") &&
    (payload.get "deltaText").str?.isSome && (payload.get "message").dict?.isNone &&
    !(payload.get "replace" matches .bool true)

/-- The text a payload adds. -/
def appended (payload : PyDict) : PyStr := (payload.get "deltaText").str?.getD []

/-- The tracker of a reply that was only added to: all three texts agree. -/
def streamed (text : PyStr) : ChatTextTracker := { emitted := text, current := text, allOut := text }

theorem isFinal_of_isAppend {payload : PyDict} (h : isAppend payload = true) :
    isFinal payload = false := by
  simp only [isAppend, Bool.and_eq_true, Bool.or_eq_true] at h
  obtain ⟨⟨⟨hstate, -⟩, -⟩, -⟩ := h
  simp only [isFinal]
  cases hvalue : payload.get "state" with
  | str state =>
    rw [hvalue] at hstate
    cases hstate with
    | inl hnone => cases hnone
    | inr hdelta =>
      have hstate : state = py "delta" := by simpa [Json.isStr] using hdelta
      rw [hstate]
      rfl
  | _ => rfl

/-- An append emits exactly what it adds. -/
theorem feed_append (text : PyStr) {payload : PyDict} (h : isAppend payload = true) :
    (streamed text).feed payload = (streamed (text ++ appended payload), appended payload) := by
  have hfinal := isFinal_of_isAppend h
  simp only [isAppend, Bool.and_eq_true, Bool.not_eq_true', Option.isNone_iff_eq_none] at h
  obtain ⟨⟨⟨hstate, -⟩, hmessage⟩, hreplace⟩ := h
  have hdeclare : (streamed text).declare payload =
      if appended payload = [] then none
      else some { streamed text with current := text ++ appended payload } := by
    cases hdelta : (payload.get "deltaText").str?.getD [] with
    | nil => simp [declare, hfinal, hstate, hmessage, hreplace, appended, hdelta]
    | cons c cs => simp [declare, hfinal, hstate, hmessage, hreplace, appended, streamed, hdelta]
  rw [feed, hdeclare]
  cases hadded : appended payload with
  | nil => simp
  | cons c cs =>
    have hhit : tailHit text (text ++ c :: cs) = some (.ok (c :: cs)) := by
      rw [tailHit_of_longer (List.prefix_append text _), List.drop_left]
    simp [emitMissing, streamed, hhit, hfinal]

/-- After a run of appends the client has been sent their texts, and nothing else. -/
theorem feedAll_appends {payloads : List PyDict} (h : ∀ p ∈ payloads, isAppend p = true) :
    feedAll payloads =
      (streamed (payloads.flatMap appended), payloads.flatMap appended) := by
  induction payloads using List.reverseRecOn with
  | nil => rfl
  | append_singleton payloads payload ih =>
    have hlast : isAppend payload = true := h payload (by simp)
    have hstep := feed_append (payloads.flatMap appended) hlast
    have ih := ih fun p hp => h p (List.mem_append_left _ hp)
    simp only [feedAll] at ih
    simp [feedAll, List.foldl_append, ih, feedStep, hstep, isFinal_of_isAppend hlast]

/-- How a text fits its own padded copy: nothing is missing if the padding is at one end
only, and otherwise it diverges. -/
theorem tailHit_padded {text l r : PyStr} (htext : isBlank text = false) (hl : isBlank l = true) :
    tailHit (l ++ text ++ r) text =
      if r = [] then some (.ok []) else if l = [] then some .retract else none := by
  have hne : text ≠ [] := by
    rintro rfl
    cases htext
  have hstrip : lstrip isSpace (l ++ text ++ r) = lstrip isSpace text ++ r :=
    lstrip_padded hl htext
  cases r with
  | nil =>
    rw [List.append_nil] at hstrip ⊢
    cases l with
    | nil => simpa using tailHit_self text
    | cons c cs =>
      have hblank : isBlank (lstrip isSpace text) = false := by
        refine Bool.eq_false_iff.mpr fun hblank => ?_
        have hnil : lstrip isSpace (lstrip isSpace text) = [] := lstrip_eq_nil hblank
        rw [lstrip_lstrip] at hnil
        exact lstrip_ne_nil htext hnil
      have hlonger : ((c :: cs) ++ text).isPrefixOf text = false := by
        refine Bool.eq_false_iff.mpr fun hpre => ?_
        have hlen := (List.isPrefixOf_iff_prefix.mp hpre).length_le
        simp only [List.length_append, List.length_cons] at hlen
        omega
      simp only [tailHit, hlonger, hstrip, List.append_nil, hblank]
      simp
  | cons c cs =>
    cases l with
    | nil =>
      have hshorter := tailHit_of_shorter (List.prefix_append text (c :: cs)) (by simp) hne
      simpa using hshorter
    | cons d ds =>
      have hlonger : ((d :: ds) ++ text ++ c :: cs).isPrefixOf text = false := by
        refine Bool.eq_false_iff.mpr fun hpre => ?_
        have hlen := (List.isPrefixOf_iff_prefix.mp hpre).length_le
        simp only [List.length_append, List.length_cons] at hlen
        omega
      have hstripped : (lstrip isSpace text ++ c :: cs).isPrefixOf (lstrip isSpace text) = false := by
        refine Bool.eq_false_iff.mpr fun hpre => ?_
        have hlen := (List.isPrefixOf_iff_prefix.mp hpre).length_le
        simp only [List.length_append, List.length_cons] at hlen
        omega
      have hretraction : isRetraction ((d :: ds) ++ text ++ c :: cs) text = false := by
        refine Bool.eq_false_iff.mpr fun hret => ?_
        simp only [isRetraction, Bool.and_eq_true] at hret
        exact not_prefix_padded hl (List.cons_ne_nil d ds) htext
          (List.isPrefixOf_iff_prefix.mp hret.2)
      simp only [tailHit, hlonger, hstrip, hstripped, hretraction]
      simp

/-- A final whose snapshot is not empty declares that snapshot. -/
theorem declare_snapshot {t : ChatTextTracker} {payload : PyDict} (hfinal : isFinal payload = true)
    (hne : extractMessageText (payload.get "message") ≠ []) :
    t.declare payload =
      some { t with current := extractMessageText (payload.get "message") } := by
  have hdict : (payload.get "message").dict?.isSome = true := by
    cases hmessage : payload.get "message" with
    | obj fields => rfl
    | _ =>
      rw [hmessage] at hne
      exact absurd rfl hne
  have hsnapshot : (extractMessageText (payload.get "message")).isEmpty = false := by
    simpa using hne
  simp [declare, hfinal, hdict, hsnapshot]

/-- A reply streamed with whitespace around it reaches the client as it was streamed, and its
trimmed final stays silent exactly when the whitespace was at one end only. -/
theorem trimmed_final_silent_iff {reply l r : PyStr} {deltas : List PyDict} {final : PyDict}
    (hreply : isBlank reply = false) (hl : isBlank l = true) (hr : isBlank r = true)
    (hdeltas : ∀ delta ∈ deltas, isAppend delta = true)
    (hstreamed : deltas.flatMap appended = l ++ reply ++ r) (hfinal : isFinal final = true)
    (hmessage : extractMessageText (final.get "message") = reply) :
    (feedAll deltas).2 = l ++ reply ++ r ∧
      (isBlank ((feedAll deltas).1.feed final).2 = true ↔ l = [] ∨ r = []) := by
  have hrun := feedAll_appends hdeltas
  rw [hstreamed] at hrun
  have hne : reply ≠ [] := by
    rintro rfl
    cases hreply
  have hdeclare : (streamed (l ++ reply ++ r)).declare final =
      some { streamed (l ++ reply ++ r) with current := reply } := by
    rw [declare_snapshot hfinal (hmessage ▸ hne), hmessage]
  have hempty : reply.isEmpty = false := List.isEmpty_eq_false_iff.mpr hne
  rw [hrun]
  refine ⟨rfl, ?_⟩
  have hhit := tailHit_padded (r := r) hreply hl
  have hemit : { streamed (l ++ reply ++ r) with current := reply }.emitMissing.2 =
      if l = [] ∨ r = [] then [] else reply := by
    simp only [emitMissing, hempty, streamed, hhit, Bool.false_eq_true, if_false]
    cases r with
    | nil => simp
    | cons c cs =>
      cases l with
      | nil => simp
      | cons d ds => simp
  rw [feed, hdeclare]
  simp only [hemit]
  split
  · rename_i hside
    exact ⟨fun _ => hside, fun _ => rfl⟩
  · rename_i hside
    rw [hreply]
    exact ⟨fun h => Bool.noConfusion h, fun h => absurd h hside⟩

/-- One delta, and the final that repeats it without the whitespace around it. -/
def paddedDelta (text : String) : PyDict :=
  [(py "state", .str (py "delta")), (py "deltaText", .str (py text))]

def trimmedFinal (text : String) : PyDict :=
  [(py "state", .str (py "final")), (py "message", .obj [(py "content", .str (py text))])]

/-- A trailing newline that the final lacks is not repeated. -/
theorem trimmed_final_newline :
    (feedAll [paddedDelta "hi\n"]).2 = py "hi\n" ∧
      isBlank ((feedAll [paddedDelta "hi\n"]).1.feed (trimmedFinal "hi")).2 = true := by
  have h := @trimmed_final_silent_iff (py "hi") [] (py "\n") [paddedDelta "hi\n"]
    (trimmedFinal "hi") (by decide) (by decide) (by decide) (by decide) (by decide) (by decide)
    (by decide)
  exact ⟨h.1, h.2.mpr (.inl rfl)⟩

/-- With whitespace at both ends the whole reply is sent again. -/
theorem trimmed_both_ends :
    isBlank (py "hi") = false ∧ isBlank (py " ") = true ∧ isBlank (py "\n") = true ∧
      isAppend (paddedDelta " hi\n") = true ∧
      appended (paddedDelta " hi\n") = py " " ++ py "hi" ++ py "\n" ∧
      isFinal (trimmedFinal "hi") = true ∧
      extractMessageText ((trimmedFinal "hi").get "message") = py "hi" ∧
      ((feedAll [paddedDelta " hi\n"]).1.feed (trimmedFinal "hi")).2 = py "hi" := by
  decide

end ChatTextTracker
