-- SUMMARY: Texts compared up to leading whitespace: stripping, and when a sent stream covers or ends with a text.
import Mathlib.Data.List.Basic
import Mathlib.Data.List.DropRight
import Mathlib.Data.List.Infix
import Mathlib.Data.List.TakeWhile

/-!
# Alignment of a text with a stream

A producer that may only append to a stream, and that is allowed to drop the
whitespace a text starts with, keeps its text *aligned* with the stream: the
stripped text is the end of what was sent. A text that is only *covered*
occurs somewhere in the stream. Everything is over an arbitrary alphabet with
a predicate for its whitespace.
-/

namespace Alignment

variable {α : Type*} {ws : α → Bool} {text sent out : List α}

/-! ## Stripping -/

/-- `str.lstrip()`: the text without its leading whitespace. -/
def lstrip (ws : α → Bool) (text : List α) : List α := text.dropWhile ws

@[simp] theorem lstrip_nil : lstrip ws [] = [] := rfl

theorem lstrip_suffix (text : List α) : lstrip ws text <:+ text :=
  List.dropWhile_suffix ws

/-- A blank head disappears when the text is stripped. -/
theorem lstrip_append_of_blank (h : lstrip ws text = []) :
    lstrip ws (text ++ out) = lstrip ws out := by
  simp only [lstrip] at h ⊢
  rw [List.dropWhile_append, h]
  rfl

/-- A head that is not blank keeps what follows it. -/
theorem lstrip_append_of_not_blank (h : lstrip ws text ≠ []) :
    lstrip ws (text ++ out) = lstrip ws text ++ out := by
  simp only [lstrip] at h ⊢
  rw [List.dropWhile_append, if_neg (by simpa using h)]

theorem lstrip_eq_nil (h : text.all ws = true) : lstrip ws text = [] :=
  List.dropWhile_eq_nil_iff.mpr (List.all_eq_true.mp h)

theorem lstrip_ne_nil (h : text.all ws = false) : lstrip ws text ≠ [] := by
  intro hnil
  have hall : text.all ws = true := List.all_eq_true.mpr (List.dropWhile_eq_nil_iff.mp hnil)
  rw [hall] at h
  cases h

theorem lstrip_lstrip (text : List α) : lstrip ws (lstrip ws text) = lstrip ws text :=
  List.dropWhile_idempotent _ text

/-- Stripping a text removes the blank padding before it. -/
theorem lstrip_padded {pad : List α} (hpad : pad.all ws = true) (htext : text.all ws = false) :
    lstrip ws (pad ++ text ++ out) = lstrip ws text ++ out := by
  rw [List.append_assoc, lstrip_append_of_blank (lstrip_eq_nil hpad)]
  exact lstrip_append_of_not_blank (lstrip_ne_nil htext)

/-- A text that is not blank does not start its own padded copy. -/
theorem not_prefix_padded {pad : List α} (hpad : pad.all ws = true) (hne : pad ≠ [])
    (htext : text.all ws = false) : ¬ text <+: pad ++ text ++ out := by
  rintro ⟨rest, hrest⟩
  have hstrip : lstrip ws (pad ++ text ++ out) = lstrip ws text ++ out := lstrip_padded hpad htext
  rw [← hrest, lstrip_append_of_not_blank (lstrip_ne_nil htext)] at hstrip
  have hsame : rest = out := List.append_cancel_left hstrip
  have hlen := congrArg List.length hrest
  have hpos : 0 < pad.length := List.length_pos_iff.mpr hne
  simp only [hsame, List.length_append] at hlen
  omega

theorem lstrip_mono {longer : List α} (h : text <+: longer) :
    lstrip ws text <+: lstrip ws longer := by
  obtain ⟨rest, rfl⟩ := h
  by_cases hblank : lstrip ws text = []
  · rw [hblank]
    exact List.nil_prefix
  · rw [lstrip_append_of_not_blank hblank]
    exact List.prefix_append _ _

/-! ## Aligned and covered texts -/

/-- The stripped text is the end of what was sent. -/
def Aligned (ws : α → Bool) (text sent : List α) : Prop := lstrip ws text <:+ sent

/-- The stripped text is a contiguous part of what was sent. -/
def Covered (ws : α → Bool) (text sent : List α) : Prop := lstrip ws text <:+: sent

theorem Aligned.covered (h : Aligned ws text sent) : Covered ws text sent := h.isInfix

theorem Aligned.nil (sent : List α) : Aligned ws [] sent := List.nil_suffix

theorem Covered.nil (sent : List α) : Covered ws [] sent := List.nil_infix

/-- Sending a whole text aligns it, whatever was sent before. -/
theorem Aligned.sent_whole (text sent : List α) : Aligned ws text (sent ++ text) :=
  (lstrip_suffix text).trans (List.suffix_append sent text)

/-- Extending the text and the stream by the same piece keeps them aligned. -/
theorem Aligned.append (h : Aligned ws text sent) : Aligned ws (text ++ out) (sent ++ out) := by
  by_cases hblank : lstrip ws text = []
  · rw [Aligned, lstrip_append_of_blank hblank]
    exact (lstrip_suffix out).trans (List.suffix_append sent out)
  · rw [Aligned, lstrip_append_of_not_blank hblank]
    obtain ⟨pre, hpre⟩ := h
    exact ⟨pre, by rw [← hpre, List.append_assoc]⟩

/-- A text that continues an aligned one up to leading whitespace is aligned after its rest
is sent. -/
theorem Aligned.append_stripped {longer : List α} (h : Aligned ws text sent)
    (hlonger : lstrip ws longer = lstrip ws text ++ out) : Aligned ws longer (sent ++ out) := by
  obtain ⟨pre, hpre⟩ := h
  rw [Aligned, hlonger]
  exact ⟨pre, by rw [← hpre, List.append_assoc]⟩

/-- A stream covers every prefix of a text aligned with it. -/
theorem Aligned.covers_initial {shorter : List α} (h : Aligned ws text sent)
    (hshorter : shorter <+: text) : Covered ws shorter sent :=
  (lstrip_mono hshorter).isInfix.trans h.isInfix

/-- A stream is aligned with itself. -/
theorem Aligned.self (sent : List α) : Aligned ws sent sent := lstrip_suffix sent

end Alignment
