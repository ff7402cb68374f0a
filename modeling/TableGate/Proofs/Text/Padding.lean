import Mathlib.Data.List.TakeWhile
import TableGate.Text.Cut

/-!
# Blanks around a text

A text that stands between blanks (`Padded`) is trimmed like the text alone (`trim_of_padded`), and
every text is what trimming leaves of it, between blanks (`padded_trim`).
-/

namespace TableGate.Text

variable {text padded before after : List Char}

/-- A text with blanks before and after it. -/
inductive Padded (text : List Char) : List Char → Prop
  | around {before after : List Char} (front : isBlankText before = true)
      (back : isBlankText after = true) : Padded text (before ++ text ++ after)

/-- A text is blank where both of its parts are. -/
theorem isBlankText_append :
    isBlankText (before ++ after) = (isBlankText before && isBlankText after) :=
  List.all_append

/-- A text stands between no blanks. -/
theorem padded_self (text : List Char) : Padded text text := by
  have alone := @Padded.around text [] [] rfl rfl
  rwa [List.nil_append, List.append_nil] at alone

/-- More blanks before a text make no difference. -/
theorem Padded.prepend (around : Padded text padded) (front : isBlankText before = true) :
    Padded text (before ++ padded) := by
  cases around with
  | @around first last begins ends =>
      rw [← List.append_assoc, ← List.append_assoc]
      refine .around ?_ ends
      rw [isBlankText_append, front, begins]
      rfl

/-- More blanks after a text make no difference. -/
theorem Padded.append (around : Padded text padded) (back : isBlankText after = true) :
    Padded text (padded ++ after) := by
  cases around with
  | @around first last begins ends =>
      rw [List.append_assoc]
      refine .around begins ?_
      rw [isBlankText_append, ends, back]
      rfl

/-- A blank text has blanks only. -/
theorem not_mem_of_isBlankText {c : Char} (solid : isBlank c = false)
    (blank : isBlankText text = true) : c ∉ text := by
  intro member
  rw [List.all_eq_true.mp blank c member] at solid
  exact absurd solid nofun

/-- Only blanks are around a text. -/
theorem mem_of_padded {c : Char} (solid : isBlank c = false) (around : Padded text padded)
    (member : c ∈ padded) : c ∈ text := by
  cases around with
  | @around before after front back =>
      rw [List.mem_append, List.mem_append] at member
      rcases member with (early | among) | late
      · exact absurd early (not_mem_of_isBlankText solid front)
      · exact among
      · exact absurd late (not_mem_of_isBlankText solid back)

/-! ### Trimming -/

/-- Blanks before a text are trimmed from its start. -/
theorem trimStart_append_of_blank (front : isBlankText before = true) (text : List Char) :
    trimStart (before ++ text) = trimStart text :=
  List.dropWhile_append_of_pos fun _ member => List.all_eq_true.mp front _ member

/-- Blanks after a text are trimmed from its end. -/
theorem trimEnd_append_of_blank (back : isBlankText after = true) (text : List Char) :
    trimEnd (text ++ after) = trimEnd text := by
  have reversed : isBlankText after.reverse = true := by
    rw [isBlankText, List.all_reverse]
    exact back
  rw [trimEnd, List.reverse_append]
  exact congrArg List.reverse (trimStart_append_of_blank reversed text.reverse)

/-- Nothing is left exactly of a blank text when its start is trimmed. -/
theorem trimStart_eq_nil_iff : trimStart text = [] ↔ isBlankText text = true :=
  List.dropWhile_eq_nil_iff.trans List.all_eq_true.symm

/-- A text that is not blank is trimmed at its beginning whatever comes after it. -/
theorem trimStart_append (visible : isBlankText text = false) (after : List Char) :
    trimStart (text ++ after) = trimStart text ++ after := by
  have begun : (trimStart text).isEmpty = false := by
    rw [List.isEmpty_eq_false_iff, ne_eq, trimStart_eq_nil_iff, visible]
    exact Bool.false_ne_true
  rw [trimStart, List.dropWhile_append]
  exact if_neg (ne_true_of_eq_false begun)

/-- Blanks at either end make no difference to what trimming leaves. -/
theorem trim_of_padded (around : Padded text padded) : trim padded = trim text := by
  cases around with
  | @around before after front back =>
      rw [List.append_assoc, trim, trimStart_append_of_blank front]
      cases blank : isBlankText text with
      | true =>
          have whole : isBlankText (text ++ after) = true := by
            rw [isBlankText_append, blank, back]
            rfl
          exact (trim_of_isBlankText whole).trans (trim_of_isBlankText blank).symm
      | false =>
          rw [trimStart_append blank, trimEnd_append_of_blank back]
          rfl

/-- A text is what trimming leaves of it, between blanks. -/
theorem padded_trim (text : List Char) : Padded (trim text) text := by
  have blank (part : List Char) : isBlankText (part.takeWhile isBlank) = true := List.all_takeWhile
  have front : text.takeWhile isBlank ++ trimStart text = text := List.takeWhile_append_dropWhile
  have back : trim text ++ ((trimStart text).reverse.takeWhile isBlank).reverse =
      trimStart text := by
    rw [trim, trimEnd, ← List.reverse_append, List.takeWhile_append_dropWhile, List.reverse_reverse]
  have ends : isBlankText ((trimStart text).reverse.takeWhile isBlank).reverse = true := by
    rw [isBlankText, List.all_reverse]
    exact blank _
  have around := @Padded.around (trim text) _ _ (blank text) ends
  rwa [List.append_assoc, back, front] at around

/-- A text of which nothing is left is blank. -/
theorem isBlankText_of_trim (left : trim text = []) : isBlankText text = true := by
  have around := padded_trim text
  rw [left] at around
  cases around with
  | around front back => rw [List.append_nil, isBlankText_append, front, back]; rfl

/-- Nothing is left of blanks, and of nothing else. -/
theorem trim_eq_nil_iff : trim text = [] ↔ isBlankText text = true :=
  ⟨isBlankText_of_trim, trim_of_isBlankText⟩

/-- A text is what is left of it between blanks. -/
theorem padded_of_trim (trimmed : trim padded = text) : Padded text padded :=
  trimmed ▸ padded_trim padded

/-- A text without blanks at its ends is what trimming leaves of itself between blanks. -/
theorem padded_iff (stable : trim text = text) : Padded text padded ↔ trim padded = text :=
  ⟨fun around => (trim_of_padded around).trans stable, padded_of_trim⟩

/-- A text without any blank is trimmed to itself. -/
theorem trim_of_no_blank (plain : ∀ c ∈ text, isBlank c = false) : trim text = text := by
  have started {part : List Char} (plain : ∀ c ∈ part, isBlank c = false) :
      part.dropWhile isBlank = part := by
    cases part with
    | nil => rfl
    | cons c rest => exact List.dropWhile_cons_of_neg (by simp [plain c List.mem_cons_self])
  rw [trim, trimStart, started plain, trimEnd,
    started fun c member => plain c (List.mem_reverse.mp member), List.reverse_reverse]

/-- What is before a character that is no blank is trimmed at its beginning alone. -/
theorem trimStart_append_cons {c : Char} (solid : isBlank c = false) (before after : List Char) :
    trimStart (before ++ c :: after) = trimStart before ++ c :: after := by
  cases blank : isBlankText before with
  | true =>
      rw [trimStart_append_of_blank blank, trimStart_eq_nil_iff.mpr blank]
      exact List.dropWhile_cons_of_neg (by simp [solid])
  | false => exact trimStart_append blank _

/-- A text that ends with no blank keeps its end. -/
theorem trimEnd_concat {c : Char} (solid : isBlank c = false) (text : List Char) :
    trimEnd (text ++ [c]) = text ++ [c] := by
  rw [trimEnd, List.reverse_concat, List.dropWhile_cons_of_neg (by simp [solid]),
    List.reverse_cons, List.reverse_reverse]

/-- Blanks at the start can be trimmed first. -/
theorem trim_trimStart (text : List Char) : trim (trimStart text) = trim text := by
  have front : isBlankText (text.takeWhile isBlank) = true := List.all_takeWhile
  have around := (padded_self (trimStart text)).prepend front
  rw [trimStart, List.takeWhile_append_dropWhile] at around
  exact (trim_of_padded around).symm

/-- A text stays between blanks when those before it are trimmed. -/
theorem Padded.trimStart (around : Padded text padded) (stable : trim text = text) :
    Padded text (trimStart padded) := by
  rw [padded_iff stable, trim_trimStart]
  exact (padded_iff stable).mp around

end TableGate.Text
