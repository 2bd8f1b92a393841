import Mathlib.Data.List.TakeWhile
import RobotRoutine.Text.Blank

/-!
# Trimming takes blanks off the ends and nothing else

`exists_trim` is the whole of trimming in one equation: the text is its trimmed
form between two runs of blanks. What the equation leaves open is which runs,
and the rest of the file says that they are the longest ones: the last character
of a trimmed text is no blank, and more blanks at either end change nothing
(`trim_append_append`).
-/

namespace RobotRoutine.Text

variable {left right text : List Char}

theorem trimLeft_append (h : ∀ c ∈ left, isBlank c = true) (text : List Char) :
    trimLeft (left ++ text) = trimLeft text :=
  List.dropWhile_append_of_pos h

theorem trimRight_append (h : ∀ c ∈ right, isBlank c = true) (text : List Char) :
    trimRight (text ++ right) = trimRight text := by
  rw [trimRight, trimRight, List.reverse_append,
    trimLeft_append fun c hc => h c (List.mem_reverse.mp hc)]

theorem exists_trimLeft (text : List Char) :
    ∃ left, text = left ++ trimLeft text ∧ ∀ c ∈ left, isBlank c = true :=
  ⟨text.takeWhile isBlank, List.takeWhile_append_dropWhile.symm,
    fun _ hc => List.mem_takeWhile_imp hc⟩

theorem exists_trimRight (text : List Char) :
    ∃ right, text = trimRight text ++ right ∧ ∀ c ∈ right, isBlank c = true := by
  obtain ⟨left, htext, hblank⟩ := exists_trimLeft text.reverse
  refine ⟨left.reverse, ?_, fun c hc => hblank c (List.mem_reverse.mp hc)⟩
  rw [trimRight, ← List.reverse_append, ← htext, List.reverse_reverse]

/-- A text is its trimmed form between blanks. -/
theorem exists_trim (text : List Char) :
    ∃ left right, text = left ++ (trim text ++ right) ∧
      (∀ c ∈ left, isBlank c = true) ∧ ∀ c ∈ right, isBlank c = true := by
  obtain ⟨left, htext, hleft⟩ := exists_trimLeft text
  obtain ⟨right, hrest, hright⟩ := exists_trimRight (trimLeft text)
  refine ⟨left, right, ?_, hleft, hright⟩
  rw [trim, ← hrest, ← htext]

theorem isBlank_of_getLast?_trim {c : Char} (h : (trim text).getLast? = some c) :
    isBlank c = false := by
  have hlast := List.head?_dropWhile_not isBlank (trimLeft text).reverse
  rw [trim, trimRight, List.getLast?_reverse, trimLeft] at h
  rw [h] at hlast
  exact hlast

theorem trim_append_append (hleft : ∀ c ∈ left, isBlank c = true)
    (hright : ∀ c ∈ right, isBlank c = true) (text : List Char) :
    trim (left ++ (text ++ right)) = trim text := by
  rw [trim, trim, trimLeft_append hleft, trimLeft, trimLeft, List.dropWhile_append]
  split
  · next hall =>
      have hright : right.dropWhile isBlank = [] := by
        rw [List.dropWhile_eq_nil_iff]
        exact hright
      rw [hright, List.isEmpty_iff.mp hall]
  · exact trimRight_append hright _

theorem trim_append (h : ∀ c ∈ right, isBlank c = true) (text : List Char) :
    trim (text ++ right) = trim text :=
  trim_append_append (fun _ hc => absurd hc List.not_mem_nil) h text

theorem trim_prepend (h : ∀ c ∈ left, isBlank c = true) (text : List Char) :
    trim (left ++ text) = trim text := by
  have hnone := trim_append_append h (fun _ hc => absurd hc List.not_mem_nil) text
  rwa [List.append_nil] at hnone

theorem trim_trimLeft (text : List Char) : trim (trimLeft text) = trim text := by
  obtain ⟨left, htext, hleft⟩ := exists_trimLeft text
  have hinside := trim_prepend hleft (trimLeft text)
  rw [← htext] at hinside
  exact hinside.symm

theorem trim_trimRight (text : List Char) : trim (trimRight text) = trim text := by
  obtain ⟨right, htext, hright⟩ := exists_trimRight text
  have hinside := trim_append hright (trimRight text)
  rw [← htext] at hinside
  exact hinside.symm

theorem trim_trim (text : List Char) : trim (trim text) = trim text :=
  (trim_trimRight (trimLeft text)).trans (trim_trimLeft text)

theorem mem_of_mem_trim {c : Char} (h : c ∈ trim text) : c ∈ text := by
  obtain ⟨left, right, htext, -⟩ := exists_trim text
  rw [htext]
  exact List.mem_append_right left (List.mem_append_left right h)

/-- Blanks are taken off on the left up to the first character that is none. -/
theorem trimLeft_append_cons {c : Char} (h : isBlank c = false) (left right : List Char) :
    trimLeft (left ++ c :: right) = trimLeft left ++ c :: right := by
  rw [trimLeft, trimLeft, List.dropWhile_append]
  split
  · next hall =>
      rw [List.isEmpty_iff.mp hall]
      exact List.dropWhile_cons_of_neg (by rw [h]; decide)
  · rfl

theorem trimRight_append_cons {c : Char} (h : isBlank c = false) (left right : List Char) :
    trimRight (left ++ c :: right) = left ++ c :: trimRight right := by
  rw [trimRight, List.reverse_append, List.reverse_cons, List.append_assoc, List.singleton_append,
    trimLeft_append_cons h, trimRight]
  simp

/-- On either side of a character that is no blank the text is trimmed for itself. -/
theorem trim_append_cons {c : Char} (h : isBlank c = false) (left right : List Char) :
    trim (left ++ c :: right) = trimLeft left ++ c :: trimRight right := by
  rw [trim, trimLeft_append_cons h, trimRight_append_cons h]

theorem trimLeft_eq_self (h : ∀ c ∈ text, isBlank c = false) : trimLeft text = text := by
  cases text with
  | nil => rfl
  | cons c rest => exact List.dropWhile_cons_of_neg (by rw [h c List.mem_cons_self]; decide)

/-- A text that has no blanks at all is left as it is. -/
theorem trim_eq_self (h : ∀ c ∈ text, isBlank c = false) : trim text = text := by
  rw [trim, trimLeft_eq_self h, trimRight,
    trimLeft_eq_self fun c hc => h c (List.mem_reverse.mp hc), List.reverse_reverse]

end RobotRoutine.Text
