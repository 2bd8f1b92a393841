import Mathlib.Data.List.TakeWhile
import RobotRoutine.Proofs.Script.Reading

/-!
# Cutting a line by byte positions

`Line.read` takes a line apart at its first `=`, its first `(` and its last `)`,
and never names a position. A reader that works on bytes finds the positions of
these marks and takes slices between them, and a slice may be out of range: it
may end before it begins, run past the end, or begin or end in the middle of a
character. `readSliced` is that reader, with no answer at all where a slice is
out of range.

`readSliced_eq` says that this never happens and that the two readers agree, and
`readLinesSliced_eq` says the same of a whole script. All
positions are those of marks, every mark is a single byte, and what stands
between the ends of pieces of the line is in range (`slice?_eq_some`). That the
body does not end before it begins is what the two positions are compared for.
-/

namespace RobotRoutine.Script

open RobotRoutine.Text

/-! ## Cuts -/

theorem cutFirst_append {sep : Char} {before : List Char} (h : sep ∉ before) (after : List Char) :
    cutFirst sep (before ++ sep :: after) = some (before, after) := by
  have hbefore : ∀ c ∈ before, (c != sep) = true := by
    intro c hc
    rw [bne_iff_ne]
    rintro rfl
    exact h hc
  rw [cutFirst, List.dropWhile_append_of_pos hbefore, List.takeWhile_append_of_pos hbefore]
  simp

theorem cutFirst_of_not_mem {sep : Char} {text : List Char} (h : sep ∉ text) :
    cutFirst sep text = none := by
  have hdrop : text.dropWhile (· != sep) = [] := by
    rw [List.dropWhile_eq_nil_iff]
    intro c hc
    rw [bne_iff_ne]
    rintro rfl
    exact h hc
  rw [cutFirst, hdrop]

theorem cutLast_append {sep : Char} {after : List Char} (h : sep ∉ after) (before : List Char) :
    cutLast sep (before ++ sep :: after) = some (before, after) := by
  have hcut := cutFirst_append (fun hmem => h (List.mem_reverse.mp hmem)) before.reverse
  rw [cutLast, List.reverse_append, List.reverse_cons, List.append_assoc, List.singleton_append,
    hcut]
  simp

theorem cutLast_of_not_mem {sep : Char} {text : List Char} (h : sep ∉ text) :
    cutLast sep text = none := by
  rw [cutLast, cutFirst_of_not_mem fun hmem => h (List.mem_reverse.mp hmem)]
  rfl

theorem exists_last_of_mem {sep : Char} {text : List Char} (h : sep ∈ text) :
    ∃ before after, text = before ++ sep :: after ∧ sep ∉ after := by
  obtain ⟨after, before, htext, hafter⟩ := List.eq_append_cons_of_mem (List.mem_reverse.mpr h)
  refine ⟨before.reverse, after.reverse, ?_, fun hmem => hafter (List.mem_reverse.mp hmem)⟩
  rw [← List.reverse_reverse text, htext]
  simp

/-- How a line is read that has a `(` and, behind it, a `)`. -/
theorem readInvocation_append {head body trailing : List Char} (hhead : '(' ∉ head)
    (htrailing : ')' ∉ trailing) :
    Line.readInvocation (head ++ '(' :: (body ++ ')' :: trailing)) =
      if isAllBlank trailing && isIdentifier (Line.readHead head).2 then
        some ⟨(Line.readHead head).1, (Line.readHead head).2, stripBody body, .invocation⟩
      else
        none := by
  rw [Line.readInvocation, cutFirst_append hhead]
  simp only [Option.bind_eq_bind, Option.bind_some, cutLast_append htrailing]

theorem readInvocation_of_not_mem {head after : List Char} (hhead : '(' ∉ head)
    (hafter : ')' ∉ after) : Line.readInvocation (head ++ '(' :: after) = none := by
  rw [Line.readInvocation, cutFirst_append hhead]
  simp only [Option.bind_eq_bind, Option.bind_some, cutLast_of_not_mem hafter, Option.bind_none]

/-! ## Positions and slices -/

/-- How many bytes a text takes. -/
def byteLength : List Char → Nat
  | [] => 0
  | c :: rest => c.utf8Size + byteLength rest

/-- The byte at which the first `c` begins. -/
def find? (c : Char) : List Char → Option Nat
  | [] => none
  | d :: rest => if d = c then some 0 else (find? c rest).map (d.utf8Size + ·)

/-- The byte at which the last `c` begins. -/
def findLast? (c : Char) : List Char → Option Nat
  | [] => none
  | d :: rest =>
    match findLast? c rest with
    | some position => some (d.utf8Size + position)
    | none => if d = c then some 0 else none

/-- What is left behind the first bytes, if these are whole characters. -/
def dropBytes? : Nat → List Char → Option (List Char)
  | 0, text => some text
  | _ + 1, [] => none
  | count + 1, c :: rest =>
    if c.utf8Size ≤ count + 1 then dropBytes? (count + 1 - c.utf8Size) rest else none

/-- The first bytes, if these are whole characters. -/
def takeBytes? : Nat → List Char → Option (List Char)
  | 0, _ => some []
  | _ + 1, [] => none
  | count + 1, c :: rest =>
    if c.utf8Size ≤ count + 1 then (takeBytes? (count + 1 - c.utf8Size) rest).map (c :: ·) else none

/-- The text from one byte up to another, if it is in range. -/
def slice? (start stop : Nat) (text : List Char) : Option (List Char) :=
  if start ≤ stop then (dropBytes? start text).bind (takeBytes? (stop - start)) else none

@[simp]
theorem byteLength_cons (c : Char) (text : List Char) :
    byteLength (c :: text) = c.utf8Size + byteLength text :=
  rfl

@[simp]
theorem byteLength_append (first second : List Char) :
    byteLength (first ++ second) = byteLength first + byteLength second := by
  induction first with
  | nil => rw [List.nil_append, byteLength, Nat.zero_add]
  | cons c rest ih => rw [List.cons_append, byteLength_cons, byteLength_cons, ih, Nat.add_assoc]

theorem find?_append {c : Char} {before : List Char} (h : c ∉ before) (after : List Char) :
    find? c (before ++ c :: after) = some (byteLength before) := by
  induction before with
  | nil => rw [List.nil_append, find?, if_pos rfl]; rfl
  | cons d rest ih =>
      rw [List.mem_cons, not_or] at h
      rw [List.cons_append, find?, if_neg (Ne.symm h.1), ih h.2, byteLength_cons]
      rfl

theorem find?_of_not_mem {c : Char} {text : List Char} (h : c ∉ text) : find? c text = none := by
  induction text with
  | nil => rfl
  | cons d rest ih =>
      rw [List.mem_cons, not_or] at h
      rw [find?, if_neg (Ne.symm h.1), ih h.2]
      rfl

theorem findLast?_of_not_mem {c : Char} {text : List Char} (h : c ∉ text) :
    findLast? c text = none := by
  induction text with
  | nil => rfl
  | cons d rest ih =>
      rw [List.mem_cons, not_or] at h
      rw [findLast?, ih h.2]
      exact if_neg (Ne.symm h.1)

theorem findLast?_append {c : Char} {after : List Char} (h : c ∉ after) (before : List Char) :
    findLast? c (before ++ c :: after) = some (byteLength before) := by
  induction before with
  | nil =>
      rw [List.nil_append, findLast?, findLast?_of_not_mem h]
      exact if_pos rfl
  | cons d rest ih => rw [List.cons_append, findLast?, ih, byteLength_cons]

theorem dropBytes?_append (before after : List Char) :
    dropBytes? (byteLength before) (before ++ after) = some after := by
  induction before with
  | nil => rw [List.nil_append]; exact dropBytes?.eq_1 after
  | cons c rest ih =>
      obtain ⟨count, hcount⟩ : ∃ count, byteLength (c :: rest) = count + 1 :=
        Nat.exists_eq_succ_of_ne_zero (by have := c.utf8Size_pos; rw [byteLength_cons]; omega)
      rw [hcount, List.cons_append, dropBytes?, ← hcount, byteLength_cons,
        if_pos (Nat.le_add_right ..), Nat.add_sub_cancel_left, ih]

theorem takeBytes?_append (inside after : List Char) :
    takeBytes? (byteLength inside) (inside ++ after) = some inside := by
  induction inside with
  | nil => exact takeBytes?.eq_1 _
  | cons c rest ih =>
      obtain ⟨count, hcount⟩ : ∃ count, byteLength (c :: rest) = count + 1 :=
        Nat.exists_eq_succ_of_ne_zero (by have := c.utf8Size_pos; rw [byteLength_cons]; omega)
      rw [hcount, List.cons_append, takeBytes?, ← hcount, byteLength_cons,
        if_pos (Nat.le_add_right ..), Nat.add_sub_cancel_left, ih]
      rfl

/-- What stands between the ends of two pieces of a text is in range. -/
theorem slice?_eq_some {start stop : Nat} {text before inside after : List Char}
    (htext : text = before ++ (inside ++ after)) (hstart : start = byteLength before)
    (hstop : stop = byteLength before + byteLength inside) :
    slice? start stop text = some inside := by
  subst htext hstart hstop
  rw [slice?, if_pos (Nat.le_add_right ..), dropBytes?_append, Option.bind_some,
    Nat.add_sub_cancel_left, takeBytes?_append]

/-! ## The reader by positions -/

/-- Whether there is a `=`, and no `(` at an earlier position. -/
def assignsAt : Option Nat → Option Nat → Bool
  | some equals, some opening => equals < opening
  | some _, none => true
  | none, _ => false

/-- Reads a trimmed line by slices, in the order in which they are taken. There is no answer if one
is out of range. -/
def readSliced (text : List Char) : Option (Option Line) :=
  if assignsAt (find? '=' text) (find? '(' text) then
    some (Line.readAssignment text)
  else
    match find? '(' text, findLast? ')' text with
    | some opening, some closing =>
      if closing < opening then
        some none
      else do
        let trailing ← slice? (closing + 1) (byteLength text) text
        if isAllBlank trailing then
          let head ← slice? 0 opening text
          let (mark, name) := Line.readHead head
          if isIdentifier name then
            let body ← slice? (opening + 1) closing text
            some (some { mark, name, value := stripBody body, kind := .invocation })
          else
            some none
        else
          some none
    | _, _ => some none

/-- Reads lines by slices as `readLines` reads them. -/
def readLinesSliced (number : Nat) : List (List Char) → Option (Except MalformedLine (List Entry))
  | [] => some (.ok [])
  | raw :: rest =>
    let text := trim raw
    if text.isEmpty then
      readLinesSliced (number + 1) rest
    else
      match readSliced text with
      | none => none
      | some none => some (.error ⟨number, String.ofList text⟩)
      | some (some line) =>
        (readLinesSliced (number + 1) rest).map (·.map (line.toEntry number :: ·))

theorem assignsAt_eq (text : List Char) :
    assignsAt (find? '=' text) (find? '(' text) = isAssignment text := by
  by_cases hequals : '=' ∈ text
  · obtain ⟨before, after, rfl, hbefore⟩ := List.eq_append_cons_of_mem hequals
    rw [find?_append hbefore, isAssignment, cutFirst_append hbefore]
    by_cases hopen : '(' ∈ before
    · obtain ⟨first, second, rfl, hfirst⟩ := List.eq_append_cons_of_mem hopen
      rw [List.append_assoc, List.cons_append, find?_append hfirst]
      simp [assignsAt]
    · by_cases hafter : '(' ∈ after
      · obtain ⟨first, second, rfl, hfirst⟩ := List.eq_append_cons_of_mem hafter
        have hnone : '(' ∉ before ++ '=' :: first := by simp [hopen, hfirst]
        rw [← List.cons_append, ← List.append_assoc, find?_append hnone]
        have hsize := Char.utf8Size_pos '='
        simp [assignsAt, hopen]
        omega
      · have hnone : '(' ∉ before ++ '=' :: after := by simp [hopen, hafter]
        rw [find?_of_not_mem hnone]
        simp [assignsAt, hopen]
  · rw [find?_of_not_mem hequals, isAssignment, cutFirst_of_not_mem hequals]
    rfl

/-- Every slice is in range, and reading by slices is reading. -/
theorem readSliced_eq (text : List Char) : readSliced text = some (Line.read text) := by
  rw [readSliced, Line.read, assignsAt_eq]
  split
  · rfl
  · by_cases hopen : '(' ∈ text
    case neg =>
      rw [find?_of_not_mem hopen, Line.readInvocation, cutFirst_of_not_mem hopen]
      rfl
    obtain ⟨head, after, rfl, hhead⟩ := List.eq_append_cons_of_mem hopen
    have hone : '('.utf8Size = 1 ∧ ')'.utf8Size = 1 := by decide
    rw [find?_append hhead]
    by_cases hclose : ')' ∈ after
    · obtain ⟨body, trailing, rfl, htrailing⟩ := exists_last_of_mem hclose
      rw [readInvocation_append hhead htrailing]
      -- The line is `head ( body ) trailing`, and each slice is one of these pieces.
      generalize htext : head ++ '(' :: (body ++ ')' :: trailing) = text
      have hlast : findLast? ')' text = some (byteLength head + (1 + byteLength body)) := by
        rw [← htext, ← List.cons_append, ← List.append_assoc, findLast?_append htrailing,
          byteLength_append, byteLength_cons, hone.1]
      have htrail : slice? (byteLength head + (1 + byteLength body) + 1) (byteLength text) text =
          some trailing := by
        refine @slice?_eq_some _ _ _ (head ++ '(' :: (body ++ [')'])) trailing [] ?_ ?_ ?_
        · simp [← htext]
        · simp [hone, byteLength]
          omega
        · simp [← htext, byteLength]
          omega
      have hheadSlice : slice? 0 (byteLength head) text = some head :=
        @slice?_eq_some _ _ _ [] head _ htext.symm rfl (Nat.zero_add _).symm
      have hbody : slice? (byteLength head + 1) (byteLength head + (1 + byteLength body)) text =
          some body := by
        refine @slice?_eq_some _ _ _ (head ++ ['(']) body (')' :: trailing) ?_ ?_ ?_
        · simp [← htext]
        · simp [hone, byteLength]
        · simp [hone, byteLength]
          omega
      have horder : ¬ byteLength head + (1 + byteLength body) < byteLength head := by omega
      simp only [hlast, if_neg horder, htrail, hheadSlice, hbody, Option.bind_eq_bind,
        Option.bind_some]
      cases isAllBlank trailing <;> cases isIdentifier (Line.readHead head).2 <;> rfl
    · -- Without a `)` behind the `(` there is none at all, or only an earlier one.
      rw [readInvocation_of_not_mem hhead hclose]
      by_cases hearly : ')' ∈ head
      · obtain ⟨first, second, rfl, hsecond⟩ := exists_last_of_mem hearly
        have hnone : ')' ∉ second ++ '(' :: after := by simp [hsecond, hclose]
        rw [List.append_assoc, List.cons_append, findLast?_append hnone]
        have horder : byteLength first < byteLength (first ++ ')' :: second) := by
          rw [byteLength_append, byteLength_cons]
          omega
        simp only [if_pos horder]
      · have hnone : ')' ∉ head ++ '(' :: after := by simp [hearly, hclose]
        rw [findLast?_of_not_mem hnone]

theorem readLinesSliced_eq (number : Nat) (raws : List (List Char)) :
    readLinesSliced number raws = some (readLines number raws) := by
  induction raws generalizing number with
  | nil => rfl
  | cons raw rest ih =>
      rw [readLinesSliced, readLines, readSliced_eq, ih]
      split
      · rfl
      · cases Line.read (trim raw) with
        | none => rfl
        | some line => rfl

end RobotRoutine.Script
