import Mathlib.Tactic.SplitIfs
import RobotRoutine.Files.Tree

/-!
# Files written and read

What is written to a path is what is read from it, whichever names lead there: a path that can be
written leads to one place before the file is there and after.
-/

namespace RobotRoutine.FileTree

/-- A new file is in nobody's way: where names lead to a place without it, they do with it. -/
theorem follow_putFile {tree : FileTree} {start place : List String} {names : List String}
    (h : tree.follow start names = .ok place) (target : List String) (content : ByteArray) :
    (tree.putFile target content).follow start names = .ok place := by
  induction names generalizing start with
  | nil => exact h
  | cons name rest ih =>
    have hdirectory : (tree.putFile target content).hasDirectory start = tree.hasDirectory start :=
      rfl
    rw [follow] at h ⊢
    rw [hdirectory]
    split_ifs at h ⊢
    · exact ih h
    · exact ih h
    · exact ih h

theorem lookup_putFile (tree : FileTree) (place : List String) (content : ByteArray) :
    (tree.putFile place content).file? place = some content := by
  rw [file?, putFile, List.lookup_cons_self]

/-- A path that was written to has no empty name at its end, and leads to one place, which is no
directory. -/
theorem exists_of_write {tree tree' : FileTree} {path : String} {content : ByteArray}
    (h : tree.write path content = .ok tree') :
    ∃ names place, pathNames path = .ok names ∧ tree.follow (tree.origin path) names = .ok place ∧
      tree.hasDirectory place = false ∧ tree' = tree.putFile place content := by
  unfold write at h
  cases hnames : pathNames path with
  | error failure => simp [hnames, bind, Except.bind] at h
  | ok names =>
    simp only [hnames, bind, Except.bind, pure, Except.pure] at h
    split at h
    · cases h
    · rename_i place hplace
      split at h
      · cases h
      · rename_i hfree
        obtain ⟨hdirectory, hlong⟩ := not_or.mp hfree
        have hstem : names.reverse.dropWhile (· = "") = names.reverse :=
          (List.dropWhile_suffix _).eq_of_length_le (by simpa using hlong)
        rw [hstem, List.reverse_reverse] at hplace
        cases h
        exact ⟨names, place, rfl, hplace, by simpa using hdirectory, rfl⟩

/-- What was written to a path is read from it. -/
theorem read_of_write {tree tree' : FileTree} {path : String} {content : ByteArray}
    (h : tree.write path content = .ok tree') : tree'.read path = .ok content := by
  obtain ⟨names, place, hnames, hplace, hdirectory, rfl⟩ := exists_of_write h
  have horigin : (tree.putFile place content).origin path = tree.origin path := rfl
  have hfree : (tree.putFile place content).hasDirectory place = false := hdirectory
  simp [read, hnames, horigin, follow_putFile hplace, hfree, lookup_putFile, bind, Except.bind, pure,
    Except.pure]

theorem run_write_access (tree : FileTree) (path text : String) :
    (access.write path text).run tree =
      match tree.write path text.toUTF8 with
      | .ok tree' => (.ok (), tree')
      | .error failure => (.error failure, tree) := by
  simp only [access, StateT.run_bind, StateT.run_get, pure_bind]
  cases tree.write path text.toUTF8 <;> rfl

theorem readText_of_read {tree : FileTree} {path text : String}
    (h : tree.read path = .ok text.toUTF8) : (access.readText path).run tree = (.ok text, tree) := by
  have hread : (access.read path).run tree = (.ok text.toUTF8, tree) := congrArg (·, tree) h
  have hvalid : text.toUTF8.IsValidUTF8 := text.isValidUTF8
  have hdecode : FileAccess.decode text.toUTF8 = .ok text := by
    rw [FileAccess.decode, String.fromUTF8?, dif_pos hvalid]
    rfl
  rw [FileAccess.readText, StateT.run_bind, hread]
  exact congrArg (·, tree) hdecode

end RobotRoutine.FileTree
