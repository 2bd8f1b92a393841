import RobotRoutine.Files.Tree
import RobotRoutine.Proofs.RobotConfig.Acceptance

/-!
# Scripts stay in their directory

The name of a script is that of a routine with more behind it, and it is joined to a directory that
may be any text. A valid routine has no `/` in its name, so the name of the script is a single one
that is not absolute, and joining puts it behind the directory (`joinChars_of_not_mem`); what is put
behind the routine makes it neither `.` nor `..`, whatever the routine is called.

What a path is good for is where it leads. Names are followed one after another, so the path of a
script leads where that of the directory leads and then to the name in it (`follow_file`): what is
read from it is read from the directory, in every tree of files.
-/

namespace RobotRoutine

namespace Path

variable {directory name : String}

/-- Whether a path is a directory, at most one `/` that is added to it, and the name of a file. -/
structure IsFileIn (directory path name : String) : Prop where
  spelled : path = directory ++ name ∨ path = directory ++ "/" ++ name
  absolute : isAbsolute path.toList = isAbsolute directory.toList
  single : '/' ∉ name.toList
  ne_dot : name ≠ "."
  ne_dots : name ≠ ".."
  ending : ∃ stem, name = stem ++ ".txt"

theorem isAbsolute_of_not_mem {path : List Char} (h : '/' ∉ path) : isAbsolute path = false := by
  rw [isAbsolute, decide_eq_false_iff_not]
  intro hhead
  exact h (List.mem_of_mem_head? hhead)

/-- A name without a `/` is put behind a directory. -/
theorem joinChars_of_not_mem {directory name : List Char} (h : '/' ∉ name) :
    joinChars directory name =
      if directory.isEmpty ∨ directory.getLast? = some '/' then directory ++ name
      else directory ++ '/' :: name := by
  rw [joinChars, isAbsolute_of_not_mem h]
  simp

theorem isAbsolute_append {directory : List Char} (h : directory ≠ []) (rest : List Char) :
    isAbsolute (directory ++ rest) = isAbsolute directory := by
  cases directory with
  | nil => exact absurd rfl h
  | cons c directory => rfl

theorem isAbsolute_joinChars {directory name : List Char} (h : '/' ∉ name) :
    isAbsolute (joinChars directory name) = isAbsolute directory := by
  rw [joinChars_of_not_mem h]
  by_cases hempty : directory = []
  · rw [hempty, if_pos (.inl rfl), List.nil_append, isAbsolute_of_not_mem h]
    rfl
  · split
    · exact isAbsolute_append hempty name
    · exact isAbsolute_append hempty _

theorem length_joinChars {directory name : List Char} (h : '/' ∉ name) :
    (joinChars directory name).length = (joinChars directory []).length + name.length := by
  rw [joinChars_of_not_mem h, joinChars_of_not_mem (by simp)]
  split
  · simp
  · simp; omega

theorem isFileIn_join (directory : String) {stem : String} (h : '/' ∉ stem.toList) :
    IsFileIn directory (join directory (stem ++ ".txt")) (stem ++ ".txt") := by
  have hname : '/' ∉ (stem ++ ".txt").toList := by simp [h]
  have hlength : 4 ≤ (stem ++ ".txt").toList.length := by simp
  refine ⟨?_, ?_, hname, ?_, ?_, stem, rfl⟩
  · rw [join, joinChars_of_not_mem hname]
    split
    · exact .inl (by simp)
    · exact .inr (String.toList_inj.mp (by simp))
  · rw [join, String.toList_ofList]
    exact isAbsolute_joinChars hname
  · intro hdot
    rw [hdot] at hlength
    exact absurd hlength (by decide)
  · intro hdots
    rw [hdots] at hlength
    exact absurd hlength (by decide)

theorem length_of_join_eq {name' : String} (h : '/' ∉ name.toList) (h' : '/' ∉ name'.toList)
    (heq : join directory name = join directory name') :
    name.toList.length = name'.toList.length := by
  have hchars := congrArg (fun path => path.toList.length) heq
  simp only [join, String.toList_ofList] at hchars
  rw [length_joinChars h, length_joinChars h'] at hchars
  omega

/-- The names in the path of a file are those in the path of its directory, where an empty one at
the end does not count, and its own. -/
theorem exists_names_join (directory : String) {name : String} (h : '/' ∉ name.toList) :
    ∃ leading, names (join directory name) = leading ++ [name] ∧
      (names directory = leading ∨ names directory = leading ++ [""]) := by
  have hname : [name.toList].map String.ofList = [name] := by simp
  rw [names, names, join, String.toList_ofList, joinChars_of_not_mem h]
  split
  · next hends =>
      rcases hends with hempty | hslash
      · refine ⟨[], ?_, .inr ?_⟩
        · rw [List.isEmpty_iff.mp hempty, List.nil_append, List.splitOn_eq_singleton h, hname,
            List.nil_append]
        · rw [List.isEmpty_iff.mp hempty]
          rfl
      · obtain ⟨stem, hstem⟩ := List.getLast?_eq_some_iff.mp hslash
        refine ⟨(stem.splitOn '/').map String.ofList, ?_, .inr ?_⟩
        · rw [hstem, List.append_assoc, List.singleton_append, List.splitOn_append_cons_self,
            List.map_append, List.splitOn_eq_singleton h, hname]
        · rw [hstem, List.splitOn_append_cons_self, List.map_append]
          rfl
  · refine ⟨(directory.toList.splitOn '/').map String.ofList, ?_, .inl rfl⟩
    rw [List.splitOn_append_cons_self, List.map_append, List.splitOn_eq_singleton h, hname]

theorem IsFileIn.ne_empty {path : String} (h : IsFileIn directory path name) : name ≠ "" := by
  obtain ⟨stem, hstem⟩ := h.ending
  intro hempty
  have hlength := congrArg String.length (hstem.symm.trans hempty)
  simp at hlength

end Path

namespace FileTree

variable {tree : FileTree}

theorem follow_append (start : List String) (names rest : List String) :
    tree.follow start (names ++ rest) =
      (tree.follow start names).bind fun place => tree.follow place rest := by
  induction names generalizing start with
  | nil => rfl
  | cons name names ih =>
      rw [List.cons_append, follow, follow]
      split_ifs
      · exact ih start
      · exact ih _
      · rfl
      · exact ih _
      · rfl
      · rfl

/-- Names that end in that of a file lead to a place in the directory that the others lead to. -/
theorem follow_file {start place leading : List String} {name : String} (hempty : name ≠ "")
    (hdot : name ≠ ".") (hdots : name ≠ "..")
    (h : tree.follow start (leading ++ [name]) = .ok place) :
    ∃ above, tree.follow start leading = .ok above ∧ tree.hasDirectory above = true ∧
      place = above ++ [name] := by
  rw [follow_append] at h
  cases habove : tree.follow start leading with
  | error failure =>
      rw [habove] at h
      cases h
  | ok above =>
      rw [habove] at h
      change tree.follow above [name] = .ok place at h
      rw [follow, if_neg (not_or.mpr ⟨hempty, hdot⟩), if_neg hdots] at h
      split_ifs at h with hdirectory
      exact ⟨above, rfl, hdirectory, (Except.ok.inj h).symm⟩

/-- An empty name at the end leads nowhere else. -/
theorem follow_concat_empty {start place leading : List String}
    (h : tree.follow start leading = .ok place) (hdirectory : tree.hasDirectory place = true) :
    tree.follow start (leading ++ [""]) = .ok place := by
  rw [follow_append, h]
  show tree.follow place [""] = .ok place
  rw [follow, if_pos hdirectory, if_pos (.inl rfl), follow]

/-- A file that is read lies at the place that its path leads to. -/
theorem exists_of_read {path : String} {content : ByteArray} (h : tree.read path = .ok content) :
    ∃ place, tree.follow (tree.origin path) (Path.names path) = .ok place ∧
      tree.file? place = some content := by
  unfold read at h
  cases hnames : pathNames path with
  | error failure => simp [hnames, bind, Except.bind] at h
  | ok names =>
      have hpath : names = Path.names path := by
        unfold pathNames at hnames
        split_ifs at hnames
        exact (Except.ok.inj hnames).symm
      cases hplace : tree.follow (tree.origin path) names with
      | error failure => simp [hnames, hplace, bind, Except.bind] at h
      | ok place =>
          refine ⟨place, hpath ▸ hplace, ?_⟩
          simp only [hnames, hplace, bind, Except.bind, throw, throwThe, MonadExceptOf.throw] at h
          split_ifs at h
          split at h
          · next found hfile => exact hfile.trans (congrArg some (Except.ok.inj h))
          · cases h

/-- What is read from a path is the content of the file of that name in the directory. -/
def IsReadIn (directory path name : String) : Prop :=
  ∀ (tree : FileTree) (content : ByteArray), tree.read path = .ok content →
    ∃ place, tree.follow (tree.origin directory) (Path.names directory) = .ok place ∧
      tree.hasDirectory place = true ∧ tree.file? (place ++ [name]) = some content

theorem isReadIn_join {directory name : String}
    (h : Path.IsFileIn directory (Path.join directory name) name) :
    IsReadIn directory (Path.join directory name) name := by
  intro tree content hread
  have horigin : tree.origin (Path.join directory name) = tree.origin directory := by
    rw [origin, origin, h.absolute]
  obtain ⟨leading, hpath, hdirectory⟩ := Path.exists_names_join directory h.single
  obtain ⟨file, hfile, hcontent⟩ := exists_of_read hread
  rw [horigin, hpath] at hfile
  obtain ⟨place, hplace, hthere, rfl⟩ := follow_file h.ne_empty h.ne_dot h.ne_dots hfile
  refine ⟨place, ?_, hthere, hcontent⟩
  rcases hdirectory with hnames | hnames
  · rw [hnames, hplace]
  · rw [hnames, follow_concat_empty hplace hthere]

end FileTree

namespace RobotConfig

/-- The scripts of a valid configuration are two, and files in the directory that it names: their
paths add one name to it, and what is read from them is read there. -/
theorem scripts_stay_in_directory {config : RobotConfig} (valid : config.validate = .ok ()) :
    ∃ fallback, config.scriptSource.fallback = some fallback ∧
      config.scriptSource.primary ≠ fallback ∧
      ∀ path ∈ [config.scriptSource.primary, fallback], ∃ name,
        Path.IsFileIn config.scriptDirectory path name ∧
          FileTree.IsReadIn config.scriptDirectory path name := by
  obtain ⟨-, hseparators, -⟩ := config.validate_eq_ok_iff.mp valid
  have hroutine : '/' ∉ config.routine.toList := by
    intro hmem
    have h := List.any_eq_false.mp hseparators '/' hmem
    simp at h
  have halliance : '/' ∉ (config.routine ++ "_" ++ config.alliance.toText).toList := by
    cases config.alliance with
    | red => simp [hroutine, Alliance.toText]
    | blue => simp [hroutine, Alliance.toText]
  have hprimary := Path.isFileIn_join config.scriptDirectory halliance
  have hfallback := Path.isFileIn_join config.scriptDirectory hroutine
  refine ⟨_, rfl, fun heq => ?_, ?_⟩
  · have hlength := Path.length_of_join_eq hprimary.single hfallback.single heq
    simp at hlength
  · simp only [List.forall_mem_cons, List.not_mem_nil, false_imp_iff, implies_true, and_true]
    exact ⟨⟨_, hprimary, FileTree.isReadIn_join hprimary⟩,
      ⟨_, hfallback, FileTree.isReadIn_join hfallback⟩⟩

/-- A routine may be named like the directory above; its scripts are no such thing. -/
theorem scripts_stay_in_directory_dots :
    let config : RobotConfig :=
      { scriptDirectory := "/robot/autos/", routine := "..", alliance := .blue }
    config.validate = .ok () ∧
      config.scriptSource = ⟨"/robot/autos/.._blue.txt", some "/robot/autos/...txt"⟩ ∧
      ∃ name, Path.IsFileIn "/robot/autos/" "/robot/autos/...txt" name ∧
        FileTree.IsReadIn "/robot/autos/" "/robot/autos/...txt" name := by
  intro config
  have hfacts : config.validate = .ok () ∧
      config.scriptSource = ⟨"/robot/autos/.._blue.txt", some "/robot/autos/...txt"⟩ := by
    decide +kernel
  obtain ⟨valid, hsource⟩ := hfacts
  obtain ⟨fallback, hfallback, -, hfiles⟩ := scripts_stay_in_directory valid
  rw [hsource] at hfallback
  obtain rfl := Option.some.inj hfallback
  exact ⟨valid, hsource, hfiles _ (by simp)⟩

end RobotConfig

end RobotRoutine
