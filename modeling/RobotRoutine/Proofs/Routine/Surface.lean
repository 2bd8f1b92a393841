import RobotRoutine.Proofs.Script.Surface
import RobotRoutine.Routine

/-!
# The surface of a script does not reach the routine

The compiler takes no more of a script than its outline, the gists of the lines
or the number of the first one that cannot be read. A malformed line is echoed
besides, as it is written, and this is the one thing in which the outcomes for
two scripts that resemble each other may differ.
-/

namespace RobotRoutine

/-- The error without the text of the line that it echoes. -/
def ScriptError.withoutEcho : ScriptError → ScriptError
  | .malformed line => .malformed { line with text := "" }
  | error => error

namespace Routine

open Script

/-- What is compiled of an outline. -/
def compileOutline (registry : Registry) (tuning : Tuning) :
    Except Nat (List Gist) → Except ScriptError Command
  | .error number => .error (.malformed ⟨number, ""⟩)
  | .ok gists =>
    ((buildAll registry tuning (invocationsOf gists)).map fun commands =>
      .ofSteps rootName (layOut tuning.cadence commands)).mapError ScriptError.withoutEcho

/-- But for the echo, the outcome depends on the outline alone. -/
theorem mapError_compile (text : String) (registry : Registry) (tuning : Tuning) :
    (compile text registry tuning).mapError ScriptError.withoutEcho =
      compileOutline registry tuning (outline (parse text)) := by
  rw [compile]
  cases parse text with
  | error line => rfl
  | ok entries =>
      have houtline : outline (.ok entries) = .ok (entries.map Entry.gist) := rfl
      rw [houtline, compileOutline, ← invocations_eq]

/-- Scripts that are the same but for the case of letters, blanks at the ends of
lines and around the commas of an argument body, and the kind of line ends compile
into the same routine, or fail with the same error but for the line it echoes. -/
theorem surface_is_irrelevant {text text' : String} (h : Resembles text text')
    (registry : Registry) (tuning : Tuning) :
    (∃ root, compile text registry tuning = .ok root ∧
      compile text' registry tuning = .ok root) ∨
    ∃ error error', compile text registry tuning = .error error ∧
      compile text' registry tuning = .error error' ∧
      error.withoutEcho = error'.withoutEcho := by
  have hsame : (compile text registry tuning).mapError ScriptError.withoutEcho =
      (compile text' registry tuning).mapError ScriptError.withoutEcho := by
    rw [mapError_compile, mapError_compile, outline_parse_congr h]
  cases hfirst : compile text registry tuning with
  | ok root =>
      cases hsecond : compile text' registry tuning with
      | ok root' =>
          rw [hfirst, hsecond] at hsame
          exact .inl ⟨root, rfl, congrArg Except.ok (Except.ok.inj hsame).symm⟩
      | error error' =>
          rw [hfirst, hsecond] at hsame
          cases hsame
  | error error =>
      cases hsecond : compile text' registry tuning with
      | ok root' =>
          rw [hfirst, hsecond] at hsame
          cases hsame
      | error error' =>
          rw [hfirst, hsecond] at hsame
          exact .inr ⟨error, error', rfl, rfl, Except.error.inj hsame⟩

/-- One line with a touch of each kind. -/
theorem surface_is_irrelevant_print :
    Resembles "Print(go,90)\nwait(10)" "\tprint(go, 90)\r\nwait(10)" ∧
      ∃ root, compile "Print(go,90)\nwait(10)" .builtins {} = .ok root ∧
        compile "\tprint(go, 90)\r\nwait(10)" .builtins {} = .ok root := by
  have hletter : Touch "Print(go,90)".toList "print(go,90)".toList :=
    .letter (c := 'P') (d := 'p') rfl [] "rint(go,90)".toList
  have hcomma : Touch "print(go,90)".toList "print(go, 90)".toList :=
    @Touch.comma "print".toList "go".toList [] [' '] "90".toList [] (by decide) (by decide)
      (by decide) (by simp [IsPad]) (by simp [IsPad])
  have hends : Touch "print(go, 90)".toList "\tprint(go, 90)".toList :=
    @Touch.ends ['\t'] [] (by simp [IsPad]) (by simp [IsPad]) "print(go, 90)".toList
  have hreturn : Touch "\tprint(go, 90)".toList "\tprint(go, 90)\r".toList :=
    .carriageReturn "\tprint(go, 90)".toList
  have hline : Relation.EqvGen Touch "Print(go,90)".toList "\tprint(go, 90)\r".toList :=
    .trans _ _ _ (.rel _ _ hletter) <| .trans _ _ _ (.rel _ _ hcomma) <|
      .trans _ _ _ (.rel _ _ hends) (.rel _ _ hreturn)
  have hresembles : Resembles "Print(go,90)\nwait(10)" "\tprint(go, 90)\r\nwait(10)" :=
    .cons hline (.cons (.refl "wait(10)".toList) .nil)
  refine ⟨hresembles, ?_⟩
  have hok : (compile "Print(go,90)\nwait(10)" .builtins {}).toOption.isSome = true := by
    decide +kernel
  rcases surface_is_irrelevant hresembles .builtins {} with hroot | ⟨error, -, herror, -⟩
  · exact hroot
  · rw [herror] at hok
    cases hok

end Routine

end RobotRoutine
