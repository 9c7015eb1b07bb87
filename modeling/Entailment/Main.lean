import Entailment.CommandLine.Run

/-!
# The command

Connects the command line to the files and streams of the system.
-/

namespace Entailment

namespace CommandLine

/-- The failure of an operation of the system. -/
def systemError : IO.Error → StreamError
  | .noFileOrDirectory _ code details => ⟨.notFound, s!"{details} (os error {code})"⟩
  | .permissionDenied _ code details => ⟨.other, s!"{details} (os error {code})"⟩
  | .inappropriateType _ code details => ⟨.isDirectory, s!"{details} (os error {code})"⟩
  | .resourceExhausted _ code details => ⟨.other, s!"{details} (os error {code})"⟩
  | .otherError code details => ⟨.other, s!"{details} (os error {code})"⟩
  | error => ⟨.other, error.toString⟩

/-- The result of an operation of the system, with its failure as a value. -/
def attempt {α : Type} (action : IO α) : IO (Except StreamError α) := do
  match ← action.toBaseIO with
  | .ok value => return .ok value
  | .error error => return .error (systemError error)

/-- Runs a program file of the system. -/
def runSystemFile (file : String) (config : Config) (output? : Option String) : IO UInt32 := do
  let errors ← IO.getStderr
  match ← attempt (IO.FS.Handle.mk file .read) with
  | .error error =>
    errors.putStr (cannotRead file error)
    return 1
  | .ok program =>
    let target : Except String IO.FS.Stream ← match output? with
      | none => do pure (.ok (← IO.getStdout))
      | some path => do
        match ← attempt (IO.FS.Handle.mk path .write) with
        | .error error => pure (.error (cannotCreate path error))
        | .ok handle => pure (.ok (.ofHandle handle))
    match target with
    | .error complaint =>
      errors.putStr complaint
      return 1
    | .ok stream =>
      let content ← attempt program.readBinToEnd
      let (output, code, complaint) := execute config (content.map (·.data.toList))
      match ← attempt (do stream.write ⟨output.toArray⟩; stream.flush) with
      | .error error =>
        errors.putStr (closing (.error (.stream error))).2
        return 1
      | .ok () =>
        errors.putStr complaint
        return code

end CommandLine

end Entailment

/-- The command. -/
def main (args : List String) : IO UInt32 := do
  match Entailment.Options.parse args with
  | none =>
    (← IO.getStderr).putStr Entailment.Options.helpText
    return 2
  | some .version =>
    IO.print Entailment.Options.versionText
    return 0
  | some .help =>
    IO.print Entailment.Options.helpText
    return 0
  | some (.run file config output?) => Entailment.CommandLine.runSystemFile file config output?
