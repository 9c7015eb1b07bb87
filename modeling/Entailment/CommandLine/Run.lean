import Entailment.CommandLine.Directory
import Entailment.CommandLine.Options
import Entailment.Program

/-!
# Runs from the command line

The program file is opened first, then the file for the output is emptied, and only then the
program is read: a program that writes over itself is empty.  What a program wrote before an error
is kept.
-/

namespace Entailment

/-- What a run from the command line leaves behind. -/
structure Report where
  /-- The exit code: `0` for success, `1` for an error, `2` for a wrong command line. -/
  code : UInt32
  /-- The bytes written to the standard output. -/
  output : List UInt8
  /-- The text written to the standard error output. -/
  errors : String
  /-- The directory afterwards. -/
  directory : Directory

namespace CommandLine

/-- The complaint that the program file cannot be opened. -/
def cannotRead (file : String) (error : StreamError) : String :=
  s!"Error reading program file '{file}': {error.text}\n"

/-- The complaint that the file for the output cannot be created. -/
def cannotCreate (file : String) (error : StreamError) : String :=
  s!"Error creating output file '{file}': {error.text}\n"

/-- The exit code and the complaint of a run that ended with this result. -/
def closing : Except Error Unit → UInt32 × String
  | .ok () => (0, "")
  | .error error => (1, s!"Error: {error.message}\n")

/-- The output of the program with this content, its exit code and its complaint. -/
def execute (config : Config) (content : Except StreamError (List UInt8)) :
    List UInt8 × UInt32 × String :=
  match content with
  | .error error => ([], closing (.error (.stream error)))
  | .ok bytes =>
    let outcome := (Program.runBytes config Buffer.unbounded bytes).value
    (outcome.session.sink.output, closing outcome.result)

/-- Runs a program file.  If it is opened and then emptied for the output, it is empty when it is
read. -/
def runFile (directory : Directory) (file : String) (config : Config) (output? : Option String) :
    Report :=
  match directory.openFile file with
  | .error error => ⟨1, [], cannotRead file error, directory⟩
  | .ok content =>
    match output? with
    | none =>
      let (output, code, errors) := execute config content
      ⟨code, output, errors, directory⟩
    | some path =>
      match directory.write path [] with
      | .error error => ⟨1, [], cannotCreate path error, directory⟩
      | .ok emptied =>
        let (output, code, errors) := execute config ((emptied.openFile file).bind id)
        match emptied.write path output with
        | .error error => ⟨1, [], cannotCreate path error, emptied⟩
        | .ok after => ⟨code, [], errors, after⟩

/-- Does what a command line asks for. -/
def run (directory : Directory) (args : List String) : Report :=
  match Options.parse args with
  | none => ⟨2, [], Options.helpText, directory⟩
  | some .version => ⟨0, Source.encode Options.versionText, "", directory⟩
  | some .help => ⟨0, Source.encode Options.helpText, "", directory⟩
  | some (.run file config output?) => runFile directory file config output?

end CommandLine

end Entailment
