import Entailment.Session

/-!
# Programs

A program is read to its end before any statement runs, so that a program with a line at fault
writes nothing.  Then its statements run in order up to the first error, and the session ends.
-/

namespace Entailment

namespace Program

variable {σ : Type} [Sink σ]

/-- Runs lines in a fresh session, and ends it. -/
def runLines (config : Config) (sink : σ) (lines : List TokenLine) : Logged (Outcome σ) := do
  let outcome ← (Session.start config sink).run lines
  match outcome.result with
  | .error _ => pure outcome
  | .ok () => outcome.session.finish

/-- Runs the program that a reading gave. -/
def runReading {ε : Type} (lift : ε → Error) (config : Config) (sink : σ) (reading : Reading ε) :
    Logged (Outcome σ) := do
  match ← reading.logged with
  | .error fault => pure ⟨.start config sink, .error (lift fault)⟩
  | .ok lines => runLines config sink lines

/-- Runs a program text. -/
def run (config : Config) (sink : σ) (text : String) : Logged (Outcome σ) :=
  runReading .lexical config sink (Source.read text)

/-- Runs a program given as bytes. -/
def runBytes (config : Config) (sink : σ) (bytes : List UInt8) : Logged (Outcome σ) :=
  runReading id config sink (Source.readBytes bytes)

end Program

end Entailment
