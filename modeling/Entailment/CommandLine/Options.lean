import Entailment.Session

/-!
# Command-line options

The command line names one program file, may ask for echo and summary, and may name a file for the
output.  Arguments are taken from left to right: flags of one letter can be joined, a letter that
takes a value takes the rest of its argument or the next one, and `--` ends the options.  No option
may be given twice.
-/

namespace Entailment

/-- What a command line asks for. -/
inductive Request where
  /-- The version. -/
  | version
  /-- An explanation of the options. -/
  | help
  /-- A run of the program in a file, with its output to another file if one is named. -/
  | run (file : String) (config : Config) (output? : Option String)
  deriving DecidableEq, Repr

/-- The options gathered so far. -/
structure Options where
  /-- The program file. -/
  file? : Option String := none
  /-- How the session talks. -/
  config : Config := {}
  /-- The file for the output. -/
  output? : Option String := none
  deriving DecidableEq, Repr

/-- What one argument amounts to. -/
inductive Options.Step where
  /-- It is settled what the command line asks for. -/
  | settled (request : Request)
  /-- More options. -/
  | options (options : Options)
  /-- The next argument names the file for the output. -/
  | outputNext (options : Options)
  /-- No argument after this one is an option. -/
  | endOfOptions (options : Options)
  deriving DecidableEq, Repr

namespace Options

/-- The text that the version request prints. -/
def versionText : String := "aris 1.0.0\n"

/-- The text that explains the options. -/
def helpText : String :=
  "Interpreter for propositional logic arguments\n\n" ++
  "Usage: aris [OPTIONS] <FILE>\n\n" ++
  "Arguments:\n" ++
  "  <FILE>  Program file to run (required)\n\n" ++
  "Options:\n" ++
  "  -e, --echo                    Echo each statement before executing it\n" ++
  "  -s, --summary                 Print a summary of the recorded results at the end\n" ++
  "  -O, --out-file <OUTPUT_FILE>  Output file (writes to stdout if not specified)\n" ++
  "  -h, --help                    Print help\n" ++
  "  -V, --version                 Print version\n"

/-- Asks for echo, once. -/
def setEcho (options : Options) : Option Options :=
  if options.config.echo then none
  else some { options with config := { options.config with echo := true } }

/-- Asks for a summary, once. -/
def setSummary (options : Options) : Option Options :=
  if options.config.summary then none
  else some { options with config := { options.config with summary := true } }

/-- Names the file for the output, once; the name is not empty. -/
def setOutput (options : Options) (path : String) : Option Options :=
  if options.output?.isSome || path.isEmpty then none else some { options with output? := some path }

/-- Names the program file, once; the name is not empty. -/
def setFile (options : Options) (path : String) : Option Options :=
  if options.file?.isSome || path.isEmpty then none else some { options with file? := some path }

/-- Takes joined flags of one letter. -/
def letters (options : Options) : List Char → Option Step
  | [] => some (.options options)
  | 'e' :: rest => options.setEcho.bind (letters · rest)
  | 's' :: rest => options.setSummary.bind (letters · rest)
  | ['O'] => some (.outputNext options)
  | 'O' :: '=' :: path => (options.setOutput (String.ofList path)).map .options
  | 'O' :: path => (options.setOutput (String.ofList path)).map .options
  | 'V' :: _ => some (.settled .version)
  | 'h' :: _ => some (.settled .help)
  | _ => none

/-- Takes an option that is written out, without its two hyphens. -/
def word (options : Options) (name : List Char) : Option Step :=
  match String.ofList (name.takeWhile (· != '=')), (name.dropWhile (· != '=')).tail? with
  | "", none => some (.endOfOptions options)
  | "echo", none => options.setEcho.map .options
  | "summary", none => options.setSummary.map .options
  | "out-file", none => some (.outputNext options)
  | "out-file", some path => (options.setOutput (String.ofList path)).map .options
  | "version", none => some (.settled .version)
  | "help", none => some (.settled .help)
  | _, _ => none

/-- Takes an argument; a single hyphen is the name of a file. -/
def argument (options : Options) (arg : String) : Option Step :=
  match arg.toList with
  | '-' :: '-' :: name => options.word name
  | '-' :: c :: rest => options.letters (c :: rest)
  | _ => (options.setFile arg).map .options

/-- Whether an argument can be the value of an option. -/
def isValue (arg : String) : Bool := arg.toList.head? != some '-' || arg == "-"

/-- Takes arguments that are no options. -/
def files (options : Options) : List String → Option Options
  | [] => some options
  | arg :: rest => (options.setFile arg).bind (files · rest)

/-- What the gathered options ask for; there has to be a program file. -/
def settle (options : Options) : Option Request :=
  options.file?.map fun file => .run file options.config options.output?

/-- Takes arguments from left to right, up to one that settles the request. -/
def parseFrom (options : Options) : List String → Option Request
  | [] => options.settle
  | arg :: rest =>
    match options.argument arg with
    | none => none
    | some (.settled request) => some request
    | some (.options options) => parseFrom options rest
    | some (.endOfOptions options) => (options.files rest).bind settle
    | some (.outputNext options) =>
      match rest with
      | [] => none
      | value :: more =>
        if isValue value then (options.setOutput value).bind (parseFrom · more) else none

/-- What a command line asks for, if it is well-formed. -/
def parse (args : List String) : Option Request := parseFrom {} args

end Options

end Entailment
