/-!
# Paths

A path is a list of steps with slashes between them; how many slashes stand between two steps does
not matter.  A slash at the start makes the path begin at the root, and a slash at the end asks for
a directory.
-/

namespace Entailment

/-- A step of a path. -/
inductive Path.Step where
  /-- `.`, which stays where it is. -/
  | stay
  /-- `..`, which leads out. -/
  | out
  /-- A name, which leads to what has that name. -/
  | name (text : String)
  deriving DecidableEq, Repr

/-- A path. -/
structure Path where
  /-- Whether it begins at the root. -/
  rooted : Bool
  /-- Its steps. -/
  steps : List Path.Step
  /-- Whether it ends with a slash. -/
  closed : Bool
  deriving DecidableEq, Repr

namespace Path

/-- The step that a text spells. -/
def Step.ofText (text : String) : Step :=
  if text = "." then stay else if text = ".." then out else name text

/-- The path that a text spells. -/
def ofText (text : String) : Path where
  rooted := text.toList.head? == some '/'
  steps := ((text.splitOn "/").filter (· != "")).map Step.ofText
  closed := text.toList.getLast? == some '/'

/-- The longest name of a file, in bytes. -/
def longestName : Nat := 255

/-- The longest text of a path, in bytes. -/
def longestText : Nat := 4095

end Path

end Entailment
