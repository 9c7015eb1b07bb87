import Entailment.Schema.CodePoint

/-!
# Words

A word is a run of letters, digits and underscores that does not start with a digit; letters of any
script can occur in it, and after the first of them also the marks that go with letters.  A word can
be marked by `r#` as standing for itself, which is how a reserved word becomes a metavariable.
-/

namespace Entailment

namespace Word

/-- The characters a word starts with. -/
def starts (c : Char) : Bool := c == '_' || CodePoint.within CodePoint.letters c

/-- The characters of a word after the first.  The underscore is one of the marks. -/
def continues (c : Char) : Bool :=
  CodePoint.within CodePoint.letters c || CodePoint.within CodePoint.marks c

/-- Whether a text starts with a word. -/
def leads (text : List Char) : Bool := text.head?.any starts

/-- The word at the start of a text, empty if there is none. -/
def take (text : List Char) : List Char := if leads text then text.takeWhile continues else []

/-- The words that cannot be marked. -/
def unmarkable : List String := ["_", "crate", "self", "Self", "super"]

/-- The marked word after its mark. -/
def marked? (text : List Char) : Option (List Char) :=
  let word := take text
  if word.isEmpty || unmarkable.contains (String.ofList word) then none else some word

end Word

end Entailment
