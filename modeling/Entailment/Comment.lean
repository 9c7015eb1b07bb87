/-!
# Comments

Two slashes start a comment that runs to the end of the line, unless they stand in a quoted text.
Whether they do is told by the number of quotes before them: it is odd inside a quoted text.
-/

namespace Entailment

namespace Comment

/-- The characters before the comment; `quoted` tells whether they start inside a quoted text. -/
def cut (quoted : Bool) : List Char → List Char
  | [] => []
  | c :: rest =>
    if !quoted && c == '/' && rest.head? == some '/' then []
    else c :: cut (if c == '"' then !quoted else quoted) rest

/-- The line without its comment. -/
def strip (line : String) : String := String.ofList (cut false line.toList)

@[simp] theorem toList_strip (line : String) : (strip line).toList = cut false line.toList :=
  String.toList_ofList

end Comment

end Entailment
