import Entailment.Schema.Gap
import Entailment.Schema.Word

/-!
# Literals

Literals are quoted texts, quoted characters and numbers.  In a plain quoted text a backslash starts
an escape, which stands for another character, or for nothing at the end of a line; in a raw one
every character stands for itself, and the closing quote is followed by as many hashes as the
opening quote follows.  A carriage return stands only before a newline.

Every reader gives the number of characters that it takes.
-/

namespace Entailment

/-- What quoted characters make up. -/
inductive Quoting where
  /-- A text. -/
  | text
  /-- Bytes. -/
  | bytes
  /-- A text that ends at its first zero. -/
  | zeroEnded
  deriving DecidableEq, Repr

namespace Quoting

/-- Whether a character may stand for itself. -/
def allows : Quoting → Char → Bool
  | text, _ => true
  | bytes, c => c.toNat < 128
  | zeroEnded, c => c.toNat != 0

/-- Whether a code may be given by two digits. -/
def allowsByte : Quoting → Nat → Bool
  | text, code => code < 128
  | bytes, _ => true
  | zeroEnded, code => code != 0

/-- Whether a character may be given by its code point. -/
def allowsCodePoint : Quoting → Char → Bool
  | text, _ => true
  | bytes, _ => false
  | zeroEnded, c => c.toNat != 0

end Quoting

namespace Literal

/-- Some characters that stand for characters, and their number. -/
abbrev Reading := List Char × Nat

/-- A reading with `chars` before it, which take `extent` characters. -/
def Reading.after (chars : List Char) (extent : Nat) (reading : Reading) : Reading :=
  (chars ++ reading.1, reading.2 + extent)

/-- The value of a hexadecimal digit. -/
def hexDigit? (c : Char) : Option Nat :=
  if c.isDigit then some (c.toNat - '0'.toNat)
  else if 'a' ≤ c ∧ c ≤ 'f' then some (c.toNat - 'a'.toNat + 10)
  else if 'A' ≤ c ∧ c ≤ 'F' then some (c.toNat - 'A'.toNat + 10)
  else none

/-! ### Escapes -/

/-- The characters that a backslash and a letter stand for. -/
def letters : List (Char × Char) :=
  [('n', '\n'), ('r', '\r'), ('t', '\t'), ('\\', '\\'), ('0', '\x00'), ('\x27', '\x27'), ('"', '"')]

/-- The number that hexadecimal digits and underscores spell up to a closing brace, after `count`
digits with the value `value`.  It has one to six digits and starts with one. -/
def codePoint? (value count : Nat) : List Char → Option (Nat × Nat)
  | [] => none
  | c :: rest =>
    if c == '_' && count != 0 then (codePoint? value count rest).map fun (v, n) => (v, n + 1)
    else if c == '\x7d' && count != 0 then some (value, 1)
    else
      match hexDigit? c with
      | none => none
      | some digit =>
        if count < 6 then
          (codePoint? (16 * value + digit) (count + 1) rest).map fun (v, n) => (v, n + 1)
        else none

/-- The character that an escape stands for, read after its backslash. -/
def escape? (quoting : Quoting) : List Char → Option Reading
  | 'x' :: high :: low :: _ =>
    match hexDigit? high, hexDigit? low with
    | some h, some l =>
      if quoting.allowsByte (16 * h + l) then some ([Char.ofNat (16 * h + l)], 3) else none
    | _, _ => none
  | 'u' :: '\x7b' :: rest =>
    match codePoint? 0 0 rest with
    | none => none
    | some (value, extent) =>
      let c := Char.ofNat value
      if c.toNat == value && quoting.allowsCodePoint c then some ([c], extent + 2) else none
  | letter :: _ =>
    match letters.lookup letter with
    | none => none
    | some c => if c.toNat == 0 && quoting == .zeroEnded then none else some ([c], 1)
  | [] => none

/-- The end of a line, read after a backslash: it and the blanks that start the next lines stand for
nothing. -/
def lineEnd? (text : List Char) : Option Reading :=
  if text.head? == some '\n' || text.head? == some '\r' then
    let blanks := text.takeWhile [' ', '\t', '\n', '\r'].contains
    if Gap.hasBareReturn blanks then none else some ([], blanks.length)
  else none

/-! ### Quoted texts -/

/-- A plain quoted text, read after its opening quote. -/
def plain? (quoting : Quoting) : List Char → Option Reading
  | [] => none
  | '"' :: _ => some ([], 1)
  | '\r' :: '\n' :: rest => (plain? quoting rest).map (.after ['\n'] 2)
  | '\r' :: _ => none
  | '\\' :: rest =>
    match escape? quoting rest <|> lineEnd? rest with
    | none => none
    | some (chars, extent) => (plain? quoting (rest.drop extent)).map (.after chars (extent + 1))
  | c :: rest => if quoting.allows c then (plain? quoting rest).map (.after [c] 1) else none
termination_by text => text.length
decreasing_by all_goals (simp only [List.length_cons, List.length_drop]; omega)

/-- A raw quoted text, read after its opening quote; `hashes` hashes stand before that quote. -/
def rawBody? (quoting : Quoting) (hashes : Nat) : List Char → Option Reading
  | [] => none
  | '"' :: rest =>
    if rest.take hashes == List.replicate hashes '#' then some ([], hashes + 1)
    else (rawBody? quoting hashes rest).map (.after ['"'] 1)
  | '\r' :: '\n' :: rest => (rawBody? quoting hashes rest).map (.after ['\r', '\n'] 2)
  | '\r' :: _ => none
  | c :: rest =>
    if quoting.allows c then (rawBody? quoting hashes rest).map (.after [c] 1) else none

/-- A raw quoted text from its hashes on, of which there are at most 255. -/
def raw? (quoting : Quoting) (text : List Char) : Option Reading :=
  let hashes := (text.takeWhile (· == '#')).length
  match text.drop hashes with
  | '"' :: body =>
    if hashes ≤ 255 then (rawBody? quoting hashes body).map (.after [] (hashes + 1)) else none
  | _ => none

/-- The extent of a quoted character, read after its opening quote. -/
def character? (quoting : Quoting) : List Char → Option Nat
  | '\\' :: rest =>
    match escape? quoting rest with
    | none => none
    | some (_, extent) =>
      if (rest.drop extent).head? == some '\x27' then some (extent + 2) else none
  | c :: '\x27' :: _ => if quoting.allows c then some 2 else none
  | _ => none

/-! ### Numbers -/

/-- The characters of a row of digits. -/
def isDigitOrLine (c : Char) : Bool := c.isDigit || c == '_'

/-- The extent of the digits of a number in the given base, one of which has to be there.  A decimal
digit that the base does not have is refused; a letter that it does not have ends the number. -/
def digits? (base : Nat) (text : List Char) : Option Nat :=
  let row := text.takeWhile fun c => isDigitOrLine c || (base == 16 && (hexDigit? c).isSome)
  let values := row.filterMap hexDigit?
  if values.isEmpty || values.any (base ≤ ·) then none else some row.length

/-- The extent of an exponent, read after its letter: digits, perhaps with a sign before them. -/
def exponent? (text : List Char) : Option Nat :=
  let row := text.takeWhile isDigitOrLine
  if row.any Char.isDigit then some row.length
  else
    match text.drop row.length with
    | sign :: rest =>
      let digits := rest.takeWhile isDigitOrLine
      if (sign == '+' || sign == '-') && digits.any Char.isDigit then
        some (row.length + 1 + digits.length)
      else none
    | [] => none

/-- The extent of the point and the fraction at the start of a text.  A point before another point
or a word does not start a fraction. -/
def fraction : List Char → Nat
  | '.' :: rest =>
    if rest.head? == some '.' || Word.leads rest then 0
    else (rest.takeWhile isDigitOrLine).length + 1
  | _ => 0

/-- The extent of the decimal number at the start of a text. -/
def decimal (text : List Char) : Nat :=
  let whole := (text.takeWhile isDigitOrLine).length
  let mantissa := whole + fraction (text.drop whole)
  match text.drop mantissa with
  | c :: rest =>
    if c == 'e' || c == 'E' then mantissa + ((exponent? rest).map (· + 1)).getD 0 else mantissa
  | [] => mantissa

/-- The extent of the number at the start of a text that starts with a digit. -/
def number? : List Char → Option Nat
  | '0' :: 'x' :: rest => (digits? 16 rest).map (· + 2)
  | '0' :: 'o' :: rest => (digits? 8 rest).map (· + 2)
  | '0' :: 'b' :: rest => (digits? 2 rest).map (· + 2)
  | text => some (decimal text)

end Literal

end Entailment
