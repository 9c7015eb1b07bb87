import Entailment.Proofs.Parsing
import Entailment.Source

/-!
# Accepted lines

A line is accepted when its characters form tokens, its first token may lead a line, and
neighbouring tokens fit.  Together the checks leave few ways to begin: `print` alone or before a
text, an atom that is assigned to, or a command before a name, which only an assignment sign may
follow.

* `TokenLine.ofText?_eq_some_iff` : what is checked of a line;
* `TokenLine.Accepted.leads` : **how an accepted line begins**;
* `Source.accepted_of_mem_read` : the lines read from a program text are accepted ones.
-/

namespace Entailment

/-! ### Tokens after a command -/

namespace Token

/-- The tokens that start a statement about an argument. -/
def commands : List Token := [.argument, .assert, .validate, .valuate]

theorem exists_text_of_allows {token : Token} (h : Token.print.allows token = true) :
    ∃ content, token = .text content := by
  cases token with
  | text content => exact ⟨content, rfl⟩
  | _ => cases h

theorem exists_identifier_of_allows {command token : Token} (hc : command ∈ commands)
    (h : command.allows token = true) : ∃ name, token = .identifier name := by
  have hall : ∀ command ∈ commands, command.kind.successors = [.identifier] := by decide
  rw [allows, Kind.allows, hall command hc] at h
  cases token with
  | identifier name => exact ⟨name, rfl⟩
  | _ => cases h

theorem eq_assign_of_allows {name : String} {token : Token}
    (h : (Token.identifier name).allows token = true) : token = .assign := by
  cases token with
  | assign => rfl
  | _ => cases h

end Token

namespace TokenLine

/-! ### The beginning of a line -/

/-- The tokens begin as those of an accepted line do. -/
inductive Leads : List Token → Prop
  /-- An empty line is printed. -/
  | print : Leads [.print]
  /-- A text is printed. -/
  | text (content : String) : Leads [.print, .text content]
  /-- An atom is assigned to. -/
  | assignment (name : String) (rest : List Token) : Leads (.atom name :: .assign :: rest)
  /-- A command has a name and nothing else. -/
  | command {first : Token} (h : first ∈ Token.commands) (name : String) :
    Leads [first, .identifier name]
  /-- A command has a name and an assignment sign. -/
  | definition {first : Token} (h : first ∈ Token.commands) (name : String) (rest : List Token) :
    Leads (first :: .identifier name :: .assign :: rest)

theorem leads_of_command {first second : Token} {rest : List Token} (hc : first ∈ Token.commands)
    (hfits : Fits (first :: second :: rest)) : Leads (first :: second :: rest) := by
  obtain ⟨hsecond, hfits⟩ := List.isChain_cons_cons.1 hfits
  obtain ⟨name, rfl⟩ := Token.exists_identifier_of_allows hc hsecond
  cases rest with
  | nil => exact .command hc name
  | cons third rest =>
    obtain rfl := Token.eq_assign_of_allows (List.isChain_cons_cons.1 hfits).1
    exact .definition hc name rest

theorem leads_of_print {second : Token} {rest : List Token}
    (hfits : Fits (.print :: second :: rest)) : Leads (.print :: second :: rest) := by
  obtain ⟨hsecond, hfits⟩ := List.isChain_cons_cons.1 hfits
  obtain ⟨content, rfl⟩ := Token.exists_text_of_allows hsecond
  cases rest with
  | nil => exact .text content
  | cons third rest => cases (List.isChain_cons_cons.1 hfits).1

/-- What passes both checks begins as an accepted line does. -/
theorem leads_of_checkLead {line : String} {tokens : List Token} (hne : tokens ≠ [])
    (hlead : checkLead line tokens = .ok ()) (hfits : Fits tokens) : Leads tokens := by
  rcases tokens with _ | ⟨first, _ | ⟨second, rest⟩⟩
  · exact absurd rfl hne
  · cases first with
    | print => exact .print
    | _ => cases hlead
  · cases first with
    | print => exact leads_of_print hfits
    | atom name =>
      rw [checkLead] at hlead
      split_ifs at hlead with hsecond
      subst hsecond
      exact .assignment name rest
    | argument | assert | validate | valuate => exact leads_of_command (by decide) hfits
    | _ => cases hlead

/-! ### Lines of a program -/

/-- The line is the one read from its own text. -/
def Accepted (line : TokenLine) : Prop :=
  ofText? line.number line.source = .ok (some line)

theorem ofText?_eq_some_iff {number : ℕ} {source : String} {line : TokenLine} :
    ofText? number source = .ok (some line) ↔
      ∃ tokens, Token.scan source = .ok tokens ∧ tokens ≠ [] ∧ checkLead source tokens = .ok () ∧
        Fits tokens ∧ line = ⟨number, source, tokens⟩ := by
  unfold ofText?
  rcases Token.scan source with error | _ | ⟨first, rest⟩
  · simp
  · simp
  · simp only [Except.ok.injEq, exists_eq_left', ← checkAdjacency_eq_ok_iff source]
    cases checkLead source (first :: rest) with
    | error error => simp
    | ok value =>
      cases checkAdjacency source (first :: rest) with
      | error error => simp
      | ok value => simp [eq_comm]

theorem accepted_of_ofText? {number : ℕ} {source : String} {line : TokenLine}
    (h : ofText? number source = .ok (some line)) : line.Accepted := by
  obtain ⟨tokens, -, -, -, -, rfl⟩ := ofText?_eq_some_iff.1 h
  exact h

/-- **How an accepted line begins.** -/
theorem Accepted.leads {line : TokenLine} (h : line.Accepted) : Leads line.tokens := by
  obtain ⟨tokens, -, hne, hlead, hfits, heq⟩ := ofText?_eq_some_iff.1 h
  rw [heq]
  exact leads_of_checkLead hne hlead hfits

end TokenLine

namespace Reading

variable {ε : Type}

theorem accepted_of_mem_ofLines {lift : LexicalError → ε} {number : ℕ}
    {sources : List (Except ε String)} {line : TokenLine}
    (h : line ∈ (ofLines lift number sources).lines) : line.Accepted := by
  induction sources generalizing number with
  | nil => cases h
  | cons source rest ih =>
    cases source with
    | error fault => cases h
    | ok source =>
      rw [ofLines] at h
      cases hline : TokenLine.ofText? number source with
      | error error => simp [hline] at h
      | ok line? =>
        simp only [hline, List.mem_append, Option.mem_toList] at h
        rcases h with h | h
        · obtain rfl := Option.mem_def.1 h
          exact TokenLine.accepted_of_ofText? hline
        · exact ih h

theorem toExcept_eq_ok_iff {reading : Reading ε} {lines : List TokenLine} :
    reading.toExcept = .ok lines ↔ reading.fault? = none ∧ reading.lines = lines := by
  unfold toExcept
  cases reading.fault? with
  | none => simp
  | some fault => simp

end Reading

/-- The lines read from a program text are accepted ones. -/
theorem Source.accepted_of_mem_read {text : String} {lines : List TokenLine}
    (hread : (Source.read text).toExcept = .ok lines) {line : TokenLine} (h : line ∈ lines) :
    line.Accepted := by
  obtain ⟨-, rfl⟩ := Reading.toExcept_eq_ok_iff.1 hread
  exact Reading.accepted_of_mem_ofLines h

end Entailment
