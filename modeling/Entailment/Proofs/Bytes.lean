import Entailment.Proofs.Encoding
import Entailment.Proofs.Execution

/-!
# Programs given as bytes

A program comes as a text or as bytes.  The text is split into lines of characters; the bytes are
split into lines of bytes, and each of these is decoded on its own.  Newlines and carriage returns
are characters below 128, so that a newline splits the bytes where it splits the characters, and
both ways give the same lines.

Bytes that are no text can still begin with good lines.  They are read as far as the first line at
fault, which decides the error, and nothing is written.

* `Source.Splits` : what the lines of a text are, for characters and for bytes;
* `Source.splits_iff` : splitting finds these lines;
* `Source.byteLines_encode` : the lines of the bytes are the bytes of the lines;
* `Source.FirstFault` : the first line at fault, and its error;
* `Program.runBytes_agrees` : **a program runs alike as a text and as bytes, and the first line at
  fault keeps bytes from running.**
-/

namespace Entailment

namespace Source

/-! ### Lines -/

section Lines

variable {α : Type} {newline carriage : α}

/-- The lines of a text.  Every line but the last one is ended by a newline, or by a carriage
return and a newline; the last one may be ended by the end of the text, but it is then not empty. -/
inductive Splits (newline carriage : α) : List α → List (List α) → Prop where
  | nil : Splits newline carriage [] []
  | last {line : List α} (hnewline : newline ∉ line) (hne : line ≠ []) :
      Splits newline carriage line [line]
  | newline {line rest : List α} {lines : List (List α)} (hnewline : newline ∉ line)
      (hcarriage : line.getLast? ≠ some carriage) (hrest : Splits newline carriage rest lines) :
      Splits newline carriage (line ++ newline :: rest) (line :: lines)
  | carriage {line rest : List α} {lines : List (List α)} (hnewline : newline ∉ line)
      (hrest : Splits newline carriage rest lines) :
      Splits newline carriage (line ++ carriage :: newline :: rest) (line :: lines)

variable [DecidableEq α]

theorem splitAfter_append {line : List α} (hnewline : newline ∉ line) (before rest : List α) :
    splitAfter newline carriage before (line ++ rest) =
      splitAfter newline carriage (line.reverse ++ before) rest := by
  induction line generalizing before with
  | nil => rfl
  | cons c line ih =>
    have hc : c ≠ newline := (List.ne_of_not_mem_cons hnewline).symm
    have hline : newline ∉ line := List.not_mem_of_not_mem_cons hnewline
    rw [List.cons_append, splitAfter, if_neg hc, ih hline, List.reverse_cons, List.append_assoc,
      List.singleton_append]

/-- Splitting goes on with the characters `before` of an unfinished line as if it had just read
them. -/
theorem splits_splitAfter {before : List α} (hnewline : newline ∉ before) (text : List α) :
    Splits newline carriage (before.reverse ++ text)
      (splitAfter newline carriage before text) := by
  induction text generalizing before with
  | nil =>
    rw [splitAfter, List.append_nil]
    split_ifs with hempty
    · rw [List.isEmpty_iff.1 hempty]
      exact .nil
    · refine .last (mt List.mem_reverse.1 hnewline) fun h => hempty ?_
      rw [List.isEmpty_iff, List.reverse_eq_nil_iff.1 h]
  | cons c rest ih =>
    rw [splitAfter]
    split_ifs with hc hcarriage
    · subst hc
      obtain ⟨line, rfl⟩ := List.head?_eq_some_iff.1 hcarriage
      simp only [List.reverse_cons, List.append_assoc, List.singleton_append, List.tail_cons]
      refine .carriage (fun hm => hnewline ?_) (ih List.not_mem_nil)
      exact List.mem_cons_of_mem _ (List.mem_reverse.1 hm)
    · subst hc
      refine .newline (mt List.mem_reverse.1 hnewline) ?_ (ih List.not_mem_nil)
      rwa [List.getLast?_reverse]
    · have hbefore : newline ∉ c :: before :=
        List.not_mem_cons_of_ne_of_not_mem (Ne.symm hc) hnewline
      simpa using ih hbefore

/-- A text has only one list of lines. -/
theorem Splits.splitAfter_eq (hne : newline ≠ carriage) {text : List α} {lines : List (List α)}
    (h : Splits newline carriage text lines) : splitAfter newline carriage [] text = lines := by
  induction h with
  | nil => rfl
  | @last line hnewline hline =>
    rw [← List.append_nil line, splitAfter_append hnewline, splitAfter]
    simp [hline]
  | newline hnewline hcarriage hrest ih =>
    rw [splitAfter_append hnewline, splitAfter, if_pos rfl, ih, List.append_nil,
      List.head?_reverse, if_neg hcarriage, List.reverse_reverse]
  | @carriage line rest lines hnewline hrest ih =>
    have hline : newline ∉ line ++ [carriage] := by simp [hnewline, hne]
    rw [List.append_cons, splitAfter_append hline, splitAfter, if_pos rfl, ih]
    simp

theorem splits_iff (hne : newline ≠ carriage) {text : List α} {lines : List (List α)} :
    Splits newline carriage text lines ↔ splitAfter newline carriage [] text = lines := by
  constructor
  · exact Splits.splitAfter_eq hne
  · rintro rfl
    exact splits_splitAfter List.not_mem_nil text

end Lines

/-! ### Lines of bytes -/

/-- The bytes are split where the characters are. -/
theorem Splits.encode {text : List Char} {lines : List (List Char)}
    (h : Splits '\n' '\r' text lines) :
    Splits 10 13 (text.flatMap String.utf8EncodeChar)
      (lines.map fun line => line.flatMap String.utf8EncodeChar) := by
  have hmem {line : List Char} (hline : '\n' ∉ line) : 10 ∉ line.flatMap String.utf8EncodeChar :=
    fun hm => hline ((toUInt8_mem_flatMap_iff (by decide)).1 hm)
  have hnewline : String.utf8EncodeChar '\n' = [10] := utf8EncodeChar_of_lt (by decide)
  have hcarriage : String.utf8EncodeChar '\r' = [13] := utf8EncodeChar_of_lt (by decide)
  induction h with
  | nil => exact .nil
  | @last line hline hne =>
    refine .last (hmem hline) ?_
    obtain ⟨c, rest, rfl⟩ := List.exists_cons_of_ne_nil hne
    simp [String.utf8EncodeChar_ne_nil]
  | newline hline hlast hrest ih =>
    rw [List.flatMap_append, List.flatMap_cons, hnewline, List.map_cons]
    refine .newline (hmem hline) (fun hlast' => hlast ?_) ih
    exact getLast?_of_flatMap (by decide) hlast'
  | carriage hline hrest ih =>
    rw [List.flatMap_append, List.flatMap_cons, List.flatMap_cons, hcarriage, hnewline,
      List.map_cons]
    exact .carriage (hmem hline) ih

/-- **The lines of the bytes are the bytes of the lines.** -/
theorem byteLines_encode (text : String) : byteLines (encode text) = (lines text).map encode := by
  have hsplits : Splits '\n' '\r' text.toList (splitAfter '\n' '\r' [] text.toList) :=
    splits_splitAfter List.not_mem_nil _
  rw [byteLines, encode_eq_flatMap, hsplits.encode.splitAfter_eq (by decide), lines,
    List.map_map]
  refine List.map_congr_left fun line _ => ?_
  rw [Function.comp_apply, encode_eq_flatMap, String.toList_ofList]

end Source

/-! ### Readings -/

namespace Reading

variable {ε δ : Type}

/-- The reading with its fault told in another way. -/
def mapFault (f : ε → δ) (reading : Reading ε) : Reading δ :=
  ⟨reading.lines, reading.fault?.map f⟩

theorem toExcept_mapFault (f : ε → δ) (reading : Reading ε) :
    (reading.mapFault f).toExcept = reading.toExcept.mapError f := by
  obtain ⟨lines, _ | fault⟩ := reading <;> rfl

theorem toExcept_eq_error_iff {reading : Reading ε} {fault : ε} :
    reading.toExcept = .error fault ↔ reading.fault? = some fault := by
  obtain ⟨lines, _ | fault⟩ := reading <;> simp [toExcept]

/-- Lines that can all be read are read alike, however their faults are told. -/
theorem ofLines_mapFault (f : ε → δ) (lift : LexicalError → ε) (number : ℕ)
    (sources : List String) :
    ofLines (fun error => f (lift error)) number (sources.map .ok) =
      (ofLines lift number (sources.map .ok)).mapFault f := by
  induction sources generalizing number with
  | nil => rfl
  | cons source rest ih =>
    simp only [List.map_cons, ofLines]
    cases TokenLine.ofText? number source with
    | error error => rfl
    | ok line? =>
      simp only [ih]
      rfl

end Reading

namespace Source

/-- **The bytes of a text are read as the text is.** -/
theorem readBytes_encode (text : String) :
    readBytes (encode text) = (read text).mapFault .lexical := by
  have hlines : ((lines text).map encode).map (fun line => (decode line).mapError Error.stream) =
      (lines text).map .ok := by
    rw [List.map_map]
    refine List.map_congr_left fun line _ => ?_
    rw [Function.comp_apply, decode_eq_ok_iff.2 rfl]
    rfl
  rw [readBytes, byteLines_encode, hlines]
  exact Reading.ofLines_mapFault Error.lexical id 1 (lines text)

/-! ### The first line at fault -/

/-- What is wrong with a line of bytes: it is no text, or a text that is not accepted. -/
inductive Fault (number : ℕ) (line : List UInt8) : Error → Prop where
  | notText (h : ∀ text, encode text ≠ line) : Fault number line (.stream notText)
  | lexical {text : String} {error : LexicalError} (htext : encode text = line)
      (h : TokenLine.ofText? number text = .error error) : Fault number line (.lexical error)

/-- The lines, of which the first has the given number, are good up to one at fault. -/
def FirstFault (number : ℕ) (lines : List (List UInt8)) (error : Error) : Prop :=
  ∃ i line, lines[i]? = some line ∧ Fault (number + i) line error ∧
    ∀ j < i, ∀ earlier, lines[j]? = some earlier → ∀ other, ¬ Fault (number + j) earlier other

theorem not_firstFault_nil {number : ℕ} {error : Error} : ¬ FirstFault number [] error := by
  rintro ⟨i, line, hline, -⟩
  cases hline

theorem firstFault_cons_iff {number : ℕ} {line : List UInt8} {rest : List (List UInt8)}
    {error : Error} :
    FirstFault number (line :: rest) error ↔
      Fault number line error ∨
        (∀ other, ¬ Fault number line other) ∧ FirstFault (number + 1) rest error := by
  constructor
  · rintro ⟨i, found, hfound, hfault, hgood⟩
    cases i with
    | zero =>
      cases hfound
      exact .inl hfault
    | succ i =>
      refine .inr ⟨hgood 0 (Nat.succ_pos i) line rfl, i, found, hfound, ?_, ?_⟩
      · rwa [Nat.add_right_comm, Nat.add_assoc]
      · intro j hj earlier hearlier
        rw [Nat.add_right_comm, Nat.add_assoc]
        exact hgood (j + 1) (Nat.succ_lt_succ hj) earlier hearlier
  · rintro (hfault | ⟨hline, i, found, hfound, hfault, hgood⟩)
    · exact ⟨0, line, rfl, hfault, fun j hj => absurd hj (Nat.not_lt_zero j)⟩
    · refine ⟨i + 1, found, hfound, ?_, ?_⟩
      · rwa [← Nat.add_assoc, Nat.add_right_comm]
      · intro j hj earlier hearlier
        cases j with
        | zero =>
          cases hearlier
          exact hline
        | succ j =>
          rw [← Nat.add_assoc, Nat.add_right_comm]
          exact hgood j (Nat.lt_of_succ_lt_succ hj) earlier hearlier

/-- The lines as they are read, each decoded on its own. -/
abbrev decoded (lines : List (List UInt8)) : List (Except Error String) :=
  lines.map fun line => (decode line).mapError .stream

theorem ofLines_decoded_of_fault {number : ℕ} {line : List UInt8} {error : Error}
    (h : Fault number line error) (rest : List (List UInt8)) :
    (Reading.ofLines .lexical number (decoded (line :: rest))).fault? = some error := by
  cases h with
  | notText h =>
    rw [decoded, List.map_cons, decode_eq_error_iff.2 ⟨rfl, h⟩]
    rfl
  | lexical htext h =>
    simp only [decoded, List.map_cons, decode_eq_ok_iff.2 htext, Except.mapError,
      Reading.ofLines, h]

theorem ofLines_decoded_of_good {number : ℕ} {line : List UInt8}
    (h : ∀ other, ¬ Fault number line other) (rest : List (List UInt8)) :
    (Reading.ofLines .lexical number (decoded (line :: rest))).fault? =
      (Reading.ofLines .lexical (number + 1) (decoded rest)).fault? := by
  cases hdecode : decode line with
  | error fault =>
    obtain ⟨-, hnone⟩ := decode_eq_error_iff.1 hdecode
    exact absurd (.notText hnone) (h _)
  | ok text =>
    cases hread : TokenLine.ofText? number text with
    | error error => exact absurd (.lexical (decode_eq_ok_iff.1 hdecode) hread) (h _)
    | ok line? =>
      simp only [decoded, List.map_cons, hdecode, Except.mapError, Reading.ofLines, hread]

/-- Reading stops at the first line at fault. -/
theorem fault?_ofLines_decoded_iff {number : ℕ} {lines : List (List UInt8)} {error : Error} :
    (Reading.ofLines .lexical number (decoded lines)).fault? = some error ↔
      FirstFault number lines error := by
  induction lines generalizing number with
  | nil => simp [decoded, Reading.ofLines, not_firstFault_nil]
  | cons line rest ih =>
    rw [firstFault_cons_iff]
    by_cases hline : ∃ other, Fault number line other
    · obtain ⟨other, hother⟩ := hline
      rw [ofLines_decoded_of_fault hother, Option.some_inj]
      constructor
      · rintro rfl
        exact .inl hother
      · rintro (hfault | ⟨hgood, -⟩)
        · have hfirst := ofLines_decoded_of_fault hfault rest
          rw [ofLines_decoded_of_fault hother] at hfirst
          exact Option.some_inj.1 hfirst
        · exact absurd hother (hgood other)
    · have hgood := not_exists.1 hline
      rw [ofLines_decoded_of_good hgood, ih]
      constructor
      · exact fun h => .inr ⟨hgood, h⟩
      · rintro (hfault | ⟨-, h⟩)
        · exact absurd hfault (hgood error)
        · exact h

theorem readBytes_eq_error_iff {bytes : List UInt8} {error : Error} :
    (readBytes bytes).toExcept = .error error ↔ FirstFault 1 (byteLines bytes) error := by
  rw [Reading.toExcept_eq_error_iff]
  exact fault?_ofLines_decoded_iff

end Source

/-! ### Running -/

namespace Program

variable {σ : Type} [Sink σ]

theorem runReading_mapFault {ε δ : Type} (lift : δ → Error) (f : ε → δ) (config : Config)
    (sink : σ) (reading : Reading ε) :
    runReading lift config sink (reading.mapFault f) =
      runReading (fun fault => lift (f fault)) config sink reading := by
  obtain ⟨lines, _ | fault⟩ := reading <;> rfl

/-- **A program runs alike as a text and as bytes, and the first line at fault keeps bytes from
running.**  The bytes of a text give the outcome and the lines of the text.  Bytes of any kind have
lines that newlines, or carriage returns and newlines, end; the first of them that is no text, or a
text that is not accepted, decides the error, and the sink is then left as it was. -/
theorem runBytes_agrees (config : Config) (sink : σ) :
    (∀ text, runBytes config sink (Source.encode text) = run config sink text ∧
      (Source.readBytes (Source.encode text)).toExcept =
        (Source.read text).toExcept.mapError .lexical) ∧
    (∀ bytes : List UInt8, ∃! lines, Source.Splits 10 13 bytes lines) ∧
    ∀ (bytes : List UInt8) lines error, Source.Splits 10 13 bytes lines →
      ((Source.readBytes bytes).toExcept = .error error ↔ Source.FirstFault 1 lines error) ∧
      (Source.FirstFault 1 lines error →
        (runBytes config sink bytes).value.result = .error error ∧
          (runBytes config sink bytes).value.session.sink = sink) := by
  refine ⟨fun text => ⟨?_, ?_⟩, fun bytes => ?_, fun bytes lines error hsplits => ?_⟩
  · rw [runBytes, Source.readBytes_encode]
    exact runReading_mapFault id Error.lexical config sink (Source.read text)
  · rw [Source.readBytes_encode, Reading.toExcept_mapFault]
  · refine ⟨Source.byteLines bytes, Source.splits_splitAfter List.not_mem_nil bytes, ?_⟩
    exact fun lines hsplits => (hsplits.splitAfter_eq (by decide)).symm
  · have hread : (Source.readBytes bytes).toExcept = .error error ↔
        Source.FirstFault 1 lines error := by
      rw [Source.readBytes_eq_error_iff, Source.byteLines, hsplits.splitAfter_eq (by decide)]
    refine ⟨hread, fun hfault => ?_⟩
    rw [runBytes, value_runReading, hread.2 hfault]
    exact ⟨rfl, rfl⟩

/-- The second of three lines ends inside a character, and the third one is not accepted.  The
second one decides the error, and the text that the first one prints is not written. -/
theorem runBytes_character_cut_off :
    let lines := [Source.encode "print \"é\"", [101, 204], Source.encode "%"]
    let bytes := Source.encode "print \"é\"\r\n" ++ [101, 204, 10] ++ Source.encode "%"
    let outcome := (runBytes {} Buffer.unbounded bytes).value
    Source.Splits 10 13 bytes lines ∧
      Source.FirstFault 1 lines (.stream Source.notText) ∧
      outcome.result = .error (.stream Source.notText) ∧
      outcome.session.sink = Buffer.unbounded := by
  intro lines bytes outcome
  have hsplits : Source.Splits 10 13 bytes lines :=
    (Source.splits_iff (by decide)).2 (by decide +kernel)
  have hfault : Source.FirstFault 1 lines (.stream Source.notText) :=
    Source.fault?_ofLines_decoded_iff.1 (by decide +kernel)
  obtain ⟨-, -, hbytes⟩ := runBytes_agrees {} Buffer.unbounded
  exact ⟨hsplits, hfault, (hbytes bytes lines _ hsplits).2 hfault⟩

end Program

end Entailment
