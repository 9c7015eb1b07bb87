import Entailment.Proofs.Course
import Entailment.Proofs.Encoding

/-!
# Sinks that fail

What a program writes does not depend on the sink, as long as the sink takes it.  So a sink that
takes only so many bytes receives the beginning of what a sink that never fails would receive, and
the program stops where the sink does.

* `Sink.Reliable`, `Sink.Limited` : the two kinds of sinks, told apart by what they do with texts
  that are written one after the other;
* `Buffer.writeAll_eq_write` : a buffer does not tell texts apart that are written one after the
  other, so that it is a sink of one kind or the other;
* `Program.run_limited` : **a sink with a limit receives the output up to the limit**, and the
  program fails exactly when there would have been more.
-/

namespace Entailment

/-! ### Reliable and limited sinks -/

namespace Sink

variable {σ : Type} [Sink σ] {output : σ → List UInt8} {sink : σ}

/-- All the texts are taken, and the sink can be flushed after them.  What the sink has taken is
seen through `output`. -/
def Takes (output : σ → List UInt8) (sink : σ) (texts : List String) : Prop :=
  ∃ after flushed, writeAll sink texts = (after, .ok ()) ∧ flush after = (flushed, .ok ()) ∧
    output after = texts.flatMap Source.encode ∧ output flushed = texts.flatMap Source.encode

/-- The sink never fails: it takes whatever is written. -/
def Reliable (output : σ → List UInt8) (sink : σ) : Prop := ∀ texts, Takes output sink texts

/-- The sink takes `limit` bytes in all, and fails when there are more. -/
structure Limited (output : σ → List UInt8) (limit : ℕ) (fault : StreamError) (sink : σ) :
    Prop where
  /-- Up to the limit everything is taken. -/
  fits : ∀ texts : List String, (texts.flatMap Source.encode).length ≤ limit →
    Takes output sink texts
  /-- Beyond the limit nothing is. -/
  overflows : ∀ texts : List String, limit < (texts.flatMap Source.encode).length →
    ∃ after, writeAll sink texts = (after, .error fault) ∧
      output after = (texts.flatMap Source.encode).take limit

end Sink

/-! ### Buffers -/

namespace Buffer

/-- The sink that takes `limit` bytes and then fails. -/
def bounded (limit : ℕ) (fault : StreamError) : Buffer :=
  { room? := some limit, overflow := fault }

/-- What is left of the room after a text is there for the next one. -/
theorem write_append_of_taken {buffer after : Buffer} {text : String}
    (h : buffer.write text = (after, .ok ())) (more : String) :
    buffer.write (text ++ more) = after.write more := by
  obtain ⟨taken, _ | room, overflow, flushFault?⟩ := buffer
  · cases h
    simp [write, Source.encode_append]
  · simp only [write, Prod.mk.injEq] at h
    obtain ⟨rfl, hresult⟩ := h
    split_ifs at hresult with hfits
    have hroom : (Source.encode text).length + (Source.encode more).length ≤ room ↔
        (Source.encode more).length ≤ room - (Source.encode text).length := by omega
    simp [write, Source.encode_append, List.take_append, List.take_of_length_le hfits, hroom,
      Nat.sub_sub]

/-- After a text that does not fit there is no room for another one. -/
theorem write_append_of_fault {buffer after : Buffer} {text : String} {fault : StreamError}
    (h : buffer.write text = (after, .error fault)) (more : String) :
    buffer.write (text ++ more) = (after, .error fault) := by
  obtain ⟨taken, _ | room, overflow, flushFault?⟩ := buffer
  · cases h
  · simp only [write, Prod.mk.injEq] at h
    obtain ⟨rfl, hresult⟩ := h
    split_ifs at hresult with hfits
    cases hresult
    have hover : ¬ (Source.encode text).length + (Source.encode more).length ≤ room := by omega
    have htake : room - (Source.encode text).length = 0 := by omega
    have hroom : room - ((Source.encode text).length + (Source.encode more).length) = 0 := by omega
    simp [write, Source.encode_append, List.take_append, hover, htake, hroom]

/-- A buffer takes texts that are written one after the other as it takes one text. -/
theorem writeAll_eq_write (buffer : Buffer) (texts : List String) :
    Sink.writeAll buffer texts = buffer.write (String.join texts) := by
  induction texts generalizing buffer with
  | nil =>
    have hempty : Source.encode "" = [] := rfl
    obtain ⟨taken, _ | room, overflow, flushFault?⟩ := buffer <;>
      simp [Sink.writeAll, write, hempty]
  | cons text rest ih =>
    rw [String.join_cons, Sink.writeAll]
    rcases hwrite : Sink.write buffer text with ⟨after, fault | ⟨⟨⟩⟩⟩
    · exact (write_append_of_fault hwrite _).symm
    · rw [write_append_of_taken hwrite]
      exact ih after

/-- A buffer without a bound never fails. -/
theorem reliable_unbounded : Sink.Reliable output unbounded := by
  intro texts
  refine ⟨_, _, writeAll_eq_write unbounded texts, rfl, ?_, ?_⟩ <;>
    simp [output, unbounded, Source.encode_join]

/-- A bounded buffer fails at its bound. -/
theorem limited_bounded (limit : ℕ) (fault : StreamError) :
    Sink.Limited output limit fault (bounded limit fault) := by
  have hwrite := writeAll_eq_write (bounded limit fault)
  refine ⟨fun texts hfits => ?_, fun texts hover => ?_⟩
  · rw [← Source.encode_join] at hfits
    refine ⟨_, _, (hwrite texts).trans (Prod.ext rfl (if_pos hfits)), rfl, ?_, ?_⟩ <;>
      simp [output, bounded, write, ← Source.encode_join, List.take_of_length_le hfits]
  · rw [← Source.encode_join] at hover
    refine ⟨_, (hwrite texts).trans (Prod.ext rfl (if_neg (Nat.not_le.2 hover))), ?_⟩
    simp [output, bounded, write, ← Source.encode_join]

end Buffer

/-! ### Programs -/

namespace Program

variable {σ τ : Type} [Sink σ] [Sink τ]

/-- A sink that takes the texts of a program has taken nothing else when the program has ended. -/
theorem exists_ended_of_takes {output : σ → List UInt8} {sink : σ} {course : Course}
    (h : Sink.Takes output sink course.texts) (config : Config) :
    ∃ after last, Sink.writeAll sink course.texts = (after, .ok ()) ∧
      course.ended config after = ⟨course.reached config last, course.result⟩ ∧
      output last = course.texts.flatMap Source.encode := by
  obtain ⟨after, flushed, hwrite, hflush, hafter, hflushed⟩ := h
  cases hresult : course.result with
  | error error => exact ⟨after, after, hwrite, by rw [Course.ended, hresult], hafter⟩
  | ok value =>
    refine ⟨after, flushed, hwrite, ?_, hflushed⟩
    simp only [Course.ended, hresult, Session.flush, Course.reached, hflush]
    rfl

/-- A program whose texts are all taken ends as its course does, and they are its output. -/
theorem run_of_takes {output : σ → List UInt8} {sink : σ} {config : Config} {text : String}
    (h : Sink.Takes output sink (Course.ofText config text).texts) :
    output (run config sink text).value.session.sink =
        (Course.ofText config text).texts.flatMap Source.encode ∧
      (run config sink text).value.result = (Course.ofText config text).result := by
  obtain ⟨after, last, hwrite, hended, hlast⟩ := exists_ended_of_takes h config
  rw [run_of_taken hwrite, hended]
  exact ⟨hlast, rfl⟩

/-- **A sink with a limit receives the output up to the limit.**  Let a program be run with a sink
that never fails, and with one that takes `limit` bytes and then fails.  The second one has taken
the first `limit` bytes of what the first one has taken.  If that is all, the program ends in the
same way, and otherwise with the fault of the sink. -/
theorem run_limited {shown : τ → List UInt8} {free : τ} (hfree : Sink.Reliable shown free)
    {output : σ → List UInt8} {limit : ℕ} {fault : StreamError} {limited : σ}
    (hlimited : Sink.Limited output limit fault limited) (config : Config) (text : String) :
    let whole := (run config free text).value
    let cut := (run config limited text).value
    output cut.session.sink = (shown whole.session.sink).take limit ∧
      ((shown whole.session.sink).length ≤ limit → cut.result = whole.result) ∧
      (limit < (shown whole.session.sink).length → cut.result = .error (.stream fault)) := by
  intro whole cut
  obtain ⟨hshown, hwhole⟩ := run_of_takes (hfree (Course.ofText config text).texts)
  rw [hshown, hwhole]
  by_cases hfits : ((Course.ofText config text).texts.flatMap Source.encode).length ≤ limit
  · obtain ⟨houtput, hcut⟩ := run_of_takes (hlimited.fits _ hfits)
    rw [houtput, hcut, List.take_of_length_le hfits]
    exact ⟨rfl, fun _ => rfl, fun hover => absurd hfits (Nat.not_le.2 hover)⟩
  · obtain ⟨after, hwrite, hafter⟩ := hlimited.overflows _ (Nat.not_le.1 hfits)
    obtain ⟨hsink, hresult⟩ := run_of_fault hwrite
    rw [hsink, hresult]
    exact ⟨hafter, fun h => absurd h hfits, fun _ => rfl⟩

/-- A program that prints `∧` and then asks about an argument that is not defined writes four bytes,
the sign and a newline.  A sink that takes two of them ends up with a part of the sign, and the
program fails by the sink and not by the argument. -/
theorem run_limited_inside_sign :
    let text := "print \"∧\"\nassert a"
    let whole := (run {} Buffer.unbounded text).value
    let cut := (run {} (Buffer.bounded 2 ⟨.other, "sink full"⟩) text).value
    (Sink.Reliable Buffer.output Buffer.unbounded ∧
      Sink.Limited Buffer.output 2 ⟨.other, "sink full"⟩
        (Buffer.bounded 2 ⟨.other, "sink full"⟩)) ∧
      whole.session.sink.output = [226, 136, 167, 10] ∧
      whole.result = .error (.unknownArgument "a") ∧
      cut.session.sink.output = [226, 136] ∧
      cut.result = .error (.stream ⟨.other, "sink full"⟩) := by
  intro text whole cut
  have hfree := Buffer.reliable_unbounded
  have hlimited := Buffer.limited_bounded 2 ⟨.other, "sink full"⟩
  have hwhole : whole.session.sink.output = [226, 136, 167, 10] := by decide +kernel
  obtain ⟨hcut, -, hfails⟩ := run_limited hfree hlimited {} text
  refine ⟨⟨hfree, hlimited⟩, hwhole, by decide +kernel, ?_, hfails ?_⟩
  · rw [hcut, hwhole]
    rfl
  · rw [hwhole]
    decide

end Program

end Entailment
