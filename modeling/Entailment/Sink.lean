import Entailment.Error
import Entailment.Source

/-!
# Sinks

A sink takes the output of a program, and may fail to.  A `Buffer` is a sink that keeps what it
took: it can be bounded, and then takes the bytes that fit and fails on the first one that does
not, or it can fail when it is flushed.
-/

namespace Entailment

/-- Something that output is written to.  After a failure the sink is in the state that the failed
attempt left it in. -/
class Sink (σ : Type) where
  /-- Writes a text. -/
  write : σ → String → σ × Except StreamError Unit
  /-- Passes on what was written. -/
  flush : σ → σ × Except StreamError Unit

/-- A sink that keeps the bytes written to it. -/
structure Buffer where
  /-- The bytes taken so far, last one first. -/
  taken : List UInt8 := []
  /-- The number of bytes that still fit, if it is bounded. -/
  room? : Option Nat := none
  /-- The failure of writing more than fits. -/
  overflow : StreamError := ⟨.other, "sink full"⟩
  /-- The failure of flushing, if flushing fails. -/
  flushFault? : Option StreamError := none
  deriving DecidableEq, Repr

namespace Buffer

/-- An empty sink that never fails. -/
def unbounded : Buffer := {}

/-- The bytes taken so far. -/
def output (buffer : Buffer) : List UInt8 := buffer.taken.reverse

/-- Takes the bytes that fit; fails if not all of them do. -/
def write (buffer : Buffer) (text : String) : Buffer × Except StreamError Unit :=
  let bytes := Source.encode text
  match buffer.room? with
  | none => ({ buffer with taken := bytes.reverse ++ buffer.taken }, .ok ())
  | some room =>
    ({ buffer with
        taken := (bytes.take room).reverse ++ buffer.taken
        room? := some (room - bytes.length) },
      if bytes.length ≤ room then .ok () else .error buffer.overflow)

/-- Does nothing, or fails. -/
def flush (buffer : Buffer) : Buffer × Except StreamError Unit :=
  match buffer.flushFault? with
  | none => (buffer, .ok ())
  | some fault => (buffer, .error fault)

instance : Sink Buffer := ⟨write, flush⟩

end Buffer

end Entailment
