/-!
# Log records

Reading and running a program leaves a trail of records.  A `Logged` computation is a value
together with the records of the work that led to it, in order.
-/

namespace Entailment

/-- How important a record is. -/
inductive Level where
  | trace
  | debug
  | error
  deriving DecidableEq, Repr

/-- The part of the work a record is about. -/
inductive Topic where
  | lexer
  | parser
  | truthTable
  | interpreter
  deriving DecidableEq, Repr

/-- One record. -/
structure Record where
  /-- Its importance. -/
  level : Level
  /-- What it is about. -/
  topic : Topic
  /-- Its text. -/
  message : String
  deriving DecidableEq, Repr

/-- A value and the records of the work that led to it. -/
structure Logged (α : Type) where
  /-- The value. -/
  value : α
  /-- The records, first one first. -/
  records : List Record

namespace Logged

variable {α β ε : Type}

/-- The value after the records of the work before it. -/
def bind (x : Logged α) (f : α → Logged β) : Logged β :=
  let y := f x.value
  ⟨y.value, x.records ++ y.records⟩

instance : Monad Logged where
  pure value := ⟨value, []⟩
  bind := bind

/-- Leaves one record. -/
def note (record : Record) : Logged Unit := ⟨(), [record]⟩

/-- A result with records that are left only when it is a success. -/
def onSuccess (result : Except ε α) (records : α → List Record) : Logged (Except ε α) :=
  match result with
  | .ok value => ⟨.ok value, records value⟩
  | .error error => ⟨.error error, []⟩

@[simp] theorem value_pure (value : α) : (pure value : Logged α).value = value := rfl

@[simp] theorem records_pure (value : α) : (pure value : Logged α).records = [] := rfl

@[simp] theorem value_bind (x : Logged α) (f : α → Logged β) :
    (x >>= f).value = (f x.value).value := rfl

@[simp] theorem records_bind (x : Logged α) (f : α → Logged β) :
    (x >>= f).records = x.records ++ (f x.value).records := rfl

@[simp] theorem value_onSuccess (result : Except ε α) (records : α → List Record) :
    (onSuccess result records).value = result := by
  cases result <;> rfl

end Logged

end Entailment
