/-!
# Panics — calls that are broken off

The program checks its arithmetic on machine words, and a block of memory
has a greatest size. Where a size would pass a word, or a block would be too
large, the program panics: the call is broken off where it stands and returns
neither a result nor an error. What it had changed by then stays changed.
-/

namespace RecordStore

/-- Why a call was broken off. -/
inductive Panic where
  | multiplyOverflow
  | addOverflow
  /-- More was asked for than a block of memory may have. -/
  | capacityOverflow
  deriving DecidableEq, Repr

namespace Panic

/-- The panic in words. -/
def message : Panic → String
  | multiplyOverflow => "attempt to multiply with overflow"
  | addOverflow => "attempt to add with overflow"
  | capacityOverflow => "capacity overflow"

end Panic

/-- What comes of something that may panic. -/
inductive Attempt (α : Type) where
  | done (a : α)
  | panicked (p : Panic)
  deriving DecidableEq, Repr

namespace Attempt

variable {α β : Type}

/-- The attempt with its result put in other words. -/
def map (f : α → β) : Attempt α → Attempt β
  | done a => .done (f a)
  | panicked p => .panicked p

/-- Goes on with the result, if there is one. -/
def bind (attempt : Attempt α) (f : α → Attempt β) : Attempt β :=
  match attempt with
  | done a => f a
  | panicked p => .panicked p

end Attempt

end RecordStore
