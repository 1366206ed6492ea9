import LeasedListener.Duration
import LeasedListener.Storage.Error

/-!
# Interval policies

How long to wait after a step, given whether it succeeded.  Backoff doubles
the wait after every failure, up to a largest one.  Speedup divides it by one
more than the number of failures in a row, down to a smallest one.  A success
brings either back to its start.
-/

namespace LeasedListener

/-- A rule that chooses the next wait from the outcomes of the steps so far. -/
class IntervalPolicy (α : Type) where
  current : α → Duration
  after : α → Bool → α

namespace IntervalPolicy

variable {α : Type} [IntervalPolicy α]

/-- The policy after each of the outcomes in turn. -/
def trail (policy : α) : List Bool → List α
  | [] => []
  | succeeded :: rest => after policy succeeded :: trail (after policy succeeded) rest

end IntervalPolicy

structure Backoff where
  least : Duration
  most : Duration
  current : Duration

namespace Backoff

/-- A largest wait below the smallest is taken to be the smallest. -/
def start (least most : Duration) : Backoff := ⟨least, max most least, least⟩

def after (b : Backoff) (succeeded : Bool) : Backoff :=
  { b with current :=
      if succeeded then b.least
      else min (max (b.current.twice?.getD b.most) b.least) b.most }

instance : IntervalPolicy Backoff := ⟨Backoff.current, Backoff.after⟩

end Backoff

def mostFailures : Nat := 4294967295

structure Speedup where
  normal : Duration
  least : Duration
  failures : Nat

namespace Speedup

def start (normal least : Duration) : Speedup := ⟨normal, min least normal, 0⟩

def current (s : Speedup) : Duration :=
  max (s.normal.dividedBy (min (s.failures + 1) mostFailures)) s.least

def after (s : Speedup) (succeeded : Bool) : Speedup :=
  { s with failures := if succeeded then 0 else min (s.failures + 1) mostFailures }

instance : IntervalPolicy Speedup := ⟨Speedup.current, Speedup.after⟩

end Speedup

structure Pace (α : Type) where
  policy : α
  next : Duration

namespace Pace

variable {α : Type} [IntervalPolicy α]

def start (policy : α) : Pace α := ⟨policy, IntervalPolicy.current policy⟩

def outcome (p : Pace α) (succeeded : Bool) : Pace α :=
  let policy := IntervalPolicy.after p.policy succeeded
  ⟨policy, IntervalPolicy.current policy⟩

/-- A step that fails with an error counts as one that did not succeed. -/
def afterResult (p : Pace α) : Except StorageError Bool → Pace α
  | .ok succeeded => p.outcome succeeded
  | .error _ => p.outcome false

def trail (p : Pace α) : List (Except StorageError Bool) → List (Pace α)
  | [] => []
  | result :: rest => p.afterResult result :: trail (p.afterResult result) rest

end Pace

end LeasedListener
