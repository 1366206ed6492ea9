import LeasedListener.Instant
import LeasedListener.Queue.Message
import LeasedListener.Storage.Error

/-!
# Gateways

Clients reach a storage service through a gateway, which can hold a call back,
fail it before it has an effect, or lose its answer afterwards, as a script
says.  A gateway keeps a record of the calls that came back.
-/

namespace LeasedListener

inductive CallKind
  | probe
  | create
  | enqueue
  | dequeue
  | update
  | delete
  | acquire
  | renew
  | release
  | ensure
deriving DecidableEq

/-- A failure made by a gateway. -/
structure Fault where
  error : StorageError
  /-- Whether the call has its effect, so that only the answer is lost. -/
  after : Bool

/-- A call on its way: when it arrives, and whether it fails. -/
structure Transit where
  due : Option Nat
  fault : Option Fault

namespace Transit

/-- A call that nothing holds back. -/
def direct (now : Nat) : Transit := ⟨some now, none⟩

def arrived (t : Transit) (now : Nat) : Bool := Instant.reached now t.due

/-- Carry out a call that has arrived.  A lost answer is no answer: where the
call itself fails, its own error comes back. -/
def carry {σ α : Type} (t : Transit) (run : σ → σ × Except StorageError α) (state : σ) :
    σ × Except StorageError α :=
  match t.fault with
  | none => run state
  | some fault =>
      if fault.after then
        match run state with
        | (state, .ok _) => (state, .error fault.error)
        | failed => failed
      else (state, .error fault.error)

end Transit

/-- What a script has in store for the next calls of one kind. -/
structure ScriptEntry where
  call : CallKind
  delay : Duration
  fault : Option Fault
  /-- How many calls the entry is good for. -/
  times : Nat

/-- What a call was made with. -/
inductive CallArgument
  | body (body : List UInt8)
  | span (d : Duration)
  | message (id : MessageId)
  | receipt (receipt : Receipt)
  | holder (id : Identifier)

structure CallRecord where
  time : Nat
  call : CallKind
  arguments : List CallArgument
  /-- The class of the error, if the call failed. -/
  failure : Option ErrorClass

structure Gateway where
  script : List ScriptEntry := []
  calls : List CallRecord := []

namespace Gateway

instance : Inhabited Gateway := ⟨{}⟩

/-- Use the first entry for calls of this kind, if there is one. -/
def takeEntry (call : CallKind) : List ScriptEntry → Option ScriptEntry × List ScriptEntry
  | [] => (none, [])
  | entry :: rest =>
      if entry.call = call then
        (some entry,
          if entry.times ≤ 1 then rest else { entry with times := entry.times - 1 } :: rest)
      else ((takeEntry call rest).1, entry :: (takeEntry call rest).2)

/-- Send a call on its way. -/
def issue (g : Gateway) (now : Nat) (call : CallKind) : Gateway × Transit :=
  match takeEntry call g.script with
  | (none, _) => (g, .direct now)
  | (some entry, script) =>
      ({ g with script },
        { due := if entry.delay.isZero then some now else Instant.waitEnd now entry.delay
          fault := entry.fault })

def record (g : Gateway) (r : CallRecord) : Gateway := { g with calls := g.calls ++ [r] }

end Gateway

/-- How the clients in an environment make the calls of a service. -/
structure Access (Env Call : Type) (Reply : Call → Type) where
  issue : Env → Call → Env × Transit
  perform : Env → (call : Call) → Transit → Env × Except StorageError (Reply call)

def failureOf {α : Type} : Except StorageError α → Option ErrorClass
  | .ok _ => none
  | .error error => some error.errorClass

end LeasedListener
