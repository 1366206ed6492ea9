import LeasedListener.Instant
import LeasedListener.Storage.Gateway
import LeasedListener.Table

/-!
# Lease objects

A lease object exists or not, and carries at most one lease.  A lease that
has run out no longer keeps others from acquiring the object, but its holder
can renew it as long as nobody did.
-/

namespace LeasedListener

structure ActiveLease where
  holder : Identifier
  /-- The length that every renewal grants again. -/
  duration : Duration
  expiresAt : Nat
deriving DecidableEq

namespace ActiveLease

def grant (now : Nat) (duration : Duration) (holder : Identifier) : ActiveLease :=
  ⟨holder, duration, Instant.windowEnd now duration⟩

def isExpired (lease : ActiveLease) (now : Nat) : Bool := lease.expiresAt ≤ now

end ActiveLease

inductive LeaseObject
  | missing
  | free
  | leased (lease : ActiveLease)
deriving DecidableEq

namespace LeaseObject

instance : Inhabited LeaseObject := ⟨missing⟩

def isPresent : LeaseObject → Bool
  | missing => false
  | _ => true

/-- The holder of a lease that has not run out. -/
def holder? (object : LeaseObject) (now : Nat) : Option Identifier :=
  match object with
  | .leased lease => if lease.isExpired now then none else some lease.holder
  | _ => none

def acquire (name : String) (now : Nat) (duration : Duration) (holder : Identifier)
    (object : LeaseObject) : LeaseObject × Except StorageError Identifier :=
  match object with
  | .missing => (.missing, .error (.blobNotFound name))
  | .free => (.leased (.grant now duration holder), .ok holder)
  | .leased lease =>
      if !lease.isExpired now ∧ lease.holder ≠ holder then
        (.leased lease, .error (.leaseAlreadyPresent name))
      else (.leased (.grant now duration holder), .ok holder)

/-- Extend a lease, even one that has run out, by its own length. -/
def renew (name : String) (now : Nat) (holder : Identifier)
    (object : LeaseObject) : LeaseObject × Except StorageError Unit :=
  match object with
  | .missing => (.missing, .error (.blobNotFound name))
  | .free => (.free, .error (.leaseNotPresent name))
  | .leased lease =>
      if lease.holder = holder then (.leased (.grant now lease.duration holder), .ok ())
      else (.leased lease, .error (.leaseIdMismatch name))

def release (name : String) (holder : Identifier)
    (object : LeaseObject) : LeaseObject × Except StorageError Unit :=
  match object with
  | .missing => (.missing, .error (.blobNotFound name))
  | .free => (.free, .error (.leaseNotPresent name))
  | .leased lease =>
      if lease.holder = holder then (.free, .ok ())
      else (.leased lease, .error (.leaseIdMismatch name))

def ensure : LeaseObject → LeaseObject
  | .missing => .free
  | object => object

end LeaseObject

inductive LeaseCall
  | acquire (duration : Duration) (holder : Identifier)
  | renew (holder : Identifier)
  | release (holder : Identifier)
  | ensure

namespace LeaseCall

def Reply : LeaseCall → Type
  | .acquire .. => Identifier
  | _ => Unit

def kind : LeaseCall → CallKind
  | .acquire .. => .acquire
  | .renew _ => .renew
  | .release _ => .release
  | .ensure => .ensure

def arguments : LeaseCall → List CallArgument
  | .acquire duration holder => [.span duration, .holder holder]
  | .renew holder | .release holder => [.holder holder]
  | .ensure => []

def run (name : String) (now : Nat) :
    (call : LeaseCall) → LeaseObject → LeaseObject × Except StorageError call.Reply
  | .acquire duration holder, object => object.acquire name now duration holder
  | .renew holder, object => object.renew name now holder
  | .release holder, object => object.release name holder
  | .ensure, object => (object.ensure, .ok ())

end LeaseCall

abbrev LeaseAccess (Env : Type) := Access Env LeaseCall LeaseCall.Reply

/-- Lease objects by name; an object without an entry is missing. -/
structure LeaseContainer where
  objects : Table LeaseObject := {}

namespace LeaseContainer

def get (c : LeaseContainer) (name : String) : LeaseObject := (c.objects.get? name).getD .missing

def set (c : LeaseContainer) (name : String) (object : LeaseObject) : LeaseContainer :=
  ⟨c.objects.set name object⟩

/-- Carry out a call on one of the objects. -/
def run (c : LeaseContainer) (name : String) (now : Nat) (call : LeaseCall) :
    LeaseContainer × Except StorageError call.Reply :=
  (c.set name (call.run name now (c.get name)).1, (call.run name now (c.get name)).2)

def delete (c : LeaseContainer) (name : String) : LeaseContainer := c.set name .missing

def holder? (c : LeaseContainer) (name : String) (now : Nat) : Option Identifier :=
  (c.get name).holder? now

@[simp] theorem get_set_self (c : LeaseContainer) (name : String) (object : LeaseObject) :
    (c.set name object).get name = object := by
  simp [get, set]

theorem get_set_of_ne {c : LeaseContainer} {name other : String} (object : LeaseObject)
    (h : other ≠ name) : (c.set name object).get other = c.get other := by
  simp [get, set, Table.get?_set_of_ne object h]

end LeaseContainer

end LeasedListener
