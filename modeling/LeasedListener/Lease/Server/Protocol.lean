import LeasedListener.Lease.Object
import LeasedListener.Text.Decimal
import LeasedListener.Text.Quoted

/-!
# Lease objects on a server

A lease object can be kept by a key-value server, as a hash with the fields
`holder`, `expires` and `duration`, the times in milliseconds.  Each change is
a script that the server runs as a whole; its result is a number.  A server
that does not know a script yet is sent the text and asked again.
-/

namespace LeasedListener

inductive LeaseScript
  | acquire
  | renew
  | release
deriving DecidableEq

def LeaseScript.text : LeaseScript → String
  | .acquire => "
if redis.call('EXISTS', KEYS[1]) == 0 then return -1 end
local t = redis.call('TIME')
local now = tonumber(t[1]) * 1000 + math.floor(tonumber(t[2]) / 1000)
local holder = redis.call('HGET', KEYS[1], 'holder') or ''
local expires = tonumber(redis.call('HGET', KEYS[1], 'expires') or '0')
if holder ~= '' and holder ~= ARGV[1] and expires > now then return 0 end
redis.call('HSET', KEYS[1], 'holder', ARGV[1], 'expires', now + tonumber(ARGV[2]), 'duration', ARGV[2])
return 1
"
  | .renew => "
if redis.call('EXISTS', KEYS[1]) == 0 then return -1 end
local holder = redis.call('HGET', KEYS[1], 'holder') or ''
if holder == '' then return -2 end
if holder ~= ARGV[1] then return 0 end
local t = redis.call('TIME')
local now = tonumber(t[1]) * 1000 + math.floor(tonumber(t[2]) / 1000)
local duration = tonumber(redis.call('HGET', KEYS[1], 'duration') or '0')
redis.call('HSET', KEYS[1], 'expires', now + duration)
return 1
"
  | .release => "
if redis.call('EXISTS', KEYS[1]) == 0 then return -1 end
local holder = redis.call('HGET', KEYS[1], 'holder') or ''
if holder == '' then return -2 end
if holder ~= ARGV[1] then return 0 end
redis.call('HSET', KEYS[1], 'holder', '', 'expires', 0)
return 1
"

inductive ServerCommand
  /-- Run a script, known by its digest, on a key. -/
  | evaluate (script : LeaseScript) (key : String) (arguments : List String)
  | load (script : LeaseScript)
  /-- Give a hash an empty holder, unless it has one. -/
  | create (key : String)
deriving DecidableEq

/-- The words of a command, where `digest` names the scripts. -/
def ServerCommand.words (digest : LeaseScript → String) : ServerCommand → List String
  | .evaluate script key arguments => ["EVALSHA", digest script, "1", key] ++ arguments
  | .load script => ["SCRIPT", "LOAD", script.text]
  | .create key => ["HSETNX", key, "holder", ""]

inductive ServerReply
  | integer (n : Int)
  | simple (text : String)
  | bulk (text : String)
  | nil
  | array
  | failure (line : String)
  /-- What comes is no reply. -/
  | garbled
  /-- The connection is lost. -/
  | dropped
deriving DecidableEq

inductive ServerFailure
  /-- The answer of the script says so. -/
  | refused (error : StorageError)
  | unreachable
  | unusable
deriving DecidableEq

def ServerFailure.toStorageError : ServerFailure → StorageError
  | .refused error => error
  | .unreachable => .connection "no connection to the lease server"
  | .unusable => .other "unusable answer of the lease server"

namespace ServerReply

/-- The number that a text denotes, within 64 bits and with at most one
sign. -/
def numberOfText? (text : List Char) : Option Int :=
  match text with
  | '-' :: digits =>
      if digits.isEmpty then none
      else ((digitsValue? 0 digits).filter (· ≤ 9223372036854775808)).map fun n => -(n : Int)
  | _ => (readUnsigned? 9223372036854775808 text).map Int.ofNat

def number? : ServerReply → Except ServerFailure Int
  | .integer n => .ok n
  | .simple text | .bulk text =>
      match numberOfText? text.toList with
      | some n => .ok n
      | none => .error .unusable
  | .nil | .array | .failure _ | .garbled => .error .unusable
  | .dropped => .error .unreachable

/-- Why a command whose reply does not matter has failed, if it has. -/
def failure? : ServerReply → Option ServerFailure
  | .failure _ | .garbled => some .unusable
  | .dropped => some .unreachable
  | .integer _ | .simple _ | .bulk _ | .nil | .array => none

/-- Whether the server does not know the script that it was asked to run. -/
def isUnknownScript : ServerReply → Bool
  | .failure line => line.toList.takeWhile (· ≠ ' ') = "NOSCRIPT".toList
  | _ => false

/-- The reply that a line of the server's protocol stands for.  A text of known
length comes with a second line.  The word `close` ends the connection. -/
def ofLine (line : String) : ServerReply :=
  if line = "close" then .dropped
  else
    match line.toList with
    | '-' :: text => .failure (String.ofList text)
    | '+' :: text => .simple (String.ofList text)
    | ':' :: text =>
        match numberOfText? text with
        | some n => .integer n
        | none => .garbled
    | '$' :: '-' :: _ => .nil
    | '$' :: text => .bulk (String.ofList ((text.dropWhile (· ≠ '\n')).drop 1))
    | '*' :: _ => .array
    | _ => .garbled

/-- The reply of a server whose replies to come are given; past their end it
answers one. -/
def next : List ServerReply → ServerReply × List ServerReply
  | [] => (.integer 1, [])
  | reply :: rest => (reply, rest)

/-- The replies of a server that accepts every script that it is sent. -/
def accepting (replies : List ServerReply) : List ServerReply :=
  replies.flatMap fun reply =>
    if reply.isUnknownScript then [reply, .simple "loaded"] else [reply]

end ServerReply

def defaultKeyspace : String := "triggerhost:lease"

/-- The name of a lease object and the key under which a server keeps it. -/
structure ServerLease where
  name : String
  key : String

namespace ServerLease

def create (name : String) (keyspace : Option String) : ServerLease :=
  ⟨name, keyspace.getD defaultKeyspace ++ ":" ++ name⟩

/-- What the result of a script means. -/
def interpret (lease : ServerLease) (conflict : String → StorageError) :
    Int → Except ServerFailure Unit
  | 1 => .ok ()
  | 0 => .error (.refused (conflict lease.name))
  | -1 => .error (.refused (.blobNotFound lease.name))
  | -2 => .error (.refused (.leaseNotPresent lease.name))
  | n => .error (.refused (.other s!"unexpected lease script result {n} for '{lease.name}'"))

/-- A call as a server sees it: the commands and their replies in turn, and what
comes of it. -/
structure Exchange (α : Type) where
  turns : List (ServerCommand × ServerReply)
  result : Except ServerFailure α
  /-- The replies that the call has left. -/
  replies : List ServerReply

def Exchange.commands {α : Type} (e : Exchange α) : List ServerCommand := e.turns.map (·.1)

/-- Run a script; if the server does not know it, load it and run it once
more. -/
def evaluate (lease : ServerLease) (script : LeaseScript) (arguments : List String)
    (replies : List ServerReply) : Exchange Int :=
  let command := ServerCommand.evaluate script lease.key arguments
  let (first, rest) := ServerReply.next replies
  if first.isUnknownScript then
    let (loaded, rest) := ServerReply.next rest
    match loaded.failure? with
    | some failure => ⟨[(command, first), (.load script, loaded)], .error failure, rest⟩
    | none =>
        let (second, rest) := ServerReply.next rest
        ⟨[(command, first), (.load script, loaded), (command, second)], second.number?, rest⟩
  else ⟨[(command, first)], first.number?, rest⟩

/-- The length of a lease as the server is told it: whole milliseconds, at
most the largest number of 64 bits. -/
def millis (duration : Duration) : Nat := min duration.wholeMillis (UInt64.size - 1)

def script : LeaseCall → Option (LeaseScript × List String × (String → StorageError))
  | .acquire duration holder =>
      some (.acquire, [holder.text, toString (millis duration)], .leaseAlreadyPresent)
  | .renew holder => some (.renew, [holder.text], .leaseIdMismatch)
  | .release holder => some (.release, [holder.text], .leaseIdMismatch)
  | .ensure => none

def granted : (call : LeaseCall) → call.Reply
  | .acquire _ holder => holder
  | .renew _ => ()
  | .release _ => ()
  | .ensure => ()

/-- Make a call on a server that can be reached and will send these replies. -/
def run (lease : ServerLease) (call : LeaseCall) (replies : List ServerReply) :
    Exchange call.Reply :=
  match script call with
  | some (script, arguments, conflict) =>
      let exchange := lease.evaluate script arguments replies
      { turns := exchange.turns
        result := (exchange.result.bind (lease.interpret conflict)).map fun _ => granted call
        replies := exchange.replies }
  | none =>
      let (reply, rest) := ServerReply.next replies
      ⟨[(.create lease.key, reply)], reply.number?.map fun _ => granted call, rest⟩

/-- Make a call on a server that may be out of reach. -/
def call (lease : ServerLease) (reachable : Bool) (call : LeaseCall) (replies : List ServerReply) :
    Exchange call.Reply :=
  if reachable then lease.run call replies
  else ⟨[], .error .unreachable, replies⟩

/-- The text of the object for people who look for faults. -/
def debugText (lease : ServerLease) : String :=
  "RedisLeaseBlob \x7b name: " ++ quoted lease.name ++ ", key: " ++ quoted lease.key ++ " \x7d"

end ServerLease

end LeasedListener
