import LeasedListener.Scenario.Answer

/-!
# Steps on storage

The steps that work on queues, messages, claims, lease objects and gateways
by hand.
-/

namespace LeasedListener

namespace ScenarioState

def now (s : ScenarioState) : Nat := s.world.now

def queueView (s : ScenarioState) (q : String) : QueueView :=
  let queue := s.world.queue q
  { length := queue.messages.length
    visible := queue.visibleCount s.now
    known := ((s.known.get? q).getD []).filterMap fun id =>
      (queue.find? id).map fun m => (id, m.dequeueCount)
    bodies := queue.bodies }

def leaseView (s : ScenarioState) (b : String) : LeaseView :=
  ⟨(s.world.container.get b).isPresent, s.world.container.holder? b s.now⟩

def setQueue (s : ScenarioState) (q : String) (queue : Queue) : ScenarioState :=
  { s with world := { s.world with queues := s.world.queues.set q queue } }

/-- Remember that a step has added a message. -/
def addKnown (s : ScenarioState) (q : String) (id : MessageId) : ScenarioState :=
  { s with known := s.known.set q ((s.known.get? q).getD [] ++ [id]) }

def callQueue (s : ScenarioState) (q : String) (call : QueueCall) :
    ScenarioState × Except StorageError call.Reply :=
  let (world, reply) := s.world.callQueue q call (.direct s.now)
  ({ s with world }, reply)

def callLease (s : ScenarioState) (b : String) (call : LeaseCall) :
    ScenarioState × Except StorageError call.Reply :=
  let (world, reply) := s.world.callLease b call (.direct s.now)
  ({ s with world }, reply)

def enqueue (s : ScenarioState) (q : String) (body : List UInt8) : ScenarioState × Answer :=
  match s.callQueue q (.enqueue body) with
  | (s, .ok id) => (s.addKnown q id, .messageId id)
  | (s, .error error) => (s, .storageError error)

def push (s : ScenarioState) (q : String) (body : List UInt8) (count : UInt32) :
    ScenarioState × Answer :=
  let id := s.world.serials.freshMessage
  let queue := (s.world.queue q).push id body count s.now (Surroundings.wallClock s.world)
  let s := s.setQueue q queue
  let s := { s with world := { s.world with serials := s.world.serials.messageUsed } }
  (s.addKnown q id, .messageId id)

def dequeue (s : ScenarioState) (q : String) (window : Duration) (slot : String) :
    ScenarioState × Answer :=
  match s.callQueue q (.dequeue window) with
  | (s, .ok (some m)) => ({ s with slots := s.slots.set slot m }, .message (some m))
  | (s, .ok none) => (s, .message none)
  | (s, .error error) => (s, .storageError error)

def update (s : ScenarioState) (q slot : String) (window : Duration) (keep : Bool) :
    ScenarioState × Answer :=
  match s.slots.get? slot with
  | none => (s, .noMessage)
  | some m =>
      match s.callQueue q (.update m window) with
      | (s, .ok receipt) =>
          (if keep then s else { s with slots := s.slots.set slot { m with receipt } },
            .receipt receipt)
      | (s, .error error) => (s, .storageError error)

def delete (s : ScenarioState) (q slot : String) : ScenarioState × Answer :=
  match s.slots.get? slot with
  | none => (s, .noMessage)
  | some m =>
      let (s, reply) := s.callQueue q (.delete m)
      (s, .ofResult (fun _ => .done) reply)

def find (s : ScenarioState) (q slot : String) : ScenarioState × Answer :=
  match s.slots.get? slot with
  | none => (s, .noMessage)
  | some m => (s, .found (((s.world.queue q).find? m.id).map (·.dequeueCount)))

/-- Replace the identity of a message by a fresh one. -/
def renumber (s : ScenarioState) (m : Delivery) : ScenarioState × Delivery :=
  let serials := s.world.serials
  ({ s with world := { s.world with serials := serials.messageUsed } },
    { m with id := serials.freshMessage })

/-- Replace the receipt of a message by a fresh one. -/
def reissue (s : ScenarioState) (m : Delivery) : ScenarioState × Delivery :=
  let serials := s.world.serials
  ({ s with world := { s.world with serials := serials.receiptUsed } },
    { m with receipt := serials.freshReceipt })

def copyMessage (s : ScenarioState) (source target : String) (receiptOf : Option String)
    (newId newReceipt : Bool) : ScenarioState × Answer :=
  match s.slots.get? source, receiptOf.map s.slots.get? with
  | none, _ | _, some none => (s, .noMessage)
  | some m, donor =>
      let m := match donor with
        | some (some other) => { m with receipt := other.receipt }
        | _ => m
      let (s, m) := if newId then s.renumber m else (s, m)
      let (s, m) := if newReceipt then s.reissue m else (s, m)
      ({ s with slots := s.slots.set target m }, .message (some m))

def claim (s : ScenarioState) (slot c : String) : ScenarioState × Answer :=
  match s.slots.get? slot with
  | none => (s, .noMessage)
  | some m => ({ s with claims := s.claims.set c (.create m) }, .done)

def claimState (s : ScenarioState) (c : String) (slot : Option String) : ScenarioState × Answer :=
  match s.claims.get? c with
  | none => (s, .absent)
  | some claim =>
      match slot with
      | some slot => ({ s with slots := s.slots.set slot claim.message }, .claim claim)
      | none => (s, .claim claim)

def openGateway (s : ScenarioState) (name : String) (script : List ScriptEntry) :
    ScenarioState :=
  { s with world := s.world.openGateway name script }

def takeCalls (s : ScenarioState) (gateway : String) : ScenarioState × Answer :=
  let g := s.world.gateway gateway
  let gateways := s.world.gateways.set gateway { g with calls := [] }
  ({ s with world := { s.world with gateways } }, .calls g.calls)

def addScript (s : ScenarioState) (gateway : String) (script : List ScriptEntry) :
    ScenarioState :=
  let g := s.world.gateway gateway
  let gateways := s.world.gateways.set gateway { g with script := g.script ++ script }
  { s with world := { s.world with gateways } }

def renew (s : ScenarioState) (n : String) : ScenarioState × Answer :=
  match s.renewals.get? n with
  | none => (s, .absent)
  | some r =>
      match s.claims.get? r.claim with
      | none => (s, .absent)
      | some claim =>
          let (s, result) :=
            awaitFrom (s.afterRenewal n r ((renewalAttempt n r).enter (s.world, claim)))
          (s, .ofWait result)

end ScenarioState

end LeasedListener
