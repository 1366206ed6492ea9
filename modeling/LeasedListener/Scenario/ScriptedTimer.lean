import LeasedListener.Scenario.World

/-!
# Scripted timers

Timers whose commands do as a script says, one entry for each step.
-/

namespace LeasedListener

/-- How one step of a scripted command goes. -/
structure StepEntry where
  succeeds : Bool := true
  length : Duration := .zero
  /-- Whether a cancellation ends the step early. -/
  heeds : Bool := false
  error : Option StorageError := none
  breaksDown : Bool := false
  /-- The interval that the command asks for from this step on. -/
  interval : Option Duration := none

/-- How a scripted command chooses its interval. -/
inductive Cadence
  | steady (interval : Duration)
  | backoff (pace : Pace Backoff)
  | speedup (pace : Pace Speedup)

namespace Cadence

def interval : Cadence → Duration
  | .steady interval => interval
  | .backoff pace => pace.next
  | .speedup pace => pace.next

def atStart (entry : StepEntry) : Cadence → Cadence
  | .steady interval => .steady (entry.interval.getD interval)
  | other => other

def afterResult (result : Except StorageError Bool) : Cadence → Cadence
  | .steady interval => .steady interval
  | .backoff pace => .backoff (pace.afterResult result)
  | .speedup pace => .speedup (pace.afterResult result)

end Cadence

structure ScriptedCommand where
  script : List StepEntry
  standard : StepEntry
  cadence : Cadence

/-- A scripted step under way. -/
structure ScriptedStep where
  entry : StepEntry
  ends : Option Nat

abbrev ScriptedTimer := Timer ScriptedCommand ScriptedStep

namespace ScriptedCommand

def entryResult (entry : StepEntry) : Except StorageError Bool :=
  match entry.error with
  | some error => .error error
  | none => .ok entry.succeeds

def finish (w : World) (c : ScriptedCommand) (entry : StepEntry) :
    Progress (World × ScriptedCommand) ScriptedStep (Except StorageError Unit) :=
  let result := entryResult entry
  .ended (w, { c with cadence := c.cadence.afterResult result }) (result.map fun _ => ())

def drive (timer : String) : Drive World ScriptedCommand ScriptedStep where
  interval _ c := c.cadence.interval
  enter w c :=
    let entry := c.script.head?.getD c.standard
    let c := { c with script := c.script.tail, cadence := c.cadence.atStart entry }
    let w := w.stepStarted timer
    if entry.breaksDown then .died (w, c) "task panicked with message \"scripted panic\""
    else if entry.length.isZero then finish w c entry
    else .continues (w, c) ⟨entry, Instant.waitEnd w.now entry.length⟩
  advance w c cancelled step :=
    if Instant.reached w.now step.ends || (cancelled && step.entry.heeds) then
      some (finish w c step.entry)
    else none

end ScriptedCommand

end LeasedListener
