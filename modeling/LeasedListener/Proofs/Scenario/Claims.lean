import LeasedListener.Proofs.Polling.Script
import LeasedListener.Proofs.Queue.Standing
import LeasedListener.Proofs.Scenario.Effects

/-!
# Claims in a world

A claim on a message of a shared queue stands, whatever is done in the world,
unless its receipt is presented or the queue is dropped.
-/

namespace LeasedListener

open Surroundings

/-- The delivery whose receipt a queue has seen. -/
def Doing.claims? : Doing → Option Delivery
  | .answered _ call _ _ => call.presented?
  | _ => none

/-- The operation for which an error may be in store. -/
def QueueCall.operation? : QueueCall → Option QueueOperation
  | .probe | .create => none
  | .enqueue _ => some .enqueue
  | .dequeue _ => some .dequeue
  | .update _ _ => some .update
  | .delete _ => some .delete

/-- If a call fails, it did not have its effect. -/
def Transit.IsHarmless (t : Transit) : Prop := ∀ fault, t.fault = some fault → fault.after = false

namespace World

variable {q : String} {w w' w'' : World} {spared spared' : Delivery → Prop} {m : Delivery}
  {ends : Nat}

def IsNumbered (w : World) (q : String) : Prop := (w.queue q).IsNumbered w.serials.message

/-- The claims on messages of the queue that are spared stand, and no time
passes. -/
structure Keeps (q : String) (spared : Delivery → Prop) (w w' : World) : Prop where
  now : w'.now = w.now
  numbered : w.IsNumbered q → w'.IsNumbered q
  secures : ∀ m ends, spared m → w.IsNumbered q → w.now < ends → (w.queue q).Secures m ends →
    (w'.queue q).Secures m ends

theorem Keeps.trans (h : Keeps q spared w w') (h' : Keeps q spared w' w'') :
    Keeps q spared w w'' where
  now := h'.now.trans h.now
  numbered hnumbered := h'.numbered (h.numbered hnumbered)
  secures m ends hspared hnumbered hlive hsecures :=
    h'.secures m ends hspared (h.numbered hnumbered) (h.now.symm ▸ hlive)
      (h.secures m ends hspared hnumbered hlive hsecures)

theorem Keeps.mono (h : Keeps q spared w w') (hspared : ∀ m, spared' m → spared m) :
    Keeps q spared' w w' where
  now := h.now
  numbered := h.numbered
  secures m ends hm := h.secures m ends (hspared m hm)

/-- The claim stands until `ends`, if that is yet to come. -/
def Upholds (w : World) (q : String) (m : Delivery) (ends : Nat) : Prop :=
  ends ≤ w.now ∨ (w.queue q).Secures m ends

theorem Keeps.upholds (h : Keeps q spared w w') (hspared : spared m) (hnumbered : w.IsNumbered q)
    (hupholds : w.Upholds q m ends) : w'.Upholds q m ends := by
  by_cases hlive : w.now < ends
  · rcases hupholds with hover | hsecures
    · exact absurd hlive (Nat.not_lt.mpr hover)
    · exact .inr (h.secures m ends hspared hnumbered hlive hsecures)
  · exact .inl (h.now.symm ▸ Nat.not_lt.mp hlive)

theorem keeps_of_apart (hnow : w'.now = w.now) (hqueue : w'.queue q = w.queue q)
    (hserials : w.serials.message ≤ w'.serials.message) : Keeps q spared w w' where
  now := hnow
  numbered := by
    intro hnumbered
    unfold IsNumbered
    rw [hqueue]
    exact hnumbered.kept rfl hserials
  secures := by
    intro m ends _ _ _ hsecures
    rw [hqueue]
    exact hsecures

/-- Put a message into a queue that counts as dequeued before. -/
def push (w : World) (name : String) (body : List UInt8) (dequeueCount : UInt32) : World :=
  { w with
    queues := w.queues.set name
      ((w.queue name).push w.serials.freshMessage body dequeueCount w.now (wallClock w))
    serials := w.serials.messageUsed }

theorem queue_push (w : World) (name : String) (body : List UInt8) (dequeueCount : UInt32) :
    (w.push name body dequeueCount).queue name =
      (w.queue name).push w.serials.freshMessage body dequeueCount w.now (wallClock w) := by
  simp [push, queue]

theorem keeps_push (q : String) (w : World) (body : List UInt8) (dequeueCount : UInt32) :
    Keeps q spared w (w.push q body dequeueCount) := by
  constructor
  case now => rfl
  case numbered =>
    intro hnumbered
    unfold IsNumbered
    rw [queue_push]
    exact (Queue.IsNumbered.append hnumbered).kept rfl (Nat.le_refl _)
  case secures =>
    intro m ends _ _ _ hsecures
    rw [queue_push]
    exact ⟨rfl, (Queue.Secures.append hsecures).stored⟩

/-- Change a queue from outside. -/
def amend (w : World) (name : String) (change : Queue → Queue) : World :=
  { w with queues := w.queues.set name (change (w.queue name)) }

theorem queue_amend (w : World) (name : String) (change : Queue → Queue) :
    (w.amend name change).queue name = change (w.queue name) := by
  simp [amend, queue]

theorem keeps_inject (q : String) (w : World) (operation : QueueOperation) (error : StorageError) :
    Keeps q spared w (w.amend q (·.injectFault operation error)) := by
  constructor
  case now => rfl
  case numbered =>
    intro hnumbered
    unfold IsNumbered
    rw [queue_amend]
    exact hnumbered.kept rfl (Nat.le_refl _)
  case secures =>
    intro m ends _ _ _ hsecures
    rw [queue_amend]
    exact hsecures.congr rfl rfl

theorem isNumbered_drop (q : String) (w : World) : (w.amend q Queue.drop).IsNumbered q := by
  unfold IsNumbered
  rw [queue_amend]
  exact ⟨List.Pairwise.nil, by simp [Queue.drop]⟩

theorem keeps_callQueue (q : String) (w : World) (name : String) (call : QueueCall)
    (transit : Transit) :
    Keeps q (fun m => ∀ other, call.presented? = some other → other.id = m.id →
      other.receipt ≠ m.receipt) w (w.callQueue name call transit).1 := by
  by_cases hname : q = name
  · subst hname
    constructor
    case now => rfl
    case numbered =>
      intro hnumbered
      unfold IsNumbered
      rcases w.callQueue_fst q call transit with ⟨hserials, hqueue⟩ | ⟨hserials, hqueue⟩
      · rw [hserials, hqueue]
        exact hnumbered
      · rw [hserials, hqueue]
        exact QueueCall.isNumbered_run call hnumbered
    case secures =>
      intro m ends hspared hnumbered hlive hsecures
      rcases w.callQueue_fst q call transit with ⟨-, hqueue⟩ | ⟨-, hqueue⟩
      · rw [hqueue]
        exact hsecures
      · rw [hqueue]
        exact QueueCall.secures_run call hnumbered.distinct hsecures hlive hspared
  · exact keeps_of_apart rfl (queue_callQueue_of_ne hname w call transit)
      (message_le_callQueue w name call transit)

theorem keeps_execute (w : World) (name : String) (m : Delivery) :
    Keeps q spared w (w.execute name m).1 := by
  obtain ⟨log, executors, hexecute⟩ := w.execute_fst name m
  rw [hexecute]
  exact keeps_of_apart rfl rfl (Nat.le_refl _)

/-- What a poller does spares the claims whose receipts it does not present. -/
theorem keeps_of_does {name tally : String} {poison : Option String} {doings : List Doing}
    (h : Does (pollerAccess name q poison tally) w doings w') :
    Keeps q (fun m => ∀ doing ∈ doings, ∀ other, doing.claims? = some other → other.id = m.id →
      other.receipt ≠ m.receipt) w w' := by
  have happly : ∀ {latest : Doing} {doings : List Doing} {w₁ w₂ : World},
      Keeps q (fun m => ∀ doing ∈ doings, ∀ other, doing.claims? = some other →
        other.id = m.id → other.receipt ≠ m.receipt) w w₁ →
      Keeps q (fun m => ∀ other, latest.claims? = some other → other.id = m.id →
        other.receipt ≠ m.receipt) w₁ w₂ →
      Keeps q (fun m => ∀ doing ∈ latest :: doings, ∀ other, doing.claims? = some other →
        other.id = m.id → other.receipt ≠ m.receipt) w w₂ := by
    intro latest doings w₁ w₂ hbefore hlast
    refine (hbefore.mono ?_).trans (hlast.mono ?_)
    · exact fun m hspared doing hdoing => hspared doing (List.mem_cons_of_mem _ hdoing)
    · exact fun m hspared => hspared latest (List.mem_cons_self ..)
  induction h with
  | rest => exact keeps_of_apart rfl rfl (Nat.le_refl _)
  | report _ _ ih => exact ih.trans (keeps_of_apart rfl rfl (Nat.le_refl _))
  | mark _ _ ih | finish _ _ _ ih =>
      exact happly ih (keeps_of_apart rfl rfl (Nat.le_refl _))
  | start _ _ ih => exact happly ih (keeps_execute _ _ _)
  | begin role _ _ ih =>
      cases role <;> exact happly ih (keeps_of_apart rfl rfl (Nat.le_refl _))
  | @hear doings mid role call sent _ ih =>
      refine happly ih ?_
      cases role with
      | primary =>
          exact (keeps_callQueue q mid q call sent).trans
            (keeps_of_apart rfl rfl (Nat.le_refl _))
      | poison =>
          exact (keeps_callQueue q mid (poison.getD "") call sent).trans
            (keeps_of_apart rfl rfl (Nat.le_refl _))

section

variable {window : Duration} {transit : Transit} {error : StorageError}

/-- A renewal that is accepted makes for a claim that stands, whatever was the
case before. -/
theorem secures_of_update {m' : Delivery}
    (h : (w.callQueue q (.update m window) transit).2 = .ok m'.receipt) (hid : m'.id = m.id) :
    ((w.callQueue q (.update m window) transit).1.queue q).Secures m'
      (Instant.windowEnd w.now window) := by
  obtain ⟨hqueue, hreply⟩ := callQueue_of_ok h
  rw [hqueue]
  by_cases haccepted : (w.queue q).IsOpen .update ∧ (w.queue q).Honours w.now m
  · obtain ⟨hopen, stored, hstored, hproof, hhidden⟩ := haccepted
    rw [QueueCall.run_update_of_honours window hopen ⟨stored, hstored, hproof, hhidden⟩] at hreply ⊢
    have hfresh : m'.receipt = w.serials.freshReceipt := (Except.ok.inj hreply).symm
    have hbefore : (w.queue q).Secures m stored.visibleAt :=
      ⟨hopen.1, stored, hstored, hproof, Nat.le_refl _⟩
    exact hbefore.claimed hid hfresh
  · obtain ⟨after, error, hrun, -⟩ := QueueCall.run_update_of_refused window haccepted
    rw [hrun] at hreply
    cases hreply

/-- A renewal that fails leaves the claims as they are. -/
theorem keeps_of_error {presented : Delivery} (hharmless : transit.IsHarmless)
    (h : (w.callQueue q (.update presented window) transit).2 = .error error) :
    Keeps q (fun _ => True) w (w.callQueue q (.update presented window) transit).1 where
  now := rfl
  numbered := (keeps_callQueue q w q _ transit).numbered
  secures := by
    intro m ends _ _ _ hsecures
    cases hfault : transit.fault with
    | some fault =>
        rw [queue_callQueue_self, Transit.carry_of_refused hfault (hharmless fault hfault)]
        exact hsecures
    | none =>
        obtain ⟨hqueue, hreply⟩ :=
          callQueue_of_faultless hfault w q (.update presented window)
        rw [hreply] at h
        rw [hqueue]
        by_cases haccepted : (w.queue q).IsOpen .update ∧ (w.queue q).Honours w.now presented
        · rw [QueueCall.run_update_of_honours window haccepted.1 haccepted.2] at h
          cases h
        · obtain ⟨after, error', hrun, hmessages, hpresent⟩ :=
            QueueCall.run_update_of_refused window haccepted
          rw [hrun]
          exact hsecures.congr (Queue.find?_congr hmessages _) hpresent

/-- A call that presents the receipt of a claim that stands is not refused. -/
theorem injected_of_error {call : QueueCall} (hcall : call.presented? = some m)
    (hsecures : (w.queue q).Secures m ends) (hlive : w.now < ends)
    (h : (w.callQueue q call transit).2 = .error error) :
    transit.fault.isSome = true ∨
      ∃ fault ∈ (w.queue q).faults, call.operation? = some fault.1 := by
  have hopen : ∀ operation, call.operation? = some operation →
      (¬ ∃ fault ∈ (w.queue q).faults, call.operation? = some fault.1) →
        (w.queue q).IsOpen operation := by
    intro operation hoperation hnone
    refine ⟨hsecures.present, List.find?_eq_none.mpr ?_⟩
    intro fault hfault hsame
    refine hnone ⟨fault, hfault, ?_⟩
    rw [hoperation, of_decide_eq_true hsame]
  cases hfault : transit.fault with
  | some fault => exact .inl rfl
  | none =>
      refine .inr (Classical.byContradiction fun hnone => ?_)
      rw [(callQueue_of_faultless hfault w q call).2] at h
      cases call with
      | probe | create | enqueue _ | dequeue _ => cases hcall
      | update presented window =>
          obtain rfl := Option.some.inj hcall
          rw [QueueCall.run_update_of_honours window (hopen .update rfl hnone)
            (hsecures.honours hlive)] at h
          cases h
      | delete presented =>
          obtain rfl := Option.some.inj hcall
          have hdelete : (w.queue q).delete w.now presented =
              ((w.queue q).remove presented.id, .ok ()) :=
            Queue.delete_of_honours (hopen .delete rfl hnone) (hsecures.honours hlive)
          simp only [QueueCall.run, hdelete] at h
          cases h

/-- A delivery makes for a claim that stands. -/
theorem secures_of_dequeue (hdistinct : (w.queue q).IsDistinct)
    (h : (w.callQueue q (.dequeue window) transit).2 = .ok (some m)) :
    ((w.callQueue q (.dequeue window) transit).1.queue q).Secures m
      (Instant.windowEnd w.now window) := by
  obtain ⟨hqueue, hreply⟩ := callQueue_of_ok h
  rw [(QueueCall.run_dequeue _ _ window).2] at hreply
  rw [hqueue, (QueueCall.run_dequeue _ _ window).1]
  exact (Queue.delivers_of_dequeue hdistinct hreply).secures

end

section

variable {name tally : String} {poison : Option String} {doings : List Doing} {transit : Transit}
  {window : Duration}

/-- What follows a call that secures a claim upholds it. -/
theorem upholds_of_does {call : QueueCall} {reply : Except StorageError call.Reply}
    (h : Does (pollerAccess name q poison tally) w
      (doings ++ [.answered .primary call transit reply]) w')
    (hnumbered : w.IsNumbered q) (hunclaimed : ∀ doing ∈ doings, doing.claims? = none)
    (hsecures : ∀ mid : World, mid.now = w.now → mid.IsNumbered q →
      (mid.callQueue q call transit).2 = reply →
        ((mid.callQueue q call transit).1.queue q).Secures m ends) :
    w'.Upholds q m ends := by
  obtain ⟨mid, hbefore, hreply, hafter⟩ := h.heard
  have hsilent := keeps_of_does hbefore
  have hnow : mid.now = w.now := hsilent.now
  have hmid : mid.IsNumbered q := hsilent.numbered hnumbered
  have hlast := keeps_of_does hafter
  refine hlast.upholds ?_ ((keeps_callQueue q mid q call transit).numbered hmid)
    (.inr (hsecures mid hnow hmid hreply.symm))
  intro doing hdoing other hclaims
  rw [hunclaimed doing hdoing] at hclaims
  cases hclaims

theorem keeps_of_refused {presented : Delivery} {error : StorageError}
    (hharmless : transit.IsHarmless)
    (h : Does (pollerAccess name q poison tally) w
      [.answered .primary (.update presented window) transit (.error error)] w') :
    Keeps q (fun _ => True) w w' := by
  obtain ⟨mid, hbefore, hreply, hafter⟩ := h.only_heard
  have hsilent : Keeps q (fun _ => True) w mid := (keeps_of_does hbefore).mono (by simp)
  have hcall : Keeps q (fun _ => True) mid
      (mid.callQueue q (.update presented window) transit).1 :=
    keeps_of_error hharmless hreply.symm
  refine (hsilent.trans hcall).trans (.trans ?_ ((keeps_of_does hafter).mono (by simp)))
  exact keeps_of_apart rfl rfl (Nat.le_refl _)

end

end World

end LeasedListener
