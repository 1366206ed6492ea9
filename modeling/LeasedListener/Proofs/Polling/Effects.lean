import LeasedListener.Proofs.Leadership.Faultless
import LeasedListener.Proofs.Polling.Chronicle
import LeasedListener.Proofs.Scenario.Claims

/-!
# What pollers do to claims

The calls of a poller on the shared queue go unharmed, while its poison queue
is served as it happens.  Whatever the poller does, it touches only claims
whose receipts it presents, and a receipt whose claim stands is accepted.
-/

namespace LeasedListener

open Surroundings

theorem Instant.lt_windowEnd (now : Nat) {d : Duration} (h : 0 < d.nanos) :
    now < Instant.windowEnd now d := by
  have hcap : 0 < thirtyYears.nanos := by decide
  unfold windowEnd
  omega

/-- The delivery whose receipt the shared queue has seen. -/
@[simp]
def Doing.presented? : Doing → Option Delivery
  | .answered .primary call _ _ => call.presented?
  | _ => none

namespace PollingSite

variable {ι : Type} {S : PollingSite ι} {i : ι} {w w' w'' : World} {m : Delivery} {ends : Nat}
  {spared spared' : Delivery → Prop}

/-- What the poller `i` needs, with its next call on the shared queue on its
way at `transit`. -/
def custodian (S : PollingSite ι) (i : ι) (transit : Transit) : PollerAccess World :=
  { World.pollerAccess (S.names i) S.primary (some S.poison) (S.names i) with
    queue := { World.queueAccess (S.names i ++ ".queue") S.primary with
      issue := fun w _ => (w, transit) } }

def IsTidy (S : PollingSite ι) (w : World) : Prop :=
  (w.queue S.primary).IsTidy w.serials.message

def Secures (S : PollingSite ι) (w : World) (m : Delivery) (ends : Nat) : Prop :=
  (w.queue S.primary).Secures m ends

/-- The claims that are spared stand, and no time passes. -/
structure Keeps (S : PollingSite ι) (spared : Delivery → Prop) (w w' : World) : Prop where
  now : w'.now = w.now
  tidy : S.IsTidy w → S.IsTidy w'
  secures : ∀ m ends, spared m → S.IsTidy w → w.now < ends → S.Secures w m ends →
    S.Secures w' m ends

theorem Keeps.trans (h : S.Keeps spared w w') (h' : S.Keeps spared w' w'') :
    S.Keeps spared w w'' where
  now := h'.now.trans h.now
  tidy htidy := h'.tidy (h.tidy htidy)
  secures m ends hspared htidy hlive hsecures :=
    h'.secures m ends hspared (h.tidy htidy) (h.now.symm ▸ hlive)
      (h.secures m ends hspared htidy hlive hsecures)

theorem Keeps.mono (h : S.Keeps spared w w') (hspared : ∀ m, spared' m → spared m) :
    S.Keeps spared' w w' where
  now := h.now
  tidy := h.tidy
  secures m ends hm := h.secures m ends (hspared m hm)

theorem keeps_of_faultless (h : World.Keeps S.primary spared w w')
    (hfaults : (w.queue S.primary).faults = [] → (w'.queue S.primary).faults = []) :
    S.Keeps spared w w' where
  now := h.now
  tidy htidy := (h.numbered htidy.isNumbered).isTidy (hfaults htidy.faultless)
  secures m ends hspared htidy := h.secures m ends hspared htidy.isNumbered

/-- A change that the shared queue is not concerned with. -/
theorem keeps_of_apart (hnow : w'.now = w.now) (hqueue : w'.queue S.primary = w.queue S.primary)
    (hserials : w.serials.message ≤ w'.serials.message) : S.Keeps spared w w' := by
  apply keeps_of_faultless (World.keeps_of_apart hnow hqueue hserials)
  rw [hqueue]
  exact id

theorem keeps_callQueue (w : World) (call : QueueCall) (transit : Transit) :
    S.Keeps (fun m => ∀ other, call.presented? = some other → other.id = m.id →
      other.receipt ≠ m.receipt) w (w.callQueue S.primary call transit).1 := by
  apply keeps_of_faultless (World.keeps_callQueue S.primary w S.primary call transit)
  intro hfaults
  rcases w.callQueue_fst S.primary call transit with ⟨-, hqueue⟩ | ⟨-, hqueue⟩
  · rw [hqueue]
    exact hfaults
  · rw [hqueue]
    exact QueueCall.faults_run call hfaults

theorem keeps_perform (S : PollingSite ι) (i : ι) (w : World) (call : QueueCall)
    (transit sent : Transit) :
    S.Keeps (fun m => ∀ other, call.presented? = some other → other.id ≠ m.id) w
      ((S.custodian i transit).queue.perform w call sent).1 := by
  refine ((keeps_callQueue w call sent).mono ?_).trans (keeps_of_apart rfl rfl (Nat.le_refl _))
  intro m hspared other hpresented hid
  exact absurd hid (hspared other hpresented)

theorem keeps_poison (w : World) (call : QueueCall) (transit : Transit) :
    S.Keeps spared w (w.callQueue S.poison call transit).1 :=
  keeps_of_apart rfl (World.queue_callQueue_of_ne S.distinct w call transit)
    (World.message_le_callQueue ..)

theorem keeps_execute (w : World) (name : String) (m : Delivery) :
    S.Keeps spared w (w.execute name m).1 := by
  obtain ⟨log, executors, hexecute⟩ := w.execute_fst name m
  rw [hexecute]
  exact keeps_of_apart rfl rfl (Nat.le_refl _)

def Presents (doings : List Doing) (m : Delivery) : Prop :=
  ∃ doing ∈ doings, doing.presented? = some m

@[simp]
theorem not_presents_nil (m : Delivery) : ¬ Presents [] m := by
  simp [Presents]

@[simp]
theorem presents_cons {doing : Doing} {doings : List Doing} :
    Presents (doing :: doings) m ↔ doing.presented? = some m ∨ Presents doings m := by
  simp [Presents]

/-- What a poller does spares every message but those whose receipts it
presents. -/
theorem keeps_of_does {transit : Transit} {doings : List Doing}
    (h : Does (S.custodian i transit) w doings w') :
    S.Keeps (fun m => ∀ other, Presents doings other → other.id ≠ m.id) w w' := by
  have happly : ∀ {d : Doing} {doings : List Doing} {w₁ w₂ : World},
      S.Keeps (fun m => ∀ other, Presents doings other → other.id ≠ m.id) w w₁ →
      S.Keeps (fun m => ∀ other, Presents (d :: doings) other → other.id ≠ m.id) w₁ w₂ →
      S.Keeps (fun m => ∀ other, Presents (d :: doings) other → other.id ≠ m.id) w w₂ := by
    intro d doings w₁ w₂ hbefore hlast
    refine (hbefore.mono ?_).trans hlast
    intro m hspared other hpresented
    exact hspared other (presents_cons.mpr (.inr hpresented))
  induction h with
  | rest => exact keeps_of_apart rfl rfl (Nat.le_refl _)
  | report event _ ih => exact ih.trans (keeps_of_apart rfl rfl (Nat.le_refl _))
  | mark m _ ih => exact happly ih (keeps_of_apart rfl rfl (Nat.le_refl _))
  | begin role call _ ih =>
      cases role with
      | primary => exact happly ih (keeps_of_apart rfl rfl (Nat.le_refl _))
      | poison => exact happly ih (keeps_of_apart rfl rfl (Nat.le_refl _))
  | @hear doings before role call sent _ ih =>
      refine happly ih ?_
      cases role with
      | primary =>
          refine (keeps_perform S i before call transit sent).mono ?_
          intro m hspared other hpresented
          exact hspared other (presents_cons.mpr (.inl hpresented))
      | poison =>
          exact (keeps_poison before call sent).trans (keeps_of_apart rfl rfl (Nat.le_refl _))
  | start m _ ih => exact happly ih (keeps_execute _ _ _)
  | finish execution succeeded _ ih => exact happly ih (keeps_of_apart rfl rfl (Nat.le_refl _))

theorem faultless_of_does {transit : Transit} {doings : List Doing}
    (h : Does (S.custodian i transit) w doings w') (hfaultless : transit.IsFaultless)
    {call : QueueCall} {sent : Transit} (hbegun : .begun .primary call sent ∈ doings) :
    sent.IsFaultless := by
  induction h with
  | rest => simp at hbegun
  | report _ _ ih => exact ih hbegun
  | mark _ _ ih | hear _ _ _ _ ih | start _ _ ih | finish _ _ _ ih =>
      simp only [List.mem_cons, reduceCtorEq, false_or] at hbegun
      exact ih hbegun
  | begin role other _ ih =>
      rcases List.mem_cons.mp hbegun with hself | hbefore
      · cases hself
        exact hfaultless
      · exact ih hbefore

/-- How often a disposal was refused, as a tally has it. -/
def conflicts (w : World) (tally : String) : Nat :=
  ((w.tallies.get? tally).getD {}).disposalConflicts

theorem conflicts_mark {mark : Mark} (hmark : mark ≠ .disposalConflict) (w : World)
    (tally other : String) : conflicts (w.mark tally mark) other = conflicts w other := by
  by_cases hother : other = tally
  · subst hother
    simp only [conflicts, World.mark, Table.get?_set_self, Option.getD_some]
    cases mark with
    | disposalConflict => exact absurd rfl hmark
    | dequeued | succeeded | failed | released | poisoned => rfl
  · simp only [conflicts, World.mark, Table.get?_set_of_ne _ hother]

theorem conflicts_execute (w : World) (name : String) (m : Delivery) (tally : String) :
    conflicts (w.execute name m).1 tally = conflicts w tally := by
  obtain ⟨log, executors, hexecute⟩ := w.execute_fst name m
  rw [hexecute]
  rfl

theorem conflicts_of_does {transit : Transit} {doings : List Doing}
    (h : Does (S.custodian i transit) w doings w')
    (hunopposed : .marked .disposalConflict ∉ doings) (tally : String) :
    conflicts w' tally = conflicts w tally := by
  induction h with
  | rest => rfl
  | report event _ ih => exact ih hunopposed
  | mark mark _ ih =>
      have hmark : mark ≠ .disposalConflict := by
        rintro rfl
        exact hunopposed (List.mem_cons_self ..)
      exact (conflicts_mark hmark _ _ _).trans (ih (List.not_mem_of_not_mem_cons hunopposed))
  | begin role _ _ ih | hear role _ _ _ ih =>
      cases role <;> exact ih (List.not_mem_of_not_mem_cons hunopposed)
  | start m _ ih =>
      exact (conflicts_execute _ _ m _).trans (ih (List.not_mem_of_not_mem_cons hunopposed))
  | finish _ _ _ ih => exact ih (List.not_mem_of_not_mem_cons hunopposed)

section

variable {transit sent : Transit}

/-- The answer to a call on the shared queue that nothing interferes with. -/
theorem perform_of_faultless (S : PollingSite ι) (i : ι) (transit : Transit)
    (hfaultless : sent.IsFaultless) (w : World) (call : QueueCall) :
    ((S.custodian i transit).queue.perform w call sent).1.queue S.primary =
        (call.run w.now (wallClock w) (w.serials, w.queue S.primary)).1.2 ∧
      ((S.custodian i transit).queue.perform w call sent).2 =
        (call.run w.now (wallClock w) (w.serials, w.queue S.primary)).2 := by
  have hcarry : sent.carry (call.run w.now (wallClock w)) (w.serials, w.queue S.primary) =
      call.run w.now (wallClock w) (w.serials, w.queue S.primary) :=
    Transit.carry_of_faultless hfaultless
  constructor
  · have hqueue : ((S.custodian i transit).queue.perform w call sent).1.queue S.primary =
        (w.callQueue S.primary call sent).1.queue S.primary := rfl
    rw [hqueue, World.queue_callQueue_self, hcarry]
  · exact congrArg Prod.snd hcarry

theorem Secures.update (h : S.Secures w m ends) (htidy : S.IsTidy w) (hlive : w.now < ends)
    (hfaultless : sent.IsFaultless) (window : Duration) :
    ∃ receipt,
      ((S.custodian i transit).queue.perform w (.update m window) sent).2 = .ok receipt ∧
      ∀ m', m'.id = m.id → m'.receipt = receipt →
        S.Secures ((S.custodian i transit).queue.perform w (.update m window) sent).1 m'
          (Instant.windowEnd w.now window) := by
  obtain ⟨hqueue, hreply⟩ := perform_of_faultless S i transit hfaultless w (.update m window)
  have hupdate : (w.queue S.primary).updateVisibility w.now w.serials.freshReceipt m window =
      ((w.queue S.primary).change m.id (·.claim w.now w.serials.freshReceipt window),
        .ok w.serials.freshReceipt) :=
    Queue.updateVisibility_of_honours
      (Queue.isOpen_of_faultless htidy.faultless h.present .update) (h.honours hlive)
  refine ⟨w.serials.freshReceipt, ?_, ?_⟩
  · rw [hreply]
    simp only [QueueCall.run, hupdate]
  · intro m' hid hreceipt
    unfold PollingSite.Secures
    rw [hqueue, QueueCall.run_update, hupdate]
    exact h.claimed hid hreceipt

theorem Secures.delete (h : S.Secures w m ends) (htidy : S.IsTidy w) (hlive : w.now < ends)
    (hfaultless : sent.IsFaultless) :
    ((S.custodian i transit).queue.perform w (.delete m) sent).2 = .ok () := by
  rw [(perform_of_faultless S i transit hfaultless w (.delete m)).2]
  have hdelete : (w.queue S.primary).delete w.now m = ((w.queue S.primary).remove m.id, .ok ()) :=
    Queue.delete_of_honours
      (Queue.isOpen_of_faultless htidy.faultless h.present .delete) (h.honours hlive)
  exact congrArg Prod.snd hdelete

/-- A message that is delivered comes with a claim, and no claim on it stands
before. -/
theorem secures_of_dequeue {window : Duration} (htidy : S.IsTidy w)
    (h : ((S.custodian i transit).queue.perform w (.dequeue window) sent).2 = .ok (some m)) :
    S.Secures ((S.custodian i transit).queue.perform w (.dequeue window) sent).1 m
        (Instant.windowEnd w.now window) ∧
      ∀ other ends, w.now < ends → S.Secures w other ends → other.id ≠ m.id := by
  have hanswer : (w.callQueue S.primary (.dequeue window) sent).2 = .ok (some m) := h
  obtain ⟨hqueue, hreply⟩ := World.callQueue_of_ok hanswer
  rw [(QueueCall.run_dequeue _ _ window).2] at hreply
  rw [(QueueCall.run_dequeue _ _ window).1] at hqueue
  have hdelivers := Queue.delivers_of_dequeue htidy.distinct hreply
  constructor
  · have hafter : (w.callQueue S.primary (.dequeue window) sent).1.queue S.primary =
        ((S.custodian i transit).queue.perform w (.dequeue window) sent).1.queue S.primary := rfl
    unfold PollingSite.Secures
    rw [← hafter, hqueue]
    exact hdelivers.secures
  · intro other ends hlive hsecures hid
    exact hdelivers.not_honours hid (hsecures.honours hlive)

end

end PollingSite

end LeasedListener
