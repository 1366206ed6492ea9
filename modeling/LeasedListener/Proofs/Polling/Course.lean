import LeasedListener.Proofs.Polling.Story
import LeasedListener.Proofs.Polling.Workload
import LeasedListener.Proofs.Queue.Stock

/-!
# The course of a sweep

In a sweep that nothing disturbs, what has happened, what is still to come for
the message in hand, and the stories of the visible messages make up the story
of the messages that were visible at the start.  Every transition of the tick
keeps this, and what it takes from the queue and puts on the poison queue
agrees with it.
-/

namespace LeasedListener

open Surroundings

namespace TickPhase

def transit? : TickPhase → Option Transit
  | .probing transit | .dequeuing _ transit | .deleting _ transit | .releasing _ transit
  | .preparing _ transit | .copying _ transit => some transit
  | .executing .. | .settling .. => none

def isCopying : TickPhase → Bool
  | .copying .. => true
  | _ => false

/-- What is still to come for the message in hand. -/
def ahead (limit : UInt32) (verdict : Verdict) : TickPhase → List Happening
  | .probing _ | .dequeuing _ _ => []
  | .executing claim _ execution =>
      match execution.outcome with
      | .ok succeeded =>
          .ended succeeded :: sequel limit verdict claim.message.id claim.message.body
            claim.message.dequeueCount succeeded
      | .error _ => []
  | .settling claim _ succeeded _ =>
      sequel limit verdict claim.message.id claim.message.body claim.message.dequeueCount succeeded
  | .deleting m _ => [.removed m.id]
  | .releasing m _ => .marked .released :: story limit verdict m.id m.body m.dequeueCount
  | .preparing m _ | .copying m _ => [.copied m.body, .marked .poisoned, .removed m.id]

end TickPhase

namespace Sweep

/-- A world in which nothing fails and no call takes time. -/
structure Undisturbed (s : Sweep) (w : World) : Prop where
  distinct : (w.queue s.poller.queue).IsDistinct
  vacant : (w.queue s.poller.queue).present = false → (w.queue s.poller.queue).messages = []
  faultless : ∀ role, (w.queue (s.target role)).faults = []
  unscripted : ∀ role, (w.gateway (s.gate role)).script = []

variable {s : Sweep} {verdict : Verdict} {w w' : World} {env env' : World × List Doing}
  {phase : TickPhase} {course : TickCourse} {doings later : List Doing} {role : QueueRole}
  {call : QueueCall} {transit : Transit}

def limit (s : Sweep) : UInt32 := s.poller.config.maxDequeueCount

def storyOf (s : Sweep) (verdict : Verdict) (stored : StoredMessage) : List Happening :=
  story s.limit verdict stored.id stored.body stored.dequeueCount

/-- The control state of a sweep of `w` that has `left` messages before it. -/
inductive Stands (s : Sweep) (w : World) (left : List StoredMessage) : TickCourse → Prop
  | probing (all : left = (w.queue s.poller.queue).visible w.now) :
      Stands s w left (.continues () (.probing (.direct w.now)))
  | dequeuing {found : Bool} (present : (w.queue s.poller.queue).present = true)
      (finds : found = true ∨ left ≠ [] ↔ (w.queue s.poller.queue).visible w.now ≠ []) :
      Stands s w left (.continues () (.dequeuing found (.direct w.now)))
  | handling {phase : TickPhase} {m : Delivery} (hand : phase.hand? = some m)
      (present : (w.queue s.poller.queue).present = true)
      (finds : (w.queue s.poller.queue).visible w.now ≠ [])
      (direct : ∀ transit, phase.transit? = some transit → transit = .direct w.now) :
      Stands s w left (.continues () phase)
  | ended {found : Bool} (finds : found = true ↔ (w.queue s.poller.queue).visible w.now ≠ [])
      (none : left = []) : Stands s w left (.ended () (.ok found))

def copiedIn (doings : List Doing) : List (List UInt8) :=
  (happenings doings).filterMap Happening.copied?

/-- What holds all along a sweep that nothing disturbs. -/
structure OnCourse (s : Sweep) (verdict : Verdict) (w : World) (env : World × List Doing)
    (course : TickCourse) : Prop where
  now : env.1.now = w.now
  unscripted : s.Scripted (fun _ _ => False) env.1
  stock : Queue.Stock (w.queue s.poller.queue) w.now (env.1.queue s.poller.queue)
    (course.phase?.bind TickPhase.hand?)
  shelf : Queue.Shelf (w.queue (s.target .poison)) w.now (copiedIn env.2)
    (course.phase?.any TickPhase.isCopying) (env.1.queue (s.target .poison))
  told : happenings env.2 ++ ((course.phase?.map (·.ahead s.limit verdict)).getD [] ++
      ((env.1.queue s.poller.queue).visible w.now).flatMap (s.storyOf verdict)) =
    ((w.queue s.poller.queue).visible w.now).flatMap (s.storyOf verdict)
  stands : s.Stands w ((env.1.queue s.poller.queue).visible w.now) course
  tallied : s.tallyOf env.1 = (s.tallyOf w).follow (happenings env.2)

theorem direct_of_begun (hunscripted : s.Scripted (fun _ _ => False) env.1)
    (hdoes : Does s.access env doings env') (hbegun : .begun role call transit ∈ doings) :
    transit = .direct env.1.now := by
  rcases sent_of_does hunscripted hdoes hbegun with hdirect | ⟨_, _, hnone, -⟩
  · exact hdirect
  · exact hnone.elim

theorem Answers.of_run {reply outcome : Except StorageError call.Reply} {serials : Serials}
    {q : Queue} (h : s.Answers role call transit reply w w') (hfaultless : transit.fault = none)
    (hran : call.run w.now (wallClock w) (w.serials, w.queue (s.target role)) =
      ((serials, q), outcome)) :
    w'.queue (s.target role) = q ∧ reply = outcome := by
  have hcarry : transit.carry (call.run w.now (wallClock w)) (w.serials, w.queue (s.target role)) =
      ((serials, q), outcome) :=
    (Transit.carry_of_faultless hfaultless).trans hran
  have hreply := h.reply
  have hqueue := h.queue
  rw [hcarry] at hreply hqueue
  exact ⟨hqueue, hreply⟩

theorem OnCourse.direct {phase : TickPhase} (h : s.OnCourse verdict w env (.continues () phase))
    (hdoes : Does s.access env doings env') (hbegun : .begun role call transit ∈ doings) :
    transit = .direct w.now :=
  h.now ▸ direct_of_begun h.unscripted hdoes hbegun

/-- A transition of the tick, by what it does to the queues and what is told
of it. -/
theorem OnCourse.next (h : s.OnCourse verdict w env (.continues () phase))
    (hdoes : Does s.access env doings env')
    (hstock : Queue.Stock (w.queue s.poller.queue) w.now (env'.1.queue s.poller.queue)
      (course.phase?.bind TickPhase.hand?))
    (hshelf : Queue.Shelf (w.queue (s.target .poison)) w.now (copiedIn env.2 ++ copiedIn doings)
      (course.phase?.any TickPhase.isCopying) (env'.1.queue (s.target .poison)))
    (htold : happenings doings ++ ((course.phase?.map (·.ahead s.limit verdict)).getD [] ++
        ((env'.1.queue s.poller.queue).visible w.now).flatMap (s.storyOf verdict)) =
      phase.ahead s.limit verdict ++
        ((env.1.queue s.poller.queue).visible w.now).flatMap (s.storyOf verdict))
    (hstands : s.Stands w ((env'.1.queue s.poller.queue).visible w.now) course) :
    s.OnCourse verdict w env' course where
  now := (clock_of_does hdoes).1.trans h.now
  unscripted := scripted_of_does h.unscripted hdoes
  stock := hstock
  shelf := by
    rw [history_of_does hdoes, copiedIn, happenings_append, List.filterMap_append]
    exact hshelf
  told := by
    rw [history_of_does hdoes, happenings_append, List.append_assoc, htold]
    exact h.told
  stands := hstands
  tallied := by
    rw [tallyOf_of_does hdoes, h.tallied, ← Tally.follow_happenings, history_of_does hdoes,
      happenings_append, Tally.follow_append]

theorem OnCourse.kept {phase' : TickPhase} (h : s.OnCourse verdict w env (.continues () phase))
    (hdoes : Does s.access env doings env')
    (hqueue : ∀ role, env'.1.queue (s.target role) = env.1.queue (s.target role))
    (hhand : phase'.hand? = phase.hand?) (hcopied : copiedIn doings = [])
    (hcopying : phase.isCopying = false) (hcopying' : phase'.isCopying = false)
    (htold : happenings doings ++ phase'.ahead s.limit verdict = phase.ahead s.limit verdict)
    (hstands : s.Stands w ((env.1.queue s.poller.queue).visible w.now) (.continues () phase')) :
    s.OnCourse verdict w env' (.continues () phase') := by
  have hprimary : env'.1.queue s.poller.queue = env.1.queue s.poller.queue := hqueue .primary
  have hstock : Queue.Stock (w.queue s.poller.queue) w.now (env.1.queue s.poller.queue)
    phase.hand? := h.stock
  have hshelf := h.shelf
  refine h.next hdoes ?_ ?_ ?_ ?_
  · rw [hprimary]
    rw [← hhand] at hstock
    exact hstock
  · rw [hqueue .poison, hcopied, List.append_nil]
    have hflag : (TickCourse.phase? (.continues () phase')).any TickPhase.isCopying =
      (TickCourse.phase? (.continues () phase)).any TickPhase.isCopying :=
        hcopying'.trans hcopying.symm
    rw [hflag]
    exact hshelf
  · rw [hprimary]
    exact (List.append_assoc ..).symm.trans (congrArg (· ++ _) htold)
  · rw [hprimary]
    exact hstands

section

variable {found : Bool} {m : Delivery}

theorem Stands.of_probing {left : List StoredMessage}
    (h : s.Stands w left (.continues () (.probing transit))) :
    transit = .direct w.now ∧ left = (w.queue s.poller.queue).visible w.now := by
  cases h with
  | probing all => exact ⟨rfl, all⟩
  | handling hand _ _ _ => simp [TickPhase.hand?] at hand

theorem Stands.of_dequeuing {left : List StoredMessage}
    (h : s.Stands w left (.continues () (.dequeuing found transit))) :
    transit = .direct w.now ∧ (w.queue s.poller.queue).present = true ∧
      (found = true ∨ left ≠ [] ↔ (w.queue s.poller.queue).visible w.now ≠ []) := by
  cases h with
  | dequeuing present finds => exact ⟨rfl, present, finds⟩
  | handling hand _ _ _ => simp [TickPhase.hand?] at hand

theorem Stands.of_hand {left : List StoredMessage} (h : s.Stands w left (.continues () phase))
    (hhand : phase.hand? = some m) :
    (w.queue s.poller.queue).present = true ∧ (w.queue s.poller.queue).visible w.now ≠ [] ∧
      ∀ transit, phase.transit? = some transit → transit = .direct w.now := by
  cases h with
  | probing _ => simp [TickPhase.hand?] at hhand
  | dequeuing _ _ => simp [TickPhase.hand?] at hhand
  | handling _ present finds direct => exact ⟨present, finds, direct⟩

theorem OnCourse.turns {reply : Except StorageError call.Reply}
    (h : s.OnCourse verdict w env (.continues () phase))
    (hpoison : s.poller.poison.isSome = true)
    (hdoes : Does s.access env (later ++ [.answered .primary call transit reply]) env')
    (hanswers : s.Answers .primary call transit reply env.1 env'.1)
    (hstock : Queue.Stock (w.queue s.poller.queue) w.now (env'.1.queue s.poller.queue)
      (course.phase?.bind TickPhase.hand?))
    (hcopied : copiedIn (later ++ [.answered .primary call transit reply]) = [])
    (hcopying : phase.isCopying = false)
    (hcopying' : course.phase?.any TickPhase.isCopying = false)
    (htold : happenings (later ++ [.answered .primary call transit reply]) ++
        ((course.phase?.map (·.ahead s.limit verdict)).getD [] ++
          ((env'.1.queue s.poller.queue).visible w.now).flatMap (s.storyOf verdict)) =
      phase.ahead s.limit verdict ++
        ((env.1.queue s.poller.queue).visible w.now).flatMap (s.storyOf verdict))
    (hstands : s.Stands w ((env'.1.queue s.poller.queue).visible w.now) course) :
    s.OnCourse verdict w env' course := by
  refine h.next hdoes hstock ?_ htold hstands
  have hshelf : Queue.Shelf _ _ _ phase.isCopying _ := h.shelf
  have hqueue : env'.1.queue (s.target .poison) = env.1.queue (s.target .poison) :=
    hanswers.others _ (target_poison_ne hpoison).symm
  rw [hqueue, hcopied, List.append_nil, hcopying', ← hcopying]
  exact hshelf

theorem OnCourse.probing (h : s.OnCourse verdict w env (.continues () (.probing transit)))
    (hw : s.Undisturbed w) (hpoison : s.poller.poison.isSome = true)
    (hdoes : Does s.access env doings env')
    (hscript : Script s.poller false (.probing transit) doings course) :
    s.OnCourse verdict w env' course := by
  obtain ⟨rfl, hall⟩ := h.stands.of_probing
  have hprobed : ∀ {later : List Doing} {reply : Except StorageError Bool},
      Does s.access env (later ++ [.answered .primary .probe (.direct w.now) reply]) env' →
      (∀ doing ∈ later, doing.isAnswer = false) →
      s.Answers .primary .probe (.direct w.now) reply env.1 env'.1 ∧
        env'.1.queue s.poller.queue = env.1.queue s.poller.queue ∧
        reply = .ok (w.queue s.poller.queue).present := by
    intro later reply hdoes hsilent
    have hanswers := answers_of_does hdoes hsilent
    obtain ⟨hqueue, hreply⟩ := hanswers.of_run rfl rfl
    exact ⟨hanswers, hqueue, hreply.trans (congrArg Except.ok h.stock.present)⟩
  cases hscript with
  | present seeks =>
      cases seeks with
      | quits stopped => simp at stopped
      | asks _ transit' =>
          obtain ⟨hanswers, hqueue, hreply⟩ := hprobed hdoes (by simp [Doing.isAnswer])
          have hpresent : (w.queue s.poller.queue).present = true := (Except.ok.inj hreply).symm
          obtain rfl : transit' = .direct w.now :=
            h.direct hdoes (List.mem_cons_self ..)
          refine h.turns hpoison hdoes hanswers ?_ rfl rfl rfl ?_ ?_
          · rw [hqueue]
            exact h.stock
          · rw [hqueue]
            rfl
          · rw [hqueue, hall]
            exact .dequeuing hpresent (by simp)
  | absent =>
      have hdoes' : Does s.access env
        ([] ++ [.answered .primary .probe (.direct w.now) (.ok false)]) env' := hdoes
      obtain ⟨hanswers, hqueue, hreply⟩ := hprobed hdoes' (by simp)
      have hvacant := hw.vacant (Except.ok.inj hreply).symm
      have hnone : (w.queue s.poller.queue).visible w.now = [] := by
        rw [Queue.visible, hvacant]
        rfl
      refine h.turns hpoison hdoes' hanswers ?_ rfl rfl rfl ?_ ?_
      · rw [hqueue]
        exact h.stock
      · rw [hqueue]
        rfl
      · rw [hqueue, hall, hnone]
        exact .ended (by simp [hnone]) rfl
  | unknown =>
      have hdoes' : Does s.access env
        ([] ++ [.answered .primary .probe (.direct w.now) (.error _)]) env' := hdoes
      obtain ⟨-, -, hreply⟩ := hprobed hdoes' (by simp)
      simp at hreply

theorem storyOf_delivery (s : Sweep) (verdict : Verdict) (stored : StoredMessage)
    (fresh : Receipt) (ends : Timestamp) :
    s.storyOf verdict stored = .marked .dequeued ::
      .began stored.id stored.body (stored.delivery fresh ends).dequeueCount ::
        .ended (verdict stored.id stored.body (stored.delivery fresh ends).dequeueCount) ::
          sequel s.limit verdict stored.id stored.body (stored.delivery fresh ends).dequeueCount
            (verdict stored.id stored.body (stored.delivery fresh ends).dequeueCount) :=
  story_eq s.limit verdict stored.id stored.body stored.dequeueCount

theorem Answers.serves {original : Queue} {reply : Except StorageError (Option Delivery)}
    {window : Duration} (h : s.Answers .primary (.dequeue window) transit reply w w')
    (hfaultless : transit.fault = none)
    (hstock : Queue.Stock original w.now (w.queue s.poller.queue) none)
    (hpresent : original.present = true) (hfaults : original.faults = [])
    (hwindow : 0 < window.nanos) :
    ((w.queue s.poller.queue).visible w.now = [] ∧
      w'.queue s.poller.queue = w.queue s.poller.queue ∧ reply = .ok none) ∨
    ∃ stored fresh ends, reply = .ok (some (stored.delivery fresh ends)) ∧
      (w.queue s.poller.queue).visible w.now =
        stored :: (w'.queue s.poller.queue).visible w.now ∧
      Queue.Stock original w.now (w'.queue s.poller.queue)
        (some (stored.delivery fresh ends)) := by
  have hdequeue : (w.queue s.poller.queue).dequeue w.now (wallClock w) w.serials.freshReceipt
      window = (w'.queue s.poller.queue, reply) := by
    obtain ⟨hqueue, hreply⟩ := h.of_run hfaultless rfl
    obtain ⟨hqueue', hreply'⟩ := @QueueCall.run_dequeue w.now (wallClock w) w.serials
      (w.queue s.poller.queue) window
    exact Prod.ext (hqueue.trans hqueue').symm (hreply.trans hreply').symm
  have hserved := @Queue.Stock.dequeue _ _ _ (wallClock w) w.serials.freshReceipt _ hstock hpresent
    hfaults hwindow
  rw [hdequeue] at hserved
  rcases hserved with ⟨hnone, hafter⟩ | ⟨stored, after, hvisible, hafter, hstock'⟩
  · obtain ⟨hqueue, hreply⟩ := Prod.mk.inj hafter
    exact .inl ⟨hnone, hqueue, hreply⟩
  · obtain ⟨rfl, hreply⟩ := Prod.mk.inj hafter
    exact .inr ⟨stored, _, _, hreply, hvisible, hstock'⟩

theorem OnCourse.dequeuing
    (h : s.OnCourse verdict w env (.continues () (.dequeuing found transit)))
    (hverdict : ∀ history m, s.judge history m = .ok (verdict m.id m.body m.dequeueCount))
    (hw : s.Undisturbed w) (hpoison : s.poller.poison.isSome = true)
    (hdoes : Does s.access env doings env')
    (hscript : Script s.poller false (.dequeuing found transit) doings course) :
    s.OnCourse verdict w env' course := by
  obtain ⟨rfl, hpresent, hfinds⟩ := h.stands.of_dequeuing
  have hwindow : 0 < s.poller.config.visibilityTimeout.nanos :=
    (s.poller.config.validate_eq_ok_iff.mp s.valid).1
  have hstock : Queue.Stock (w.queue s.poller.queue) env.1.now (env.1.queue s.poller.queue) none :=
    h.now.symm ▸ h.stock
  cases hscript with
  | @received _ _ m execution =>
      have hdoes' : Does s.access env ([.started m execution, .marked .dequeued] ++
        [.answered .primary (.dequeue s.poller.config.visibilityTimeout) (.direct w.now)
          (.ok (some m))]) env' := hdoes
      have hanswers := answers_of_does hdoes' (by simp [Doing.isAnswer])
      obtain ⟨history, rfl⟩ := judged_of_does hdoes (List.mem_cons_self ..)
      rcases hanswers.serves rfl hstock hpresent (hw.faultless .primary) hwindow with
        ⟨-, -, hreply⟩ | ⟨stored, fresh, ends, hreply, hvisible, hstock'⟩
      · cases hreply
      · obtain rfl := Option.some.inj (Except.ok.inj hreply)
        rw [h.now] at hvisible hstock'
        refine h.turns hpoison hdoes' hanswers hstock' rfl rfl rfl ?_ ?_
        · rw [hvisible, List.flatMap_cons, s.storyOf_delivery verdict stored fresh ends]
          have hahead : ((TickCourse.phase? (.continues () (.executing
              (.create (stored.delivery fresh ends))
              (s.poller.renewalTimer (stored.delivery fresh ends))
              (.immediate env.1.now (s.judge history (stored.delivery fresh ends)))))).map
                (·.ahead s.limit verdict)).getD [] =
              .ended (verdict stored.id stored.body (stored.delivery fresh ends).dequeueCount) ::
                sequel s.limit verdict stored.id stored.body
                  (stored.delivery fresh ends).dequeueCount
                  (verdict stored.id stored.body (stored.delivery fresh ends).dequeueCount) := by
            rw [hverdict]
            rfl
          rw [hahead]
          rfl
        · refine .handling rfl hpresent (hfinds.mp (.inr ?_)) (by simp [TickPhase.transit?])
          simp [hvisible]
  | exhausted =>
      have hdoes' : Does s.access env ([] ++ [.answered .primary
        (.dequeue s.poller.config.visibilityTimeout) (.direct w.now) (.ok none)]) env' := hdoes
      have hanswers := answers_of_does hdoes' (by simp)
      rcases hanswers.serves rfl hstock hpresent (hw.faultless .primary) hwindow with
        ⟨hnone, hqueue, -⟩ | ⟨stored, fresh, ends, hreply, -, -⟩
      · rw [h.now] at hnone
        refine h.turns hpoison hdoes' hanswers ?_ rfl rfl rfl ?_ ?_
        · rw [hqueue]
          exact h.stock
        · rw [hqueue]
          rfl
        · rw [hqueue, hnone]
          rw [hnone] at hfinds
          exact .ended (by simpa using hfinds) rfl
      · cases hreply
  | unserved =>
      have hdoes' : Does s.access env ([] ++ [.answered .primary
        (.dequeue s.poller.config.visibilityTimeout) (.direct w.now) (.error _)]) env' := hdoes
      have hanswers := answers_of_does hdoes' (by simp)
      rcases hanswers.serves rfl hstock hpresent (hw.faultless .primary) hwindow with
        ⟨-, -, hreply⟩ | ⟨stored, fresh, ends, hreply, -, -⟩
      · cases hreply
      · cases hreply

theorem OnCourse.executing {claim : Claim} {renewal : RenewalTimer} {execution : Execution}
    (h : s.OnCourse verdict w env (.continues () (.executing claim renewal execution)))
    (hverdict : ∀ history m, s.judge history m = .ok (verdict m.id m.body m.dequeueCount))
    (hjudged : s.Judged env.1.now execution) (hdoes : Does s.access env doings env')
    (hscript : Script s.poller false (.executing claim renewal execution) doings course) :
    s.OnCourse verdict w env' course := by
  obtain ⟨hpresent, hfinds, -⟩ := h.stands.of_hand rfl
  cases hscript with
  | broken ended =>
      obtain ⟨-, history, m, hbroken⟩ := hjudged.result ended
      rw [hverdict] at hbroken
      cases hbroken
  | @executed _ _ _ succeeded instant start ended =>
      have houtcome : execution.outcome = .ok succeeded := (hjudged.result ended).1
      have hqueue := queue_of_does hdoes (by simp [Doing.isAnswer])
      refine h.kept hdoes (fun role => hqueue (s.target role)) rfl rfl rfl rfl ?_ ?_
      · simp only [TickPhase.ahead, houtcome]
        rfl
      · exact .handling rfl hpresent hfinds (by simp [TickPhase.transit?])

theorem OnCourse.disposes {claim : Claim} {renewal : RenewalTimer} {succeeded : Bool}
    {wait : StopWait} {phase' : TickPhase}
    (h : s.OnCourse verdict w env (.continues () (.settling claim renewal succeeded wait)))
    (hdoes : Does s.access env
      [.begun role call transit, .marked (if succeeded then .succeeded else .failed)] env')
    (hhand : phase'.hand? = some claim.message) (hcopying : phase'.isCopying = false)
    (htransit : phase'.transit? = some transit)
    (htold : .marked (if succeeded then .succeeded else .failed) ::
        phase'.ahead s.limit verdict =
      sequel s.limit verdict claim.message.id claim.message.body claim.message.dequeueCount
        succeeded) :
    s.OnCourse verdict w env' (.continues () phase') := by
  obtain ⟨hpresent, hfinds, -⟩ := h.stands.of_hand rfl
  have hqueue := queue_of_does hdoes (by simp [Doing.isAnswer])
  have hdirect : transit = .direct w.now :=
    h.direct hdoes (List.mem_cons_self ..)
  refine h.kept hdoes (fun role => hqueue (s.target role)) hhand rfl rfl hcopying htold ?_
  refine .handling hhand hpresent hfinds ?_
  intro other hother
  rw [htransit] at hother
  exact (Option.some.inj hother).symm.trans hdirect

theorem OnCourse.settling {claim : Claim} {renewal : RenewalTimer} {succeeded : Bool}
    {wait : StopWait}
    (h : s.OnCourse verdict w env (.continues () (.settling claim renewal succeeded wait)))
    (hpoison : s.poller.poison.isSome = true) (hdoes : Does s.access env doings env')
    (hscript : Script s.poller false (.settling claim renewal succeeded wait) doings course) :
    s.OnCourse verdict w env' course := by
  cases hscript with
  | settled _ disposes =>
      cases disposes with
      | deletes transit action =>
          obtain rfl := disposition_eq_delete action
          exact h.disposes hdoes rfl rfl rfl rfl
      | releases transit action =>
          obtain ⟨rfl, -, hseldom⟩ := disposition_eq_release action
          have hlimit : ¬ s.limit ≤ claim.message.dequeueCount := UInt32.not_le.mpr hseldom
          refine h.disposes hdoes rfl rfl rfl ?_
          simp [TickPhase.ahead, sequel, closing, hlimit]
      | quarantines transit action =>
          obtain ⟨rfl, -, hoften⟩ := disposition_eq_quarantine action
          have hlimit : s.limit ≤ claim.message.dequeueCount := hoften
          refine h.disposes hdoes rfl rfl rfl ?_
          simp [TickPhase.ahead, sequel, closing, hlimit]
      | leaves action _ =>
          rw [disposition_eq_leave action] at hpoison
          simp at hpoison

/-- A transition that is done with its message and begins the next dequeue. -/
theorem OnCourse.seeks {reply : Except StorageError call.Reply} {asked told : List Doing}
    (h : s.OnCourse verdict w env (.continues () phase))
    (hpoison : s.poller.poison.isSome = true) (hhand : phase.hand? = some m)
    (hcopying : phase.isCopying = false) (hseeks : Seeks s.poller false true asked course)
    (hdoes : Does s.access env (asked ++ told ++ [.answered .primary call transit reply]) env')
    (hsilent : ∀ doing ∈ told, doing.isAnswer = false)
    (hcopied : copiedIn (told ++ [.answered .primary call transit reply]) = [])
    (hstock : Queue.Stock (w.queue s.poller.queue) w.now (env'.1.queue s.poller.queue) none)
    (htold : happenings (told ++ [.answered .primary call transit reply]) ++
        ((env'.1.queue s.poller.queue).visible w.now).flatMap (s.storyOf verdict) =
      phase.ahead s.limit verdict ++
        ((env.1.queue s.poller.queue).visible w.now).flatMap (s.storyOf verdict)) :
    s.OnCourse verdict w env' course := by
  obtain ⟨hpresent, hfinds, -⟩ := h.stands.of_hand hhand
  cases hseeks with
  | quits stopped => simp at stopped
  | asks _ transit' =>
      obtain rfl : transit' = .direct w.now :=
        h.direct hdoes (List.mem_cons_self ..)
      have hanswers := answers_of_does hdoes (by simpa [Doing.isAnswer] using hsilent)
      exact h.turns hpoison hdoes hanswers hstock hcopied hcopying rfl htold
        (.dequeuing hpresent (by simp [hfinds]))

theorem OnCourse.deleting (h : s.OnCourse verdict w env (.continues () (.deleting m transit)))
    (hw : s.Undisturbed w) (hpoison : s.poller.poison.isSome = true)
    (hdoes : Does s.access env doings env')
    (hscript : Script s.poller false (.deleting m transit) doings course) :
    s.OnCourse verdict w env' course := by
  obtain ⟨hpresent, -, hdirect⟩ := h.stands.of_hand rfl
  obtain rfl := hdirect transit rfl
  have hstock : Queue.Stock _ w.now (env.1.queue s.poller.queue) (some m) := h.stock
  obtain ⟨q', hdelete, hstock', hvisible⟩ := hstock.delete hpresent (hw.faultless .primary)
  have hran : (QueueCall.delete m).run env.1.now (wallClock env.1)
      (env.1.serials, env.1.queue s.poller.queue) = ((env.1.serials, q'), .ok ()) := by
    rw [← h.now] at hdelete
    simp only [QueueCall.run, hdelete]
    rfl
  cases hscript with
  | @deleted _ _ reply later _ concludes =>
      have hanswers := answers_of_does hdoes concludes.turns.silent
      obtain ⟨hqueue, rfl⟩ := hanswers.of_run rfl hran
      obtain rfl : env'.1.queue s.poller.queue = q' := hqueue
      cases concludes with
      | done seeks =>
          have hdoes' : Does s.access env (later ++ [] ++
              [.answered .primary (.delete m) (.direct w.now) (.ok ())]) env' := by
            rw [List.append_nil]
            exact hdoes
          refine h.seeks hpoison rfl rfl seeks hdoes' (by simp) rfl hstock' ?_
          rw [hvisible]
          rfl

theorem OnCourse.releasing (h : s.OnCourse verdict w env (.continues () (.releasing m transit)))
    (hw : s.Undisturbed w) (hpoison : s.poller.poison.isSome = true)
    (hdoes : Does s.access env doings env')
    (hscript : Script s.poller false (.releasing m transit) doings course) :
    s.OnCourse verdict w env' course := by
  obtain ⟨hpresent, -, hdirect⟩ := h.stands.of_hand rfl
  obtain rfl := hdirect transit rfl
  have hstock : Queue.Stock _ w.now (env.1.queue s.poller.queue) (some m) := h.stock
  obtain ⟨stored, q', hrelease, hstock', hvisible, hid, hbody, hcount⟩ :=
    @Queue.Stock.release _ _ _ env.1.serials.freshReceipt _ hstock hpresent (hw.faultless .primary)
  have hran : (QueueCall.update m .zero).run env.1.now (wallClock env.1)
      (env.1.serials, env.1.queue s.poller.queue) =
        ((env.1.serials.receiptUsed, q'), .ok env.1.serials.freshReceipt) := by
    rw [← h.now] at hrelease
    simp only [QueueCall.run, hrelease]
  have hstory : s.storyOf verdict stored = story s.limit verdict m.id m.body m.dequeueCount := by
    rw [storyOf, hid, hbody, hcount]
  cases hscript with
  | @released _ _ receipt later _ concludes =>
      cases concludes with
      | done seeks =>
          have hdoes' : Does s.access env (later ++ [.marked .released] ++
              [.answered .primary (.update m .zero) (.direct w.now) (.ok receipt)]) env' := by
            rw [List.append_assoc]
            exact hdoes
          have hanswers := answers_of_does hdoes'
            (seeks.turns.after (by simp [Doing.isAnswer]) rfl).silent
          obtain rfl : env'.1.queue s.poller.queue = q' := (hanswers.of_run rfl hran).1
          refine h.seeks hpoison rfl rfl seeks hdoes' (by simp [Doing.isAnswer]) rfl hstock' ?_
          rw [hvisible, List.flatMap_cons, hstory]
          rfl
  | unreleased concludes =>
      have hanswers := answers_of_does hdoes concludes.turns.silent
      cases (hanswers.of_run rfl hran).2

theorem OnCourse.shelves {phase' : TickPhase} {reply : Except StorageError call.Reply}
    {next : QueueCall} {transit' : Transit} {marks : List Doing}
    (h : s.OnCourse verdict w env (.continues () phase))
    (hpoison : s.poller.poison.isSome = true) (hhand : phase.hand? = some m)
    (hhand' : phase'.hand? = some m) (htransit : phase'.transit? = some transit')
    (hdoes : Does s.access env
      (.begun role next transit' :: marks ++ [.answered .poison call transit reply]) env')
    (hanswers : s.Answers .poison call transit reply env.1 env'.1)
    (hshelf : Queue.Shelf (w.queue (s.target .poison)) w.now
      (copiedIn env.2 ++
        copiedIn (.begun role next transit' :: marks ++ [.answered .poison call transit reply]))
      phase'.isCopying (env'.1.queue (s.target .poison)))
    (htold : happenings
        (.begun role next transit' :: marks ++ [.answered .poison call transit reply]) ++
          phase'.ahead s.limit verdict = phase.ahead s.limit verdict) :
    s.OnCourse verdict w env' (.continues () phase') := by
  obtain ⟨hpresent, hfinds, -⟩ := h.stands.of_hand hhand
  have hprimary := hanswers.queue_of_poison hpoison
  have hstock : Queue.Stock (w.queue s.poller.queue) w.now _ phase.hand? := h.stock
  have hdirect := h.direct hdoes (List.mem_cons_self ..)
  refine h.next hdoes ?_ hshelf ?_ ?_
  · rw [hprimary]
    rw [hhand, ← hhand'] at hstock
    exact hstock
  · rw [hprimary]
    exact (List.append_assoc ..).symm.trans (congrArg (· ++ _) htold)
  · refine .handling hhand' hpresent hfinds ?_
    intro other hother
    rw [htransit] at hother
    exact (Option.some.inj hother).symm.trans hdirect

theorem OnCourse.preparing (h : s.OnCourse verdict w env (.continues () (.preparing m transit)))
    (hpoison : s.poller.poison.isSome = true) (hdoes : Does s.access env doings env')
    (hscript : Script s.poller false (.preparing m transit) doings course) :
    s.OnCourse verdict w env' course := by
  obtain ⟨-, -, hdirect⟩ := h.stands.of_hand rfl
  obtain rfl := hdirect transit rfl
  have hshelf : Queue.Shelf _ w.now _ false (env.1.queue (s.target .poison)) := h.shelf
  have hran : QueueCall.create.run env.1.now (wallClock env.1)
      (env.1.serials, env.1.queue (s.target .poison)) =
        ((env.1.serials, { env.1.queue (s.target .poison) with present := true }), .ok ()) := rfl
  cases hscript with
  | @prepared _ _ transit' =>
      have hdoes' : Does s.access env ([.begun .poison (.enqueue m.body) transit'] ++
        [.answered .poison .create (.direct w.now) (.ok ())]) env' := hdoes
      have hanswers := answers_of_does hdoes' (by simp [Doing.isAnswer])
      refine h.shelves hpoison rfl rfl rfl hdoes' hanswers ?_ rfl
      rw [(hanswers.of_run rfl hran).1]
      exact (List.append_nil _).symm ▸ hshelf.create
  | unprepared forgoes =>
      have hanswers := answers_of_does hdoes forgoes.turns.silent
      cases (hanswers.of_run rfl hran).2

theorem OnCourse.copying (h : s.OnCourse verdict w env (.continues () (.copying m transit)))
    (hw : s.Undisturbed w) (hpoison : s.poller.poison.isSome = true)
    (hdoes : Does s.access env doings env')
    (hscript : Script s.poller false (.copying m transit) doings course) :
    s.OnCourse verdict w env' course := by
  obtain ⟨-, -, hdirect⟩ := h.stands.of_hand rfl
  obtain rfl := hdirect transit rfl
  have hshelf : Queue.Shelf _ w.now _ true (env.1.queue (s.target .poison)) := h.shelf
  have henqueue := hshelf.enqueue (hw.faultless .poison) (wallClock env.1)
    env.1.serials.freshMessage m.body
  have hran : (QueueCall.enqueue m.body).run env.1.now (wallClock env.1)
      (env.1.serials, env.1.queue (s.target .poison)) = ((env.1.serials.messageUsed,
        (env.1.queue (s.target .poison)).append env.1.serials.freshMessage m.body 0 w.now
          (wallClock env.1)), .ok env.1.serials.freshMessage) := by
    rw [← h.now] at henqueue ⊢
    simp only [QueueCall.run, henqueue]
  cases hscript with
  | @copied _ _ transit' copy =>
      have hdoes' : Does s.access env ([.begun .primary (.delete m) transit', .marked .poisoned] ++
        [.answered .poison (.enqueue m.body) (.direct w.now) (.ok copy)]) env' := hdoes
      have hanswers := answers_of_does hdoes' (by simp [Doing.isAnswer])
      refine h.shelves hpoison rfl rfl rfl hdoes' hanswers ?_ rfl
      rw [(hanswers.of_run rfl hran).1]
      exact hshelf.append (wallClock env.1) env.1.serials.freshMessage m.body
  | uncopied forgoes =>
      have hanswers := answers_of_does hdoes forgoes.turns.silent
      cases (hanswers.of_run rfl hran).2

end

end Sweep

end LeasedListener
