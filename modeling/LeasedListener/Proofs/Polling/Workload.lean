import LeasedListener.Proofs.Polling.Hand
import LeasedListener.Proofs.Polling.Logic
import LeasedListener.Proofs.Polling.Resting
import LeasedListener.Proofs.Polling.Sweep
import LeasedListener.Proofs.Queue.Order

/-!
# The work of a sweep

A message that is released is visible again at once, so the number of visible
messages is no measure of what a sweep has still to do.  Each visible message
may be delivered as often as its count is below the limit, and once at least.
The message in hand keeps what is left of that until it is released.  Every
delivery takes from this, every other transition of the tick brings it closer
to its next delivery or to its end, and no failure of a call adds anything.
-/

namespace LeasedListener

open Surroundings

namespace Poller

/-- How often a visible message of this count may be delivered. -/
def allowance (p : Poller) (count : UInt32) : Nat :=
  if p.poison.isSome then max 1 (p.config.maxDequeueCount.toNat - count.toNat) else 1

/-- How often a message that was delivered with this count may be delivered
again. -/
def reserve (p : Poller) (count : UInt32) : Nat :=
  if p.poison.isSome then p.config.maxDequeueCount.toNat - count.toNat else 0

theorem reserve_nextCount (p : Poller) (count : UInt32) :
    p.reserve (nextCount count) + 1 ≤ p.allowance count := by
  have hbound : p.config.maxDequeueCount.toNat < UInt32.size := p.config.maxDequeueCount.toNat_lt
  unfold reserve allowance
  split
  · rw [toNat_nextCount]
    omega
  · exact Nat.le_refl _

theorem allowance_of_release {p : Poller} {succeeded : Bool} {count : UInt32}
    (h : disposition p.config.maxDequeueCount succeeded count p.poison.isSome = .release) :
    p.allowance count = p.reserve count := by
  obtain ⟨-, hpoison, hseldom⟩ := disposition_eq_release h
  have hless : count.toNat < p.config.maxDequeueCount.toNat := UInt32.lt_iff_toNat_lt.mp hseldom
  unfold allowance reserve
  rw [if_pos hpoison, if_pos hpoison]
  omega

end Poller

namespace TickPhase

def reserve (p : Poller) : TickPhase → Nat
  | .executing claim _ _ | .settling claim _ _ _ => p.reserve claim.message.dequeueCount
  | .releasing m _ => p.reserve m.dequeueCount
  | _ => 0

def withRenewal (renewal : RenewalTimer) : TickPhase → TickPhase
  | .executing claim _ execution => .executing claim renewal execution
  | .settling claim _ succeeded wait => .settling claim renewal succeeded wait
  | phase => phase

theorem reserve_withRenewal (p : Poller) (renewal : RenewalTimer) (phase : TickPhase) :
    (phase.withRenewal renewal).reserve p = phase.reserve p := by
  cases phase <;> rfl

/-- A bound on the transitions before the next delivery or the end. -/
def rank : TickPhase → Nat
  | .executing _ renewal _ => 7 + (renewal.loop.map turnsLeft).getD 0
  | .settling _ renewal _ _ => 5 + (renewal.loop.map turnsLeft).getD 0
  | .preparing _ _ => 4
  | .copying _ _ => 3
  | .deleting _ _ | .releasing _ _ | .probing _ => 2
  | .dequeuing _ _ => 1

end TickPhase

def Progress.phase? {Env Phase Result : Type} : Progress Env Phase Result → Option Phase
  | .continues _ phase => some phase
  | .ended _ _ | .died _ _ => none

theorem phase?_course {Env : Type} (progress : TickProgress Env) :
    TickCourse.phase? progress.course = progress.phase? := by
  cases progress <;> rfl

/-- What a tick does once it is done with a message: it looks for the next one
or ends. -/
structure Turns (doings : List Doing) (course : TickCourse) : Prop where
  silent : ∀ doing ∈ doings, doing.isAnswer = false
  none : taken doings = []
  next : ∀ phase, course.phase? = some phase → ∃ found window transit,
    phase = .dequeuing found transit ∧ .begun .primary (.dequeue window) transit ∈ doings
  lives : ∀ reason, course ≠ .died () reason

section

variable {p : Poller} {cancelled found : Bool} {doings : List Doing} {course : TickCourse}

theorem turns_of_end (result : Except StorageError Bool) : Turns [] (.ended () result) where
  silent := by simp
  none := rfl
  next := by simp [TickCourse.phase?]
  lives := by simp

theorem Seeks.turns (h : Seeks p cancelled found doings course) : Turns doings course := by
  cases h with
  | quits _ => exact turns_of_end _
  | asks _ transit =>
      constructor
      case silent => simp [Doing.isAnswer]
      case none => rfl
      case next =>
        rintro _ ⟨⟩
        exact ⟨_, _, _, rfl, List.mem_singleton_self _⟩
      case lives => simp

theorem Turns.after (h : Turns doings course) {earlier : List Doing}
    (hsilent : ∀ doing ∈ earlier, doing.isAnswer = false) (hnone : taken earlier = []) :
    Turns (doings ++ earlier) course where
  silent := by
    intro doing hdoing
    rcases List.mem_append.mp hdoing with hlater | hearlier
    · exact h.silent doing hlater
    · exact hsilent doing hearlier
  none := by rw [taken_append, h.none, hnone]; rfl
  next := by
    intro phase hphase
    obtain ⟨found, window, transit, hdequeuing, hbegun⟩ := h.next phase hphase
    exact ⟨found, window, transit, hdequeuing, List.mem_append_left _ hbegun⟩
  lives := h.lives

theorem Concludes.turns {reply : Except StorageError Unit}
    (h : Concludes p cancelled reply doings course) : Turns doings course := by
  cases h with
  | done seeks => exact seeks.turns
  | gone _ seeks => exact seeks.turns.after (by simp [Doing.isAnswer]) rfl
  | failed _ seeks => exact seeks.turns
  | fails _ => exact turns_of_end _

theorem Forgoes.turns {error : StorageError} (h : Forgoes p cancelled error doings course) :
    Turns doings course := by
  cases h with
  | fails _ => exact turns_of_end _
  | leaves _ seeks => exact seeks.turns

end

namespace Sweep

variable {s : Sweep} {w w' : World} {phase phase' : TickPhase} {doings later : List Doing}
  {course : TickCourse} {cancelled : Bool} {role : QueueRole} {call : QueueCall}
  {transit : Transit} {reply : Except StorageError call.Reply} {env env' : World × List Doing}
  {m : Delivery}

/-- How often the visible messages may be delivered. -/
def workload (s : Sweep) (w : World) : Nat :=
  Queue.load s.poller.allowance w.now (w.queue s.poller.queue).messages

def Counted (s : Sweep) (w : World) (m : Delivery) : Prop :=
  ∀ stored, (w.queue s.poller.queue).find? m.id = some stored →
    stored.dequeueCount = m.dequeueCount

def Idle (w : World) (cancelled : Bool) (renewal : RenewalTimer) : Prop :=
  ∃ loop, renewal.loop = some loop ∧ Resting w.now cancelled loop

/-- Calls and runs under way are over at once. -/
def Fits (s : Sweep) (w : World) : TickPhase → Prop
  | .probing transit | .dequeuing _ transit | .deleting _ transit =>
      transit.arrived w.now = true
  | .executing claim renewal execution =>
      s.Judged w.now execution ∧ Idle w false renewal ∧ s.Counted w claim.message
  | .settling claim renewal _ _ => Idle w true renewal ∧ s.Counted w claim.message
  | .releasing m transit =>
      transit.arrived w.now = true ∧ s.Counted w m ∧
        s.poller.allowance m.dequeueCount = s.poller.reserve m.dequeueCount
  | .preparing _ transit | .copying _ transit =>
      transit.arrived w.now = true ∧ s.poller.poison.isSome = true

def pending (s : Sweep) (w : World) (phase? : Option TickPhase) : Nat :=
  s.workload w + (phase?.map (·.reserve s.poller)).getD 0

/-- A message that is released is visible again at once.  What gets less is not
the number of messages, but how often they may still be delivered; between two
deliveries there are at most eight transitions. -/
def work (s : Sweep) (w : World) (phase? : Option TickPhase) : Nat :=
  8 * s.pending w phase? + (phase?.map TickPhase.rank).getD 0

def IsPrompt (s : Sweep) (w : World) : Prop := s.Scripted (fun delay _ => delay.isZero = true) w

theorem arrived_of_begun (hprompt : s.IsPrompt env.1) (hdoes : Does s.access env doings env')
    (hbegun : .begun role call transit ∈ doings) : transit.arrived env'.1.now = true := by
  rw [(clock_of_does hdoes).1]
  rcases sent_of_does hprompt hdoes hbegun with rfl | ⟨delay, fault, hzero, rfl⟩
  · simp [Transit.direct, Transit.arrived, Instant.reached]
  · simp [Transit.arrived, hzero, Instant.reached]

/-- What a transition does to that which a sweep has still to do. -/
structure Spends (s : Sweep) (w : World) (phase : TickPhase) (doings : List Doing) (w' : World)
    (course : TickCourse) : Prop where
  distinct : (w'.queue s.poller.queue).IsDistinct
  fits : ∀ phase', course.phase? = some phase' → s.Fits w' phase'
  deliveries : (taken doings).length + s.pending w' course.phase? ≤ s.pending w (some phase)
  work : s.work w' course.phase? < s.work w (some phase)

theorem Answers.isDistinct (h : s.Answers .primary call transit reply w w')
    (hdistinct : (w.queue s.poller.queue).IsDistinct) (hcall : ∀ body, call ≠ .enqueue body) :
    (w'.queue s.poller.queue).IsDistinct := by
  have hqueue : w'.queue s.poller.queue = _ := h.queue
  rw [hqueue]
  rcases transit.carry_fst (call.run w.now (wallClock w)) (w.serials, w.queue s.poller.queue) with
    hnone | hwhole
  · exact (congrArg (fun state : Serials × Queue => state.2.IsDistinct) hnone).mpr hdistinct
  · refine (congrArg (fun state : Serials × Queue => state.2.IsDistinct) hwhole).mpr ?_
    exact (QueueCall.affects_run call hdistinct).isDistinct hcall hdistinct

/-- A bound on the load that a call respects, whether it takes place or
not. -/
theorem Answers.workload_le (h : s.Answers .primary call transit reply w w') {bound : Nat}
    (hkept : s.workload w ≤ bound)
    (hrun : Queue.load s.poller.allowance w.now
      (call.run w.now (wallClock w) (w.serials, w.queue s.poller.queue)).1.2.messages ≤ bound) :
    s.workload w' ≤ bound := by
  have hqueue : w'.queue s.poller.queue = _ := h.queue
  unfold workload
  rw [hqueue, h.now]
  rcases transit.carry_fst (call.run w.now (wallClock w)) (w.serials, w.queue s.poller.queue) with
    hnone | hwhole
  · exact (congrArg (fun state : Serials × Queue =>
      Queue.load s.poller.allowance w.now state.2.messages ≤ bound) hnone).mpr hkept
  · exact (congrArg (fun state : Serials × Queue =>
      Queue.load s.poller.allowance w.now state.2.messages ≤ bound) hwhole).mpr hrun

theorem workload_congr (hnow : w'.now = w.now)
    (hqueue : w'.queue s.poller.queue = w.queue s.poller.queue) :
    s.workload w' = s.workload w := by
  unfold workload
  rw [hqueue, hnow]

theorem Answers.queue_of_poison (h : s.Answers .poison call transit reply w w')
    (hpoison : s.poller.poison.isSome = true) :
    w'.queue s.poller.queue = w.queue s.poller.queue :=
  h.others s.poller.queue (target_poison_ne hpoison)

theorem spends_of_turns {later earlier : List Doing} (hprompt : s.IsPrompt env.1)
    (hdoes : Does s.access env (later ++ earlier) env') (hturns : Turns later course)
    (hnone : taken earlier = []) (hdistinct : (env'.1.queue s.poller.queue).IsDistinct)
    (hload : s.workload env'.1 ≤ s.pending env.1 (some phase)) (hrank : 1 < phase.rank) :
    s.Spends env.1 phase (later ++ earlier) env'.1 course := by
  have hpending : s.pending env'.1 course.phase? = s.workload env'.1 ∧
      (course.phase?.map TickPhase.rank).getD 0 ≤ 1 := by
    cases hnext : course.phase? with
    | none => exact ⟨rfl, Nat.zero_le _⟩
    | some phase' =>
        obtain ⟨found, window, transit, rfl, -⟩ := hturns.next phase' hnext
        exact ⟨rfl, Nat.le_refl _⟩
  constructor
  case distinct => exact hdistinct
  case fits =>
    intro phase' hnext
    obtain ⟨found, window, transit, rfl, hbegun⟩ := hturns.next phase' hnext
    exact arrived_of_begun hprompt hdoes (List.mem_append_left _ hbegun)
  case deliveries =>
    rw [taken_append, hturns.none, hnone, hpending.1]
    simpa using hload
  case work =>
    unfold work
    rw [hpending.1]
    have hsome : (((some phase).map TickPhase.rank).getD 0) = phase.rank := rfl
    omega

theorem spends_of_continues (hdistinct : (w'.queue s.poller.queue).IsDistinct)
    (hfits : s.Fits w' phase')
    (hdeliveries : (taken doings).length + (s.workload w' + phase'.reserve s.poller) ≤
      s.workload w + phase.reserve s.poller)
    (hwork : 8 * (s.workload w' + phase'.reserve s.poller) + phase'.rank <
      8 * (s.workload w + phase.reserve s.poller) + phase.rank) :
    s.Spends w phase doings w' (.continues () phase') where
  distinct := hdistinct
  fits := by
    rintro _ ⟨⟩
    exact hfits
  deliveries := hdeliveries
  work := hwork

theorem spends_of_kept (hnow : w'.now = w.now)
    (hqueue : w'.queue s.poller.queue = w.queue s.poller.queue)
    (hdistinct : (w.queue s.poller.queue).IsDistinct) (hnone : taken doings = [])
    (hfits : s.Fits w' phase') (hreserve : phase'.reserve s.poller ≤ phase.reserve s.poller)
    (hrank : phase'.rank < phase.rank) :
    s.Spends w phase doings w' (.continues () phase') := by
  have hload := workload_congr hnow hqueue
  have hlength : (taken doings).length = 0 := congrArg List.length hnone
  refine spends_of_continues ?_ hfits (by omega) (by omega)
  rw [hqueue]
  exact hdistinct

theorem Answers.delivers {window : Duration} {m : Delivery}
    (h : s.Answers .primary (.dequeue window) transit (.ok (some m)) w w') :
    ∃ stored, (w.queue s.poller.queue).messages.find? (·.isVisible w.now) = some stored ∧
      m = stored.delivery w.serials.freshReceipt ((wallClock w).plus window) ∧
      w'.queue s.poller.queue = (w.queue s.poller.queue).change stored.id
        fun _ => stored.countDequeue.claim w.now w.serials.freshReceipt window := by
  have hrun : (QueueCall.dequeue window).run w.now (wallClock w)
      (w.serials, w.queue s.poller.queue) =
        ((w'.serials, w'.queue s.poller.queue), .ok (some m)) := h.run_of_ok
  have hafter : (w'.queue s.poller.queue, .ok (some m)) =
      (w.queue s.poller.queue).dequeue w.now (wallClock w) w.serials.freshReceipt window := by
    obtain ⟨hqueue, hreply⟩ :=
      @QueueCall.run_dequeue w.now (wallClock w) w.serials (w.queue s.poller.queue) window
    rw [hrun] at hqueue hreply
    exact Prod.ext hqueue hreply
  have hserves := (w.queue s.poller.queue).serves_dequeue w.now (wallClock w)
    w.serials.freshReceipt window
  rw [← hafter] at hserves
  generalize w'.queue s.poller.queue = queue at hserves
  cases hserves with
  | delivers isOpen first => exact ⟨_, first, rfl, rfl⟩

theorem Answers.takes {window : Duration} {m : Delivery}
    (h : s.Answers .primary (.dequeue window) transit (.ok (some m)) w w')
    (hdistinct : (w.queue s.poller.queue).IsDistinct) (hwindow : 0 < window.nanos) :
    s.Counted w' m ∧ s.workload w' + s.poller.reserve m.dequeueCount + 1 ≤ s.workload w := by
  obtain ⟨stored, hfirst, rfl, hqueue⟩ := h.delivers
  obtain ⟨before, after, hlies, -, -⟩ := Queue.lies_of_first hdistinct hfirst
  have hcount : (stored.delivery w.serials.freshReceipt
    ((wallClock w).plus window)).dequeueCount = nextCount stored.dequeueCount := rfl
  constructor
  · have hstored : (w'.queue s.poller.queue).find? stored.id =
        some (stored.countDequeue.claim w.now w.serials.freshReceipt window) := by
      rw [hqueue, Queue.find?_change, if_pos rfl, hlies.find?]
      · rfl
      · exact fun _ _ => rfl
    intro found hfound
    obtain rfl := Option.some.inj (hstored.symm.trans hfound)
    rfl
  · have hload : Queue.load s.poller.allowance w.now (w'.queue s.poller.queue).messages +
        s.poller.allowance stored.dequeueCount = s.workload w := by
      rw [hqueue]
      exact Queue.load_serve hdistinct hwindow hfirst
    have hreserve := s.poller.reserve_nextCount stored.dequeueCount
    rw [hcount, workload, h.now]
    omega

theorem Answers.workload_dequeue {window : Duration}
    {reply : Except StorageError (Option Delivery)}
    (h : s.Answers .primary (.dequeue window) transit reply w w')
    (hdistinct : (w.queue s.poller.queue).IsDistinct) (hwindow : 0 < window.nanos) :
    s.workload w' ≤ s.workload w := by
  refine h.workload_le (Nat.le_refl _) ?_
  rw [(QueueCall.run_dequeue _ _ window).1]
  have hserves := (w.queue s.poller.queue).serves_dequeue w.now (wallClock w)
    w.serials.freshReceipt window
  generalize (w.queue s.poller.queue).dequeue w.now (wallClock w) w.serials.freshReceipt window =
    outcome at hserves
  cases hserves with
  | delivers isOpen first =>
      exact Nat.le_of_add_right_le (Nat.le_of_eq (Queue.load_serve hdistinct hwindow first))
  | exhausted isOpen hidden => exact Nat.le_refl _
  | refuses barred messages => exact Nat.le_of_eq (congrArg (Queue.load _ _) messages)

theorem Answers.workload_delete {m : Delivery} {reply : Except StorageError Unit}
    (h : s.Answers .primary (.delete m) transit reply w w')
    (hdistinct : (w.queue s.poller.queue).IsDistinct) : s.workload w' ≤ s.workload w := by
  refine h.workload_le (Nat.le_refl _) ?_
  have hqueue : ((QueueCall.delete m).run w.now (wallClock w)
    (w.serials, w.queue s.poller.queue)).1.2 = ((w.queue s.poller.queue).delete w.now m).1 := rfl
  rw [hqueue]
  by_cases haccepted : (w.queue s.poller.queue).IsOpen .delete ∧
      (w.queue s.poller.queue).Honours w.now m
  · rw [Queue.delete_of_honours haccepted.1 haccepted.2]
    exact Queue.load_remove_le hdistinct m.id
  · exact Nat.le_of_eq (congrArg (Queue.load _ _) (Queue.refuses_delete haccepted).messages)

theorem Answers.workload_release {m : Delivery} {reply : Except StorageError Receipt}
    (h : s.Answers .primary (.update m .zero) transit reply w w')
    (hdistinct : (w.queue s.poller.queue).IsDistinct) (hcounted : s.Counted w m) :
    s.workload w' ≤ s.workload w + s.poller.allowance m.dequeueCount := by
  refine h.workload_le (Nat.le_add_right _ _) ?_
  rw [QueueCall.run_update]
  by_cases haccepted : (w.queue s.poller.queue).IsOpen .update ∧
      (w.queue s.poller.queue).Honours w.now m
  · rw [Queue.updateVisibility_of_honours haccepted.1 haccepted.2]
    obtain ⟨stored, hstored, -, -⟩ := haccepted.2
    rw [← hcounted stored hstored]
    exact Queue.load_claim_le hdistinct hstored
  · have hmessages := (Queue.refuses_updateVisibility w.serials.freshReceipt .zero
      haccepted).messages
    rw [hmessages]
    exact Nat.le_add_right _ _

theorem Counted.kept (h : s.Counted w m)
    (hqueue : w'.queue s.poller.queue = w.queue s.poller.queue) : s.Counted w' m := by
  unfold Counted
  rw [hqueue]
  exact h

theorem Idle.kept {renewal : RenewalTimer} (h : Idle w cancelled renewal)
    (hnow : w'.now = w.now) : Idle w' cancelled renewal := by
  unfold Idle
  rw [hnow]
  exact h

section

variable (hprompt : s.IsPrompt env.1) (hdistinct : (env.1.queue s.poller.queue).IsDistinct)

include hprompt hdistinct

theorem spends_of_answer {later : List Doing} {reply : Except StorageError call.Reply}
    (hdoes : Does s.access env (later ++ [.answered .primary call transit reply]) env')
    (hturns : Turns later course) (hcall : ∀ body, call ≠ .enqueue body)
    (hnone : taken [.answered .primary call transit reply] = [])
    (hload : s.workload env'.1 ≤ s.pending env.1 (some phase)) (hrank : 1 < phase.rank) :
    s.Spends env.1 phase (later ++ [.answered .primary call transit reply]) env'.1 course :=
  spends_of_turns hprompt hdoes hturns hnone
    ((answers_of_does hdoes hturns.silent).isDistinct hdistinct hcall) hload hrank

theorem spends_probing
    (hdoes : Does s.access env doings env')
    (hscript : Script s.poller cancelled (.probing transit) doings course) :
    s.Spends env.1 (.probing transit) doings env'.1 course := by
  have hprobed : ∀ {later : List Doing} {reply : Except StorageError Bool},
      Does s.access env (later ++ [.answered .primary .probe transit reply]) env' →
      Turns later course →
      s.Spends env.1 (.probing transit) (later ++ [.answered .primary .probe transit reply])
        env'.1 course := by
    intro later reply hdoes hturns
    have hload : s.workload env'.1 ≤ s.workload env.1 :=
      (answers_of_does hdoes hturns.silent).workload_le (Nat.le_refl _) (Nat.le_refl _)
    exact spends_of_answer hprompt hdistinct hdoes hturns (by simp) rfl hload Nat.one_lt_two
  cases hscript with
  | present seeks => exact hprobed hdoes seeks.turns
  | absent => exact hprobed hdoes (turns_of_end _)
  | unknown => exact hprobed hdoes (turns_of_end _)

omit hprompt in
theorem spends_dequeuing {found : Bool} (hdoes : Does s.access env doings env')
    (hscript : Script s.poller cancelled (.dequeuing found transit) doings course) :
    s.Spends env.1 (.dequeuing found transit) doings env'.1 course := by
  have hwindow : 0 < s.poller.config.visibilityTimeout.nanos :=
    (s.poller.config.validate_eq_ok_iff.mp s.valid).1
  have hanswers : ∀ {later : List Doing} {reply : Except StorageError (Option Delivery)},
      Does s.access env (later ++
        [.answered .primary (.dequeue s.poller.config.visibilityTimeout) transit reply]) env' →
      (∀ doing ∈ later, doing.isAnswer = false) →
      s.Answers .primary (.dequeue s.poller.config.visibilityTimeout) transit reply env.1 env'.1 ∧
        (env'.1.queue s.poller.queue).IsDistinct := by
    intro later reply hdoes hsilent
    have hanswers := answers_of_does hdoes hsilent
    exact ⟨hanswers, hanswers.isDistinct hdistinct (by simp)⟩
  have hended : ∀ {reply : Except StorageError (Option Delivery)}
      {result : Except StorageError Bool},
      Does s.access env ([] ++
        [.answered .primary (.dequeue s.poller.config.visibilityTimeout) transit reply]) env' →
      taken [.answered .primary (.dequeue s.poller.config.visibilityTimeout) transit reply] = [] →
      s.Spends env.1 (.dequeuing found transit)
        [.answered .primary (.dequeue s.poller.config.visibilityTimeout) transit reply] env'.1
        (.ended () result) := by
    intro reply result hdoes hnone
    obtain ⟨hanswers, hdistinct'⟩ := hanswers hdoes (by simp)
    have hload := hanswers.workload_dequeue hdistinct hwindow
    constructor
    case distinct => exact hdistinct'
    case fits => simp [TickCourse.phase?]
    case deliveries =>
      rw [hnone, List.length_nil, Nat.zero_add]
      exact hload
    case work => exact Nat.lt_succ_of_le (Nat.mul_le_mul_left 8 hload)
  cases hscript with
  | @received _ _ m execution =>
      have hdoes' : Does s.access env ([.started m execution, .marked .dequeued] ++
        [.answered .primary (.dequeue s.poller.config.visibilityTimeout) transit (.ok (some m))])
        env' := hdoes
      obtain ⟨hanswered, hdistinct'⟩ := hanswers hdoes' (by simp [Doing.isAnswer])
      obtain ⟨hcounted, hload⟩ := hanswered.takes hdistinct hwindow
      have hjudged : s.Judged env'.1.now execution := by
        obtain ⟨history, hexecution⟩ := judged_of_does hdoes (List.mem_cons_self ..)
        rw [(clock_of_does hdoes).1]
        exact ⟨history, m, hexecution⟩
      have hidle : Idle env'.1 false (s.poller.renewalTimer m) :=
        ⟨_, rfl, .spawned (Poller.next_renewalPace_pos s.valid)⟩
      have hphase : (TickPhase.executing (.create m) (s.poller.renewalTimer m) execution).reserve
        s.poller = s.poller.reserve m.dequeueCount := rfl
      have hrank : (TickPhase.executing (.create m) (s.poller.renewalTimer m) execution).rank = 8 :=
        rfl
      have hrank' : (TickPhase.dequeuing found transit).rank = 1 := rfl
      have hreserve' : (TickPhase.dequeuing found transit).reserve s.poller = 0 := rfl
      refine spends_of_continues hdistinct' ⟨hjudged, hidle, hcounted⟩ ?_ (by omega)
      rw [hphase]
      simp only [taken, List.filterMap_cons, List.filterMap_nil, Doing.taken?, List.length_cons,
        List.length_nil]
      omega
  | exhausted => exact hended hdoes rfl
  | unserved => exact hended hdoes rfl

omit hprompt in
theorem spends_executing {claim : Claim} {renewal : RenewalTimer} {execution : Execution}
    (hfits : s.Fits env.1 (.executing claim renewal execution))
    (hdoes : Does s.access env doings env')
    (hscript : Script s.poller cancelled (.executing claim renewal execution) doings course) :
    s.Spends env.1 (.executing claim renewal execution) doings env'.1 course := by
  obtain ⟨-, ⟨loop, hloop, hresting⟩, hcounted⟩ := hfits
  have hsilent : ∀ result, ∀ doing ∈ [Doing.finished execution result],
      doing.isAnswer = false := by
    simp [Doing.isAnswer]
  have hrank' : 7 ≤ (TickPhase.executing claim renewal execution).rank := Nat.le_add_right ..
  cases hscript with
  | @executed _ _ _ succeeded instant start ended =>
      have hloop' : renewal.cancel.loop = some loop.cancel := congrArg (Option.map _) hloop
      have hidle : Idle env'.1 true renewal.cancel := by
        refine ⟨loop.cancel, hloop', ?_⟩
        rw [(clock_of_does hdoes).1]
        exact hresting.cancel
      have hrank : (TickPhase.settling claim renewal.cancel succeeded
          (.start start s.poller.config.stopTimeout)).rank = 5 + turnsLeft loop.cancel := by
        simp [TickPhase.rank, hloop']
      have hturns := turnsLeft_le loop.cancel
      have hqueue := queue_of_does hdoes (hsilent _) s.poller.queue
      exact spends_of_kept (clock_of_does hdoes).1 hqueue hdistinct rfl
        ⟨hidle, hcounted.kept hqueue⟩ (Nat.le_refl _) (by omega)
  | broken ended =>
      have hqueue := queue_of_does hdoes (hsilent _) s.poller.queue
      have hload := workload_congr (clock_of_does hdoes).1 hqueue
      constructor
      case distinct =>
        rw [hqueue]
        exact hdistinct
      case fits => simp [TickCourse.phase?]
      case deliveries =>
        show 0 + s.workload env'.1 ≤ s.workload env.1 + _
        omega
      case work =>
        show 8 * s.workload env'.1 <
          8 * (s.workload env.1 + _) + (TickPhase.executing claim renewal execution).rank
        omega

theorem spends_settling {claim : Claim} {renewal : RenewalTimer} {succeeded : Bool}
    {wait : StopWait} (hfits : s.Fits env.1 (.settling claim renewal succeeded wait))
    (hdoes : Does s.access env doings env')
    (hscript : Script s.poller cancelled (.settling claim renewal succeeded wait) doings course) :
    s.Spends env.1 (.settling claim renewal succeeded wait) doings env'.1 course := by
  have hrank : 4 < (TickPhase.settling claim renewal succeeded wait).rank := by
    simp only [TickPhase.rank]
    omega
  cases hscript with
  | @settled _ _ _ _ _ _ later _ disposes =>
      have hbegins : ∀ {role : QueueRole} {call : QueueCall} {transit : Transit}
          {phase' : TickPhase},
          Does s.access env ([.begun role call transit] ++
            [.marked (if succeeded then .succeeded else .failed)]) env' →
          (transit.arrived env'.1.now = true → s.Counted env'.1 claim.message →
            s.Fits env'.1 phase') →
          phase'.reserve s.poller ≤ s.poller.reserve claim.message.dequeueCount →
          phase'.rank ≤ 4 →
          s.Spends env.1 (.settling claim renewal succeeded wait) ([.begun role call transit] ++
            [.marked (if succeeded then .succeeded else .failed)]) env'.1
            (.continues () phase') := by
        intro role call transit phase' hdoes hfits' hreserve hrank'
        have hsilent : ∀ doing ∈ [Doing.begun role call transit] ++
            [.marked (if succeeded then .succeeded else .failed)], doing.isAnswer = false := by
          simp [Doing.isAnswer]
        have hqueue := queue_of_does hdoes hsilent s.poller.queue
        exact spends_of_kept (clock_of_does hdoes).1 hqueue hdistinct rfl
          (hfits' (arrived_of_begun hprompt hdoes (List.mem_cons_self ..))
            (hfits.2.kept hqueue))
          hreserve (by omega)
      cases disposes with
      | deletes transit verdict =>
          exact hbegins hdoes (fun harrived _ => harrived) (Nat.zero_le _) (by simp [TickPhase.rank])
      | releases transit verdict =>
          exact hbegins hdoes
            (fun harrived hcounted => ⟨harrived, hcounted, Poller.allowance_of_release verdict⟩)
            (Nat.le_refl _) (by simp [TickPhase.rank])
      | quarantines transit verdict =>
          exact hbegins hdoes
            (fun harrived _ => ⟨harrived, (disposition_eq_quarantine verdict).2.1⟩)
            (Nat.zero_le _) (by simp [TickPhase.rank])
      | leaves verdict seeks =>
          have hsilent : ∀ doing ∈ later ++
              [.marked (if succeeded then .succeeded else .failed)], doing.isAnswer = false :=
            (seeks.turns.after (by simp [Doing.isAnswer]) rfl).silent
          have hqueue := queue_of_does hdoes hsilent s.poller.queue
          refine spends_of_turns hprompt hdoes seeks.turns rfl ?_ ?_ (by omega)
          · rw [hqueue]
            exact hdistinct
          · rw [workload_congr (clock_of_does hdoes).1 hqueue]
            exact Nat.le_add_right _ _

theorem spends_deleting (hdoes : Does s.access env doings env')
    (hscript : Script s.poller cancelled (.deleting m transit) doings course) :
    s.Spends env.1 (.deleting m transit) doings env'.1 course := by
  cases hscript with
  | deleted concludes =>
      have hload := (answers_of_does hdoes concludes.turns.silent).workload_delete hdistinct
      exact spends_of_answer hprompt hdistinct hdoes concludes.turns (by simp) rfl hload
        Nat.one_lt_two

theorem spends_releasing (hfits : s.Fits env.1 (.releasing m transit))
    (hdoes : Does s.access env doings env')
    (hscript : Script s.poller cancelled (.releasing m transit) doings course) :
    s.Spends env.1 (.releasing m transit) doings env'.1 course := by
  obtain ⟨-, hcounted, hallowance⟩ := hfits
  have hreleased : ∀ {later : List Doing} {reply : Except StorageError Receipt},
      Does s.access env (later ++ [.answered .primary (.update m .zero) transit reply]) env' →
      Turns later course →
      s.Spends env.1 (.releasing m transit)
        (later ++ [.answered .primary (.update m .zero) transit reply]) env'.1 course := by
    intro later reply hdoes hturns
    have hload := (answers_of_does hdoes hturns.silent).workload_release hdistinct hcounted
    rw [hallowance] at hload
    exact spends_of_answer hprompt hdistinct hdoes hturns (by simp) rfl hload Nat.one_lt_two
  cases hscript with
  | @released _ _ receipt later _ concludes =>
      have hturns : Turns (later ++ [.marked .released]) course :=
        concludes.turns.after (by simp [Doing.isAnswer]) rfl
      rw [List.append_cons] at hdoes ⊢
      exact hreleased hdoes hturns
  | unreleased concludes => exact hreleased hdoes concludes.turns

theorem spends_of_poison {later : List Doing} {reply : Except StorageError call.Reply}
    (hpoison : s.poller.poison.isSome = true)
    (hdoes : Does s.access env (later ++ [.answered .poison call transit reply]) env')
    (hturns : Turns later course) (hnone : taken [.answered .poison call transit reply] = [])
    (hrank : 1 < phase.rank) :
    s.Spends env.1 phase (later ++ [.answered .poison call transit reply]) env'.1 course := by
  have hqueue := (answers_of_does hdoes hturns.silent).queue_of_poison hpoison
  refine spends_of_turns hprompt hdoes hturns hnone ?_ ?_ hrank
  · rw [hqueue]
    exact hdistinct
  · rw [workload_congr (clock_of_does hdoes).1 hqueue]
    exact Nat.le_add_right _ _

theorem spends_preparing (hfits : s.Fits env.1 (.preparing m transit))
    (hdoes : Does s.access env doings env')
    (hscript : Script s.poller cancelled (.preparing m transit) doings course) :
    s.Spends env.1 (.preparing m transit) doings env'.1 course := by
  cases hscript with
  | @prepared _ _ transit' =>
      have hanswers : s.Answers .poison .create transit (.ok ()) env.1 env'.1 := by
        have hdoes' : Does s.access env ([.begun .poison (.enqueue m.body) transit'] ++
          [.answered .poison .create transit (.ok ())]) env' := hdoes
        exact answers_of_does hdoes' (by simp [Doing.isAnswer])
      exact spends_of_kept hanswers.now (hanswers.queue_of_poison hfits.2) hdistinct rfl
        ⟨arrived_of_begun hprompt hdoes (List.mem_cons_self ..), hfits.2⟩ (Nat.zero_le _)
        (by simp [TickPhase.rank])
  | unprepared forgoes =>
      exact spends_of_poison hprompt hdistinct hfits.2 hdoes forgoes.turns rfl
        (by simp [TickPhase.rank])

theorem spends_copying (hfits : s.Fits env.1 (.copying m transit))
    (hdoes : Does s.access env doings env')
    (hscript : Script s.poller cancelled (.copying m transit) doings course) :
    s.Spends env.1 (.copying m transit) doings env'.1 course := by
  cases hscript with
  | @copied _ _ transit' copy =>
      have hanswers : s.Answers .poison (.enqueue m.body) transit (.ok copy) env.1 env'.1 := by
        have hdoes' : Does s.access env ([.begun .primary (.delete m) transit', .marked .poisoned] ++
          [.answered .poison (.enqueue m.body) transit (.ok copy)]) env' := hdoes
        exact answers_of_does hdoes' (by simp [Doing.isAnswer])
      exact spends_of_kept hanswers.now (hanswers.queue_of_poison hfits.2) hdistinct rfl
        (arrived_of_begun hprompt hdoes (List.mem_cons_self ..)) (Nat.zero_le _)
        (by simp [TickPhase.rank])
  | uncopied forgoes =>
      exact spends_of_poison hprompt hdistinct hfits.2 hdoes forgoes.turns rfl
        (by simp [TickPhase.rank])

theorem spends_of_script (hfits : s.Fits env.1 phase) (hdoes : Does s.access env doings env')
    (hscript : Script s.poller cancelled phase doings course) :
    s.Spends env.1 phase doings env'.1 course := by
  cases phase with
  | probing transit => exact spends_probing hprompt hdistinct hdoes hscript
  | dequeuing found transit => exact spends_dequeuing hdistinct hdoes hscript
  | executing claim renewal execution => exact spends_executing hdistinct hfits hdoes hscript
  | settling claim renewal succeeded wait =>
      exact spends_settling hprompt hdistinct hfits hdoes hscript
  | deleting m transit => exact spends_deleting hprompt hdistinct hdoes hscript
  | releasing m transit => exact spends_releasing hprompt hdistinct hfits hdoes hscript
  | preparing m transit => exact spends_preparing hprompt hdistinct hfits hdoes hscript
  | copying m transit => exact spends_copying hprompt hdistinct hfits hdoes hscript

end

end Sweep

end LeasedListener
