import LeasedListener.Proofs.Polling.Course
import LeasedListener.Proofs.Polling.Drain

/-!
# Retries

A sweep that nothing disturbs takes the visible messages one after another, in
the order of the queue.  It executes each until a run succeeds or the count
has reached the limit, then removes it, and copies the body to the poison queue
if no run has succeeded.
-/

namespace LeasedListener

open Surroundings

namespace Sweep

section

variable {s : Sweep} {verdict : Verdict} {w w' : World} {env env' : World × List Doing}
  {phase : TickPhase} {course : TickCourse} {doings later : List Doing} {role : QueueRole}
  {call : QueueCall} {transit : Transit}

theorem OnCourse.own (h : s.OnCourse verdict w env (.continues () phase))
    (hverdict : ∀ history m, s.judge history m = .ok (verdict m.id m.body m.dequeueCount))
    (hw : s.Undisturbed w) (hpoison : s.poller.poison.isSome = true)
    (hfits : s.Fits env.1 phase) (hdoes : Does s.access env doings env')
    (hscript : Script s.poller false phase doings course) : s.OnCourse verdict w env' course := by
  cases phase with
  | probing transit => exact h.probing hw hpoison hdoes hscript
  | dequeuing found transit => exact h.dequeuing hverdict hw hpoison hdoes hscript
  | executing claim renewal execution => exact h.executing hverdict hfits.1 hdoes hscript
  | settling claim renewal succeeded wait => exact h.settling hpoison hdoes hscript
  | deleting m transit => exact h.deleting hw hpoison hdoes hscript
  | releasing m transit => exact h.releasing hw hpoison hdoes hscript
  | preparing m transit => exact h.preparing hpoison hdoes hscript
  | copying m transit => exact h.copying hw hpoison hdoes hscript

theorem OnCourse.withRenewal (h : s.OnCourse verdict w env (.continues () phase))
    (renewal : RenewalTimer) :
    s.OnCourse verdict w env (.continues () (phase.withRenewal renewal)) := by
  cases phase with
  | executing claim _ execution =>
      obtain ⟨hpresent, hfinds, hdirect⟩ := h.stands.of_hand rfl
      exact { h with stands := .handling rfl hpresent hfinds hdirect }
  | settling claim _ succeeded wait =>
      obtain ⟨hpresent, hfinds, hdirect⟩ := h.stands.of_hand rfl
      exact { h with stands := .handling rfl hpresent hfinds hdirect }
  | probing _ | dequeuing _ _ | deleting _ _ | releasing _ _ | preparing _ _ | copying _ _ =>
      exact h

theorem Undisturbed.isPrompt (hw : s.Undisturbed w) : s.IsPrompt w := by
  intro role entry hentry
  rw [hw.unscripted role] at hentry
  simp at hentry

theorem onCourse_probe (hw : s.Undisturbed w) :
    s.OnCourse verdict w (Poller.probe s.access (w, [])).env
      (Poller.probe s.access (w, [])).course := by
  have hdoes : Does s.access (w, []) _ (Poller.probe s.access (w, [])).env :=
    Does.rest.begin .primary .probe
  have hunscripted : s.Scripted (fun _ _ => False) (w, ([] : List Doing)).1 := by
    intro role entry hentry
    rw [hw.unscripted role] at hentry
    simp at hentry
  have hqueue := queue_of_does hdoes (by simp [Doing.isAnswer])
  have hdirect := direct_of_begun hunscripted hdoes (List.mem_cons_self ..)
  have hhistory := history_of_does hdoes
  constructor
  case now => exact (clock_of_does hdoes).1
  case unscripted => exact scripted_of_does hunscripted hdoes
  case stock =>
    rw [hqueue]
    exact Queue.stock_self hw.distinct
  case shelf =>
    rw [hqueue, hhistory]
    exact Queue.shelf_self
  case told =>
    rw [hqueue, hhistory]
    rfl
  case stands =>
    have hcourse : (Poller.probe s.access (w, [])).course =
      .continues () (.probing ((s.access.side .primary).issue (w, []) .probe).2) := rfl
    rw [hqueue, hcourse, hdirect]
    exact .probing rfl
  case tallied =>
    rw [tallyOf_of_does hdoes, hhistory]
    rfl

variable {n : Nat} {progress : TickProgress (World × List Doing)}

theorem Run.onCourse (hrun : s.Run (fun _ => false) w n progress)
    (hverdict : ∀ history m, s.judge history m = .ok (verdict m.id m.body m.dequeueCount))
    (hw : s.Undisturbed w) (hpoison : s.poller.poison.isSome = true) :
    s.OnCourse verdict w progress.env progress.course := by
  induction hrun with
  | probe => exact onCourse_probe hw
  | step before step ih =>
      have haccount := before.account hw.distinct hw.isPrompt
      cases step with
      | @own env phase progress advances =>
          obtain ⟨doings, hdoes, hscript⟩ := advance_performs advances
          exact ih.own hverdict hw hpoison (haccount.fits phase rfl) hdoes hscript
      | @tend env env' phase phase' tends =>
          -- the timer rests, so all that changes is its own state
          obtain ⟨rfl, -, -, renewal, rfl⟩ := of_advanceRenewal (haccount.fits phase rfl) tends
          exact ih.withRenewal renewal

def runsOf (s : Sweep) (verdict : Verdict) (messages : List StoredMessage) :
    List (UInt32 × Bool) :=
  messages.flatMap fun stored =>
    attempts s.limit (verdict stored.id stored.body) stored.dequeueCount

/-- The bodies of the messages on which no run succeeds. -/
def spoils (s : Sweep) (verdict : Verdict) (messages : List StoredMessage) : List (List UInt8) :=
  (messages.filter fun stored =>
    isFutile s.limit (verdict stored.id stored.body) stored.dequeueCount).map (·.body)

theorem copied_stories (s : Sweep) (verdict : Verdict) (messages : List StoredMessage) :
    (messages.flatMap (s.storyOf verdict)).filterMap Happening.copied? =
      s.spoils verdict messages := by
  induction messages with
  | nil => rfl
  | cons stored messages ih =>
      rw [List.flatMap_cons, List.filterMap_append, ih, storyOf, copied_story]
      unfold spoils
      rw [List.filter_cons]
      split
      · rfl
      · rfl

theorem follow_stories (s : Sweep) (verdict : Verdict) (t : Tally)
    (messages : List StoredMessage) :
    t.follow (messages.flatMap (s.storyOf verdict)) =
      t.addRuns s.limit (s.runsOf verdict messages) := by
  induction messages generalizing t with
  | nil => rfl
  | cons stored messages ih =>
      have hstory : t.follow (s.storyOf verdict stored) = t.addRuns s.limit
          (attempts s.limit (verdict stored.id stored.body) stored.dequeueCount) :=
        t.follow_attempts s.limit stored.id stored.body _
      rw [List.flatMap_cons, Tally.follow_append, ih, hstory, ← Tally.addRuns_append]
      rfl

/-- How a sweep ends that nothing disturbs. -/
structure Retries (s : Sweep) (verdict : Verdict) (w : World)
    (progress : TickProgress (World × List Doing)) : Prop where
  result : progress.course =
    .ended () (.ok (!((w.queue s.poller.queue).visible w.now).isEmpty))
  told : happenings progress.env.2 =
    ((w.queue s.poller.queue).visible w.now).flatMap (s.storyOf verdict)
  drained : progress.env.1.queue s.poller.queue =
    { w.queue s.poller.queue with messages := (w.queue s.poller.queue).hidden w.now }
  shelved : Queue.Shelf (w.queue (s.target .poison)) w.now
    (s.spoils verdict ((w.queue s.poller.queue).visible w.now)) false
    (progress.env.1.queue (s.target .poison))
  tallied : s.tallyOf progress.env.1 = (s.tallyOf w).addRuns s.limit
    (s.runsOf verdict ((w.queue s.poller.queue).visible w.now))

theorem OnCourse.retries {result : Except StorageError Bool}
    (h : s.OnCourse verdict w env (.ended () result)) :
    s.Retries verdict w (.ended env result) := by
  have hstands := h.stands
  have hleft : (env.1.queue s.poller.queue).visible w.now = [] := by
    cases hstands with
    | ended _ none => exact none
  have htold := h.told
  rw [hleft] at htold
  have htold' : happenings env.2 =
      ((w.queue s.poller.queue).visible w.now).flatMap (s.storyOf verdict) :=
    (List.append_nil _).symm.trans htold
  constructor
  case result =>
    cases hstands with
    | @ended found finds _ =>
        cases hvisible : (w.queue s.poller.queue).visible w.now with
        | nil => cases found <;> simp_all [Progress.course]
        | cons stored rest => cases found <;> simp_all [Progress.course]
  case told => exact htold'
  case drained => exact h.stock.eq_of_exhausted hleft
  case shelved =>
    have hshelf : Queue.Shelf _ _ (copiedIn env.2) false _ := h.shelf
    rw [copiedIn, htold', copied_stories] at hshelf
    exact hshelf
  case tallied => rw [← follow_stories, ← htold']; exact h.tallied

/-- Nothing but the order of the transitions is open in a sweep that nothing
disturbs, and that makes no difference. -/
theorem sweep_retries
    (hverdict : ∀ history m, s.judge history m = .ok (verdict m.id m.body m.dequeueCount))
    (hpoison : s.poller.poison.isSome = true) (hw : s.Undisturbed w)
    (hrun : s.Run (fun _ => false) w n progress) :
    n ≤ 8 * s.workload w + 2 ∧
      ((∃ next, s.Step false progress next) ∨ s.Retries verdict w progress) := by
  have haccount := hrun.account hw.distinct hw.isPrompt
  have hcourse := hrun.onCourse hverdict hw hpoison
  refine ⟨Nat.le_trans (Nat.le_add_right _ _) haccount.work, ?_⟩
  cases progress with
  | continues env phase => exact .inl ((haccount.fits phase rfl).goes_on false)
  | ended env result => exact .inr hcourse.retries
  | died env reason =>
      obtain ⟨history, m, hdies⟩ := haccount.broken reason rfl
      rw [hverdict] at hdies
      cases hdies

end

def hesitation : Verdict := fun id _ count => id == ⟨0⟩ && count == 2

def hesitant : Sweep :=
  { clumsy with judge := fun _ m => .ok (hesitation m.id m.body m.dequeueCount) }

/-- A message that is hidden stands before one that was never dequeued and one
that was dequeued too often. -/
def mixed : World :=
  { World.initial with
    queues := ⟨[("jobs", { Queue.create "jobs" with messages :=
      [⟨⟨2⟩, [9], 1, scenarioEpoch, 5, some ⟨0⟩⟩, ⟨⟨0⟩, [7], 0, scenarioEpoch, 0, none⟩,
        ⟨⟨1⟩, [8], 9, scenarioEpoch, 0, none⟩] })]⟩ }

theorem undisturbed_mixed : hesitant.Undisturbed mixed where
  distinct := (by decide : ([⟨2⟩, ⟨0⟩, ⟨1⟩] : List MessageId).Nodup)
  vacant := by
    intro hmissing
    cases hmissing
  faultless := by
    intro role
    cases role <;> rfl
  unscripted := by
    intro role
    cases role <;> rfl

/-- The first visible message is delivered twice, the other one once. -/
theorem sweep_retries_mixed :
    (∀ history m, hesitant.judge history m =
      .ok (hesitation m.id m.body m.dequeueCount)) ∧
      hesitant.poller.poison.isSome = true ∧ hesitant.Undisturbed mixed ∧
      ∃ n progress, hesitant.Run (fun _ => false) mixed n progress ∧
        (progress.env.1.queue "scrap").bodies = [[8]] ∧
        (progress.env.1.queue "jobs").bodies = [[9]] ∧
        hesitant.Retries hesitation mixed progress := by
  have hverdict : ∀ history m, hesitant.judge history m =
      .ok (hesitation m.id m.body m.dequeueCount) := fun _ _ => rfl
  refine ⟨hverdict, rfl, undisturbed_mixed, ?_⟩
  obtain ⟨n, hrun⟩ :=
    (Run.probe : hesitant.Run (fun _ => false) mixed 0 _).proceed 60
  refine ⟨n, _, hrun, rfl, rfl, ?_⟩
  obtain ⟨-, ⟨next, hstep⟩ | hretries⟩ :=
    sweep_retries hverdict rfl undisturbed_mixed hrun
  · cases hstep
  · exact hretries

end Sweep

end LeasedListener
