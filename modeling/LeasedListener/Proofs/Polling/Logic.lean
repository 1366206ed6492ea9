import LeasedListener.Polling.Tick
import LeasedListener.Proofs.Timer.Attempts

/-!
# A logic of ticks

What a tick knows at each of its phases, in terms of an environment that it
shares with others.  An assertion of the logic is stable: once it holds, it
holds whatever the others do.  If the calls of a poller obey the rules, every
transition of a tick takes an assertion for its phase to one for the next
phase, and moves the environment as the logic allows.
-/

namespace LeasedListener

open Surroundings

/-- Two deliveries of the same message, perhaps under different claims. -/
def SameContent (m m' : Delivery) : Prop :=
  m'.id = m.id ∧ m'.body = m.body ∧ m'.dequeueCount = m.dequeueCount

theorem SameContent.trans {m m' m'' : Delivery} (h : SameContent m m') (h' : SameContent m' m'') :
    SameContent m m'' :=
  ⟨h'.1.trans h.1, h'.2.1.trans h.2.1, h'.2.2.trans h.2.2⟩

/-- What a tick may know about the message in its hands. -/
inductive TickAssertion
  | sane
  | delivered (m : Delivery)
  | running (m : Delivery) (execution : Execution)
  | ended (m : Delivery) (succeeded : Bool)
  /-- It has failed too often. -/
  | condemned (m : Delivery)
  /-- It may be deleted. -/
  | settled (m : Delivery)

def TickPhase.assertion : TickPhase → TickAssertion
  | .probing _ | .dequeuing _ _ | .releasing _ _ => .sane
  | .executing claim _ execution => .running claim.message execution
  | .settling claim _ succeeded _ => .ended claim.message succeeded
  | .deleting m _ => .settled m
  | .preparing m _ | .copying m _ => .condemned m

structure TickLogic (Env : Type) where
  follows : Env → Env → Prop
  holds : Env → TickAssertion → Prop

/-- The environment moves as the logic allows, and a claim stays on its
message. -/
def TickLogic.KeepsClaim {Env : Type} (L : TickLogic Env) (before after : Env × Claim) : Prop :=
  L.follows before.1 after.1 ∧ SameContent before.2.message after.2.message

/-- The rules that the calls of a poller obey. -/
structure TickLogic.Governs {Env : Type} [Surroundings Env] (L : TickLogic Env) (p : Poller)
    (a : PollerAccess Env) : Prop where
  refl : ∀ env, L.follows env env
  trans : ∀ {env env' env''}, L.follows env env' → L.follows env' env'' → L.follows env env''
  stable : ∀ {env env' assertion}, L.follows env env' → L.holds env assertion →
    L.holds env' assertion
  sane : ∀ {env assertion}, L.holds env assertion → L.holds env .sane
  logs : ∀ env event, L.follows env (report env event)
  mark : ∀ env m, L.follows env (a.mark env m)
  issue : ∀ env call, L.follows env (a.queue.issue env call).1
  issuePoison : ∀ env call, L.follows env (a.poison.issue env call).1
  call : ∀ env call transit, (∀ m, call ≠ .delete m) →
    L.follows env (a.queue.perform env call transit).1
  callPoison : ∀ {env m} call transit, L.holds env (.condemned m) →
    L.follows env (a.poison.perform env call transit).1
  dequeue : ∀ {env env' window transit m}, L.holds env .sane →
    a.queue.perform env (.dequeue window) transit = (env', .ok (some m)) →
      L.holds env' (.delivered m)
  execute : ∀ {env m}, L.holds env (.delivered m) → L.follows env (a.execute env m).1 ∧
    L.holds (a.execute env m).1 (.running m (a.execute env m).2)
  running : ∀ {env m m' execution}, SameContent m m' → L.holds env (.running m execution) →
    L.holds env (.running m' execution)
  ended : ∀ {env m m' succeeded}, SameContent m m' → L.holds env (.ended m succeeded) →
    L.holds env (.ended m' succeeded)
  finish : ∀ {env m execution} result, L.holds env (.running m execution) →
    L.follows env (a.finish env execution result) ∧
      ∀ succeeded, result = .ok succeeded →
        L.holds (a.finish env execution result) (.ended m succeeded)
  success : ∀ {env m}, L.holds env (.ended m true) → L.holds env (.settled m)
  failure : ∀ {env m}, L.holds env (.ended m false) → p.poison.isSome = true →
    p.config.maxDequeueCount ≤ m.dequeueCount → L.holds env (.condemned m)
  copy : ∀ {env env' m transit copy}, L.holds env (.condemned m) →
    a.poison.perform env (.enqueue m.body) transit = (env', .ok copy) →
      L.holds
        (report env'
          (.messageQuarantined p.queue (p.poison.getD "") m.id copy m.dequeueCount)) (.settled m)
  delete : ∀ {env m} transit, L.holds env (.settled m) →
    L.follows env (a.queue.perform env (.delete m) transit).1

theorem disposition_eq_delete {maxDequeueCount dequeueCount : UInt32} {succeeded poison : Bool}
    (h : disposition maxDequeueCount succeeded dequeueCount poison = .delete) :
    succeeded = true := by
  unfold disposition at h
  split at h
  · assumption
  · split at h
    · simp at h
    · split at h <;> simp at h

theorem disposition_eq_quarantine {maxDequeueCount dequeueCount : UInt32}
    {succeeded poison : Bool}
    (h : disposition maxDequeueCount succeeded dequeueCount poison = .quarantine) :
    succeeded = false ∧ poison = true ∧ maxDequeueCount ≤ dequeueCount := by
  unfold disposition at h
  split at h
  · simp at h
  · next hfailed =>
      split at h
      · simp at h
      · next hpoison =>
          split at h
          · next hoften => exact ⟨Bool.eq_false_iff.mpr hfailed, by simpa using hpoison, hoften⟩
          · simp at h

theorem disposition_eq_release {maxDequeueCount dequeueCount : UInt32} {succeeded poison : Bool}
    (h : disposition maxDequeueCount succeeded dequeueCount poison = .release) :
    succeeded = false ∧ poison = true ∧ dequeueCount < maxDequeueCount := by
  unfold disposition at h
  split at h
  · simp at h
  · next hfailed =>
      split at h
      · simp at h
      · next hpoison =>
          split at h
          · simp at h
          · next hseldom =>
              exact ⟨Bool.eq_false_iff.mpr hfailed, by simpa using hpoison,
                UInt32.not_le.mp hseldom⟩

theorem disposition_eq_leave {maxDequeueCount dequeueCount : UInt32} {succeeded poison : Bool}
    (h : disposition maxDequeueCount succeeded dequeueCount poison = .leave) : poison = false := by
  unfold disposition at h
  split at h
  · simp at h
  · split at h
    · next hpoison => simpa using hpoison
    · split at h <;> simp at h

namespace TickLogic.Governs

variable {Env : Type} [Surroundings Env] {L : TickLogic Env} {p : Poller} {a : PollerAccess Env}
  {env env' : Env} {cancelled : Bool}

inductive Upholds (L : TickLogic Env) (env : Env) : TickProgress Env → Prop
  | continues {env' : Env} {phase : TickPhase} (follows : L.follows env env')
      (holds : L.holds env' phase.assertion) : Upholds L env (.continues env' phase)
  | ended {env' : Env} {result : Except StorageError Bool} (follows : L.follows env env') :
      Upholds L env (.ended env' result)
  | died {env' : Env} {reason : String} (follows : L.follows env env') :
      Upholds L env (.died env' reason)

theorem Upholds.after (hL : L.Governs p a) {progress : TickProgress Env}
    (hfollows : L.follows env env') (h : Upholds L env' progress) : Upholds L env progress := by
  cases h with
  | continues hnext hholds => exact .continues (hL.trans hfollows hnext) hholds
  | ended hnext => exact .ended (hL.trans hfollows hnext)
  | died hnext => exact .died (hL.trans hfollows hnext)

theorem reportAll (hL : L.Governs p a) (env : Env) (events : List Event) :
    L.follows env (reportAll env events) := by
  induction events generalizing env with
  | nil => exact hL.refl env
  | cons event events ih => exact hL.trans (hL.logs env event) (ih _)

theorem continues (hL : L.Governs p a) {phase : TickPhase} (hfollows : L.follows env env')
    (hholds : L.holds env phase.assertion) : Upholds L env (.continues env' phase) :=
  .continues hfollows (hL.stable hfollows hholds)

theorem seek (hL : L.Governs p a) (hsane : L.holds env .sane) (found : Bool) :
    Upholds L env (p.seek a env cancelled found) := by
  unfold Poller.seek
  split
  · exact .ended (hL.refl env)
  · exact hL.continues (hL.issue env _) hsane

theorem probe (hL : L.Governs p a) (hsane : L.holds env .sane) :
    Upholds L env (Poller.probe a env) :=
  hL.continues (hL.issue env _) hsane

theorem probed (hL : L.Governs p a) (hsane : L.holds env .sane)
    (reply : Except StorageError Bool) : Upholds L env (p.probed a env cancelled reply) := by
  unfold Poller.probed
  split
  · exact hL.seek hsane false
  · exact .ended (hL.logs env _)
  · split
    · exact .ended (hL.refl env)
    · exact .ended (hL.logs env _)

theorem process (hL : L.Governs p a) {m : Delivery} (hdelivered : L.holds env (.delivered m)) :
    Upholds L env (p.process a env m) := by
  have hreported := hL.trans (hL.mark env .dequeued) (hL.reportAll (a.mark env .dequeued)
    [.messageDequeued p.queue m.id m.dequeueCount, .timerStarted (p.renewalTimer m).name])
  obtain ⟨hexecuted, hrunning⟩ := hL.execute (hL.stable hreported hdelivered)
  exact .continues (hL.trans hreported hexecuted) hrunning

theorem dequeued (hL : L.Governs p a) (found : Bool)
    {reply : Except StorageError (Option Delivery)}
    (hdelivered : ∀ m, reply = .ok (some m) → L.holds env (.delivered m)) :
    Upholds L env (p.dequeued a env found reply) := by
  unfold Poller.dequeued
  split
  · next m => exact hL.process (hdelivered m rfl)
  · exact .ended (hL.refl env)
  · split
    · exact .ended (hL.refl env)
    · exact .ended (hL.logs env _)

theorem executed (hL : L.Governs p a) {claim : Claim} {renewal : RenewalTimer}
    {execution : Execution} (hrunning : L.holds env (.running claim.message execution))
    (result : Except String Bool) :
    Upholds L env (p.executed a env claim renewal execution result) := by
  obtain ⟨hfinished, hended⟩ := hL.finish result hrunning
  cases result with
  | ok succeeded => exact .continues hfinished (hended succeeded rfl)
  | error reason => exact .died hfinished

theorem dispose (hL : L.Governs p a) {m : Delivery} {succeeded : Bool}
    (hended : L.holds env (.ended m succeeded)) :
    Upholds L env (p.dispose a env cancelled m succeeded) := by
  have hsane : L.holds env .sane := hL.sane hended
  unfold Poller.dispose
  split
  · next hdelete =>
      have hsucceeded : succeeded = true := disposition_eq_delete hdelete
      subst hsucceeded
      exact hL.continues (hL.issue env _) (hL.success hended)
  · exact hL.continues (hL.issue env _) hsane
  · next hquarantine =>
      obtain ⟨hfailed, hpoison, hoften⟩ := disposition_eq_quarantine hquarantine
      subst hfailed
      exact hL.continues (hL.issuePoison env _) (hL.failure hended hpoison hoften)
  · exact (hL.seek (hL.stable (hL.logs env _) hsane) true).after hL (hL.logs env _)

theorem settled (hL : L.Governs p a) {claim : Claim} {succeeded : Bool}
    (hended : L.holds env (.ended claim.message succeeded)) (stopped : Except TimerError Unit) :
    Upholds L env (p.settled a env cancelled claim succeeded stopped) := by
  have hlost : ∀ env, L.follows env
      (if claim.lost then report env (.claimLostDuringExecution p.queue claim.message.id)
        else env) := by
    intro env
    split
    · exact hL.logs env _
    · exact hL.refl env
  have hmarked : ∀ env' mark, L.follows env env' → Upholds L env
      (p.dispose a
        (if claim.lost then
          report (a.mark env' mark) (.claimLostDuringExecution p.queue claim.message.id)
        else a.mark env' mark)
        cancelled claim.message succeeded) := by
    intro env' mark hstopped
    have hfollows := hL.trans hstopped (hL.trans (hL.mark env' mark) (hlost _))
    exact (hL.dispose (hL.stable hfollows hended)).after hL hfollows
  cases stopped with
  | ok _ => exact hmarked env _ (hL.refl env)
  | error error => exact hmarked _ _ (hL.logs env _)

theorem disposed (hL : L.Governs p a) (hsane : L.holds env .sane) (m : Delivery)
    (action : DisposalAction) (reply : Except StorageError Unit) :
    Upholds L env (p.disposed a env cancelled m action reply) := by
  unfold Poller.disposed
  split
  · exact hL.seek hsane true
  · have hmarked := fun error => hL.trans (hL.mark env .disposalConflict)
      (hL.logs (a.mark env .disposalConflict) (.claimGone p.queue m.id action error))
    split
    · exact (hL.seek (hL.stable (hmarked _) hsane) true).after hL (hmarked _)
    · exact (hL.seek (hL.stable (hmarked _) hsane) true).after hL (hmarked _)
    · exact (hL.seek (hL.stable (hL.logs env _) hsane) true).after hL (hL.logs env _)
    · exact .ended (hL.refl env)

theorem released (hL : L.Governs p a) (hsane : L.holds env .sane) (m : Delivery)
    (reply : Except StorageError Receipt) :
    Upholds L env (p.released a env cancelled m reply) := by
  unfold Poller.released
  split
  · exact (hL.disposed (hL.stable (hL.mark env _) hsane) m _ _).after hL (hL.mark env _)
  · exact hL.disposed hsane m _ _

theorem notCopied (hL : L.Governs p a) (hsane : L.holds env .sane) (m : Delivery)
    (error : StorageError) : Upholds L env (p.notCopied a env cancelled m error) := by
  unfold Poller.notCopied
  split
  · exact .ended (hL.refl env)
  · exact (hL.seek (hL.stable (hL.logs env _) hsane) true).after hL (hL.logs env _)

theorem prepared (hL : L.Governs p a) {m : Delivery} (hcondemned : L.holds env (.condemned m))
    (reply : Except StorageError Unit) :
    Upholds L env (p.prepared a env cancelled m reply) := by
  unfold Poller.prepared
  split
  · exact hL.continues (hL.issuePoison env _) hcondemned
  · exact hL.notCopied (hL.sane hcondemned) m _

theorem copied (hL : L.Governs p a) (hsane : L.holds env .sane) {m : Delivery}
    {reply : Except StorageError MessageId}
    (hsettled : ∀ copy, reply = .ok copy → L.holds
      (report env (.messageQuarantined p.queue (p.poison.getD "") m.id copy m.dequeueCount))
      (.settled m)) :
    Upholds L env (p.copied a env cancelled m reply) := by
  unfold Poller.copied
  split
  · next copy =>
      have hmarked := hL.mark (report env
        (.messageQuarantined p.queue (p.poison.getD "") m.id copy m.dequeueCount)) .poisoned
      have hheld := hL.stable hmarked (hsettled copy rfl)
      refine Upholds.after hL (hL.trans (hL.logs env _) hmarked) ?_
      exact .continues (hL.issue _ _) (hL.stable (hL.issue _ _) hheld)
  · exact hL.notCopied hsane m _

theorem advance (hL : L.Governs p a) {phase : TickPhase} (hholds : L.holds env phase.assertion)
    {progress : TickProgress Env} (h : p.advance a env cancelled phase = some progress) :
    Upholds L env progress := by
  have hsane : L.holds env .sane := hL.sane hholds
  cases phase with
  | probing transit =>
      simp only [Poller.advance] at h
      split at h
      · rw [← Option.some.inj h]
        have hcalled := hL.call env .probe transit (by simp)
        exact (hL.probed (hL.stable hcalled hsane) _).after hL hcalled
      · simp at h
  | dequeuing found transit =>
      simp only [Poller.advance] at h
      split at h
      · rw [← Option.some.inj h]
        have hcalled := hL.call env (.dequeue p.config.visibilityTimeout) transit (by simp)
        refine (hL.dequeued found ?_).after hL hcalled
        intro m hreply
        exact hL.dequeue hsane (Prod.ext rfl hreply)
      · simp at h
  | executing claim renewal execution =>
      simp only [Poller.advance, Option.map_eq_some_iff] at h
      obtain ⟨result, -, hprogress⟩ := h
      rw [← hprogress]
      exact hL.executed hholds result
  | settling claim renewal succeeded wait =>
      simp only [Poller.advance, Option.map_eq_some_iff] at h
      obtain ⟨⟨_, stopped, events⟩, -, hprogress⟩ := h
      rw [← hprogress]
      have hreported := hL.reportAll env events
      exact (hL.settled (hL.stable hreported hholds) stopped).after hL hreported
  | deleting m transit =>
      simp only [Poller.advance] at h
      split at h
      · rw [← Option.some.inj h]
        have hcalled := hL.delete transit hholds
        exact (hL.disposed (hL.stable hcalled hsane) m _ _).after hL hcalled
      · simp at h
  | releasing m transit =>
      simp only [Poller.advance] at h
      split at h
      · rw [← Option.some.inj h]
        have hcalled := hL.call env (.update m .zero) transit (by simp)
        exact (hL.released (hL.stable hcalled hsane) m _).after hL hcalled
      · simp at h
  | preparing m transit =>
      simp only [Poller.advance] at h
      split at h
      · rw [← Option.some.inj h]
        have hcalled := hL.callPoison .create transit hholds
        exact (hL.prepared (hL.stable hcalled hholds) _).after hL hcalled
      · simp at h
  | copying m transit =>
      simp only [Poller.advance] at h
      split at h
      · rw [← Option.some.inj h]
        have hcalled := hL.callPoison (.enqueue m.body) transit hholds
        refine (hL.copied (hL.stable hcalled hsane) ?_).after hL hcalled
        intro copy hreply
        exact hL.copy hholds (Prod.ext rfl hreply)
      · simp at h

theorem answer (hL : L.Governs p a) {before : Env × Claim} (hfollows : L.follows before.1 env)
    (presented : Delivery) (reply : Except StorageError Receipt) :
    L.KeepsClaim before
      (Renewal.answer p.queue p.config.visibilityTimeout env before.2 presented reply).env := by
  cases reply with
  | ok receipt => exact ⟨hL.trans hfollows (hL.logs env _), rfl, rfl, rfl⟩
  | error error =>
      simp only [Renewal.answer]
      cases error.errorClass with
      | conflict | notFound | transient =>
          exact ⟨hL.trans hfollows (hL.logs env _), rfl, rfl, rfl⟩
      | fatal => exact ⟨hfollows, rfl, rfl, rfl⟩

theorem renewal (hL : L.Governs p a) {t t' : RenewalTimer} {claim claim' : Claim}
    (h : t.poll (p.renewalDrive a) (env, claim) = some (t', env', claim')) :
    L.KeepsClaim (env, claim) (env', claim') := by
  have hrefl : ∀ before, L.KeepsClaim before before := fun before =>
    ⟨hL.refl before.1, rfl, rfl, rfl⟩
  refine Timer.related_of_poll hrefl ?_ ?_ ?_ h
  · intro before after event ⟨hfollows, hsame⟩
    exact ⟨hL.trans hfollows (hL.logs after.1 event), hsame⟩
  · intro before
    simp only [Renewal.attempt]
    split
    · exact hrefl before
    · exact ⟨hL.issue before.1 _, rfl, rfl, rfl⟩
  · intro before cancelled waiting progress hadvance
    simp only [Renewal.attempt] at hadvance
    split at hadvance
    · rw [← Option.some.inj hadvance]
      exact hL.answer (hL.call before.1 _ _ (by simp)) _ _
    · simp at hadvance

theorem advanceRenewal (hL : L.Governs p a) {phase phase' : TickPhase}
    (hholds : L.holds env phase.assertion)
    (h : p.advanceRenewal a env phase = some (env', phase')) :
    L.follows env env' ∧ L.holds env' phase'.assertion := by
  cases phase with
  | executing claim renewal execution =>
      simp only [Poller.advanceRenewal, Option.map_eq_some_iff, Prod.mk.injEq] at h
      obtain ⟨⟨renewal', env₁, claim'⟩, hpoll, henv, hphase⟩ := h
      subst henv hphase
      obtain ⟨hfollows, hsame⟩ := hL.renewal hpoll
      exact ⟨hfollows, hL.running hsame (hL.stable hfollows hholds)⟩
  | settling claim renewal succeeded wait =>
      simp only [Poller.advanceRenewal, Option.map_eq_some_iff, Prod.mk.injEq] at h
      obtain ⟨⟨renewal', env₁, claim'⟩, hpoll, henv, hphase⟩ := h
      subst henv hphase
      obtain ⟨hfollows, hsame⟩ := hL.renewal hpoll
      exact ⟨hfollows, hL.ended hsame (hL.stable hfollows hholds)⟩
  | probing _ | dequeuing _ _ | deleting _ _ | releasing _ _ | preparing _ _ | copying _ _ =>
      simp [Poller.advanceRenewal] at h

theorem advanceAny (hL : L.Governs p a) {phase : TickPhase} (hholds : L.holds env phase.assertion)
    {progress : TickProgress Env} (h : p.advanceAny a env cancelled phase = some progress) :
    Upholds L env progress := by
  rcases Poller.of_advanceAny h with hown | ⟨env', phase', hrenewal, rfl⟩
  · exact hL.advance hholds hown
  · obtain ⟨hfollows, hholds'⟩ := hL.advanceRenewal hholds hrenewal
    exact .continues hfollows hholds'

theorem afterStep (hL : L.Governs p a) {progress : TickProgress Env} {pace : Pace Backoff}
    {timer : String} {loop : TimerLoop (Pace Backoff) TickPhase} (h : Upholds L env progress)
    (hafter : TimerLoop.afterStep (p.drive a) timer cancelled
      (Attempt.pacedProgress pace progress) = (loop, env')) :
    L.follows env env' ∧
      ∀ pace cancelled phase, loop = .live pace cancelled (.stepping phase) →
        L.holds env' phase.assertion := by
  cases h with
  | @continues after phase hfollows hholds =>
      obtain ⟨hloop, henv⟩ := Prod.mk.inj hafter
      subst hloop henv
      refine ⟨hfollows, ?_⟩
      intro pace cancelled phase hstepping
      obtain ⟨-, -, hphase⟩ := TimerLoop.live.inj hstepping
      rw [← LoopState.stepping.inj hphase]
      exact hholds
  | @ended after result hfollows =>
      cases result with
      | ok found =>
          obtain ⟨hloop, henv⟩ := Prod.mk.inj hafter
          subst hloop henv
          exact ⟨hfollows, by simp⟩
      | error error =>
          obtain ⟨hloop, henv⟩ := Prod.mk.inj hafter
          subst hloop henv
          exact ⟨hL.trans hfollows (hL.logs after _), by simp⟩
  | died hfollows =>
      obtain ⟨hloop, henv⟩ := Prod.mk.inj hafter
      subst hloop henv
      exact ⟨hfollows, by simp⟩

theorem poll (hL : L.Governs p a) {t t' : PollerTimer} (hsane : L.holds env .sane)
    (hknown : ∀ phase, t.phase? = some phase → L.holds env phase.assertion)
    (h : t.poll (p.drive a) env = some (t', env')) :
    L.follows env env' ∧ ∀ phase, t'.phase? = some phase → L.holds env' phase.assertion := by
  obtain ⟨loop, loop', hloop, htimer, hmoves⟩ := Timer.moves_of_poll h
  have hstepped : L.follows env env' ∧
      ∀ pace cancelled phase, loop' = .live pace cancelled (.stepping phase) →
        L.holds env' phase.assertion := by
    cases hmoves with
    | waits => exact ⟨hL.refl env, by simp⟩
    | returns => exact ⟨hL.refl env, by simp⟩
    | begins _ hafter => exact hL.afterStep (hL.probe hsane) hafter
    | advances hadvance hafter =>
        simp only [Poller.drive, Attempt.paced, Poller.attempt, Option.map_eq_some_iff] at hadvance
        obtain ⟨progress, hprogress, hpaced⟩ := hadvance
        rw [← hpaced] at hafter
        refine hL.afterStep (hL.advanceAny (hknown _ ?_) hprogress) hafter
        simp [Timer.phase?, hloop, LoopState.phase?]
  refine ⟨hstepped.1, ?_⟩
  intro phase hphase
  subst htimer
  cases loop' with
  | live pace cancelled state =>
      cases state with
      | stepping current =>
          obtain rfl := Option.some.inj hphase
          exact hstepped.2 pace cancelled current rfl
      | spawned _ | waiting _ => simp [Timer.phase?, LoopState.phase?] at hphase
  | returned _ | died _ => simp [Timer.phase?] at hphase

end TickLogic.Governs

end LeasedListener
