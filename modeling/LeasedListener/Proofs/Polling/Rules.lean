import LeasedListener.Proofs.Polling.Chronicle

/-!
# The rules of a polling site

The calls of every poller of a site obey the rules of its logic.  The heart of
it is that a deletion removes only a settled message, and that a successful
copy of a message whose last run has failed settles it.
-/

namespace LeasedListener

open Surroundings

namespace PollingSite

variable {ι : Type} {S : PollingSite ι} {i : ι} {env : World × Chronicle} {w : World}

/-- A change that no message and no run is concerned with. -/
structure Untouched (w w' : World) : Prop where
  now : w'.now = w.now
  log : w.log ⊆ w'.log
  serials : w'.serials = w.serials
  queues : w'.queues = w.queues
  executors : w'.executors = w.executors

theorem Untouched.queue {w' : World} (h : Untouched w w') (name : String) :
    w'.queue name = w.queue name := by
  simp only [World.queue, h.queues]

theorem Untouched.executor {w' : World} (h : Untouched w w') (name : String) :
    w'.executor name = w.executor name := by
  simp only [World.executor, h.executors]

theorem Untouched.follows {w' : World} (h : Untouched w w') (chronicle : Chronicle) :
    S.Follows (w, chronicle) (w', chronicle) := by
  intro hvalid
  have hgrows : S.Grows (w, chronicle) (w', chronicle) := by
    refine ⟨Nat.le_of_eq h.now.symm, List.Subset.refl _, List.Subset.refl _,
      List.Subset.refl _, h.log, ?_⟩
    intro j k m hrun
    rw [h.executor]
    exact hrun
  refine ⟨?_, hgrows⟩
  constructor
  case arrived =>
      rw [h.queue]
      exact hvalid.arrived
  case numbered =>
      rw [h.serials]
      exact hvalid.numbered
  case coherent => exact hvalid.coherent
  case accounted =>
      intro m hm
      rw [h.queue]
      exact (hvalid.accounted m hm).imp_right fun hsettled => hsettled.grow hgrows
  case scripted =>
      intro j
      rw [h.executor]
      exact hvalid.scripted j

theorem Valid.shifts_callQueue (hvalid : S.Valid env) {call : QueueCall} {transit : Transit}
    (hcall : ∀ m, call ≠ .delete m) :
    S.Shifts env (env.1.callQueue S.primary call transit).1 where
  later := Nat.le_refl _
  log := List.Subset.refl _
  records := fun _ => rfl
  scripted := hvalid.scripted
  serials := World.message_le_callQueue ..
  kept := by
    intro id body hstored
    left
    rcases World.callQueue_fst env.1 S.primary call transit with ⟨-, hqueue⟩ | ⟨-, hqueue⟩
    · rw [hqueue]
      exact hstored
    · rw [hqueue]
      exact QueueCall.stores_run hvalid.isCoherent hcall hstored
  added := by
    refine ⟨call.added, ?_⟩
    intro id body hstored
    rcases World.callQueue_fst env.1 S.primary call transit with ⟨-, hqueue⟩ | ⟨hserials, hqueue⟩
    · rw [hqueue] at hstored
      exact .inl hstored
    · rw [hqueue] at hstored
      refine (QueueCall.stores_of_run hvalid.isCoherent hstored).imp_right ?_
      rintro ⟨hid, hbody, hused⟩
      rw [hserials, hused]
      exact ⟨hid, hbody, Nat.lt_succ_self _⟩

theorem Valid.shifts_delete (hvalid : S.Valid env) {m : Delivery} {transit : Transit}
    (hdelivered : Delivered env m) (hsettled : S.Settled env m.id m.body) :
    S.Shifts env (env.1.callQueue S.primary (.delete m) transit).1 where
  later := Nat.le_refl _
  log := List.Subset.refl _
  records := fun _ => rfl
  scripted := hvalid.scripted
  serials := World.message_le_callQueue ..
  kept := by
    intro id body hstored
    rcases World.callQueue_fst env.1 S.primary (.delete m) transit with ⟨-, hqueue⟩ | ⟨-, hqueue⟩
    · left
      rw [hqueue]
      exact hstored
    · by_cases hid : id = m.id
      · right
        obtain ⟨known, hknown, hknownId, hknownBody⟩ := hvalid.stored hstored
        obtain ⟨other, hother, hotherId, hotherBody⟩ := hdelivered
        have hbody : body = m.body := by
          rw [← hknownBody, ← hotherBody]
          exact hvalid.coherent known hknown other hother
            (hknownId.trans (hid.trans hotherId.symm))
        rw [hid, hbody]
        exact hsettled
      · left
        rw [hqueue]
        exact (Queue.stores_delete_of_ne hid).mpr hstored
  added := by
    refine ⟨[], ?_⟩
    intro id body hstored
    left
    rcases World.callQueue_fst env.1 S.primary (.delete m) transit with ⟨-, hqueue⟩ | ⟨-, hqueue⟩
    · rw [hqueue] at hstored
      exact hstored
    · rw [hqueue] at hstored
      exact Queue.stores_of_delete hstored

theorem Valid.shifts_poison (hvalid : S.Valid env) (call : QueueCall) (transit : Transit) :
    S.Shifts env (env.1.callQueue S.poison call transit).1 := by
  have hprimary : (env.1.callQueue S.poison call transit).1.queue S.primary =
      env.1.queue S.primary := World.queue_callQueue_of_ne S.distinct env.1 call transit
  constructor
  case later => exact Nat.le_refl _
  case log => exact List.Subset.refl _
  case records => exact fun _ => rfl
  case scripted => exact hvalid.scripted
  case serials => exact World.message_le_callQueue ..
  case kept =>
      intro id body hstored
      rw [hprimary]
      exact .inl hstored
  case added =>
      refine ⟨[], ?_⟩
      intro id body hstored
      rw [hprimary] at hstored
      exact .inl hstored

/-- Runs go on record or come to their end. -/
theorem follows_of_executor {w' : World} {name : String} {executor : Executor}
    (chronicle : Chronicle)
    (hworld : w' = { w with executors := w.executors.set name executor })
    (hscripted : ∃ script standard, executor.behaviour = .scripted script standard)
    (hrecords : ∀ (k : Nat) (m : Delivery),
      (∃ run, (w.executor name).records[k]? = some run ∧ run.IsOf m) →
        ∃ run, executor.records[k]? = some run ∧ run.IsOf m) :
    S.Follows (w, chronicle) (w', chronicle.noteRuns name w') := by
  subst hworld
  have hself : ({ w with executors := w.executors.set name executor } : World).executor name =
      executor := by
    simp [World.executor]
  have hother : ∀ other, other ≠ name →
      ({ w with executors := w.executors.set name executor } : World).executor other =
        w.executor other := by
    intro other hne
    simp [World.executor, Table.get?_set_of_ne _ hne]
  intro hvalid
  have hgrows : S.Grows (w, chronicle)
      ({ w with executors := w.executors.set name executor }, chronicle.noteRuns name
        { w with executors := w.executors.set name executor }) := by
    refine ⟨Nat.le_refl _, List.Subset.refl _, List.Subset.refl _,
      List.subset_append_right .., List.Subset.refl _, ?_⟩
    intro j k m hrun
    by_cases hname : S.names j = name
    · rw [hname] at hrun ⊢
      rw [hself]
      exact hrecords k m hrun
    · rw [hother _ hname]
      exact hrun
  refine ⟨?_, hgrows⟩
  constructor
  case arrived => exact hvalid.arrived
  case numbered => exact hvalid.numbered
  case coherent => exact hvalid.coherent
  case accounted =>
      intro m hm
      exact (hvalid.accounted m hm).imp_right fun hsettled => hsettled.grow hgrows
  case scripted =>
      intro j
      by_cases hname : S.names j = name
      · rw [hname, hself]
        exact hscripted
      · rw [hother _ hname]
        exact hvalid.scripted j

theorem execute_eq {name : String} {m : Delivery} {script : List RunEntry} {standard : RunEntry}
    (hscripted : (w.executor name).behaviour = .scripted script standard) :
    (w.execute name m).1 = { w with
      executors := w.executors.set name ⟨.scripted script.tail standard,
        (w.executor name).records ++ [⟨w.now, none, m.id, m.dequeueCount, m.body⟩]⟩ } ∧
    (w.execute name m).2.serial = (w.executor name).records.length := by
  simp [World.execute, hscripted]

theorem Shifts.untouched {w' : World} (h : S.Shifts env w) (huntouched : Untouched w w') :
    S.Shifts env w' where
  later := by
    rw [huntouched.now]
    exact h.later
  log := List.Subset.trans h.log huntouched.log
  records := by
    intro j
    rw [huntouched.executor]
    exact h.records j
  scripted := by
    intro j
    rw [huntouched.executor]
    exact h.scripted j
  serials := by
    rw [huntouched.serials]
    exact h.serials
  kept := by
    rw [huntouched.queue]
    exact h.kept
  added := by
    rw [huntouched.queue, huntouched.serials]
    exact h.added

theorem Shifts.follows {w' : World} (hshift : S.Valid env → S.Shifts env w)
    (huntouched : Untouched w w') :
    S.Follows env (w', env.2.noteQueues S.primary S.poison w') := by
  intro hvalid
  have hshift : S.Shifts env w' := (hshift hvalid).untouched huntouched
  exact ⟨hshift.valid hvalid, hshift.grows⟩

theorem untouched_report (w : World) (event : Event) : Untouched w (report w event) :=
  ⟨rfl, List.subset_cons_self .., rfl, rfl, rfl⟩

theorem untouched_mark (w : World) (tally : String) (m : Mark) : Untouched w (w.mark tally m) :=
  ⟨rfl, List.Subset.refl _, rfl, rfl, rfl⟩

theorem untouched_issue (w : World) (gateway : String) (call : CallKind) :
    Untouched w (w.issue gateway call).1 :=
  ⟨rfl, List.Subset.refl _, rfl, rfl, rfl⟩

theorem untouched_record (w : World) (gateway : String) (call : CallKind)
    (arguments : List CallArgument) (failure : Option ErrorClass) :
    Untouched w (w.record gateway call arguments failure) :=
  ⟨rfl, List.Subset.refl _, rfl, rfl, rfl⟩

theorem poison_poller (h : S.quarantines i = true) : (S.poller i).poison = some S.poison := by
  simp [poller, h]

theorem access_poison (h : S.quarantines i = true) :
    (S.access i).poison = QueueAccess.chronicled S.primary S.poison
      (World.queueAccess (S.names i ++ ".poison") S.poison) := by
  simp [access, PollerAccess.chronicled, World.pollerAccess, poison_poller h]

theorem follows_poison (hpoison : S.quarantines i = true) (call : QueueCall)
    (transit : Transit) :
    S.Follows env ((S.access i).poison.perform env call transit).1 := by
  rw [access_poison hpoison]
  exact Shifts.follows (fun hvalid => hvalid.shifts_poison call transit) (untouched_record ..)

theorem follows_call {call : QueueCall} (hcall : ∀ m, call ≠ .delete m) (transit : Transit) :
    S.Follows env ((S.access i).queue.perform env call transit).1 :=
  Shifts.follows (fun hvalid => hvalid.shifts_callQueue hcall) (untouched_record ..)

theorem holds_dequeue {env' : World × Chronicle} {window : Duration} {transit : Transit}
    {m : Delivery} (hholds : (S.logic i).holds env .sane)
    (h : (S.access i).queue.perform env (.dequeue window) transit = (env', .ok (some m))) :
    (S.logic i).holds env' (.delivered m) := by
  obtain ⟨hvalid, -⟩ := hholds
  obtain ⟨hworld, hreply⟩ := Prod.mk.inj h
  obtain ⟨hvalid', hgrows⟩ :
      S.Valid env' ∧ S.Grows env env' := by
    rw [← hworld]
    exact follows_call (by simp) transit hvalid
  refine ⟨hvalid', ?_⟩
  have hanswer : (env.1.callQueue S.primary (.dequeue window) transit).2 = .ok (some m) := hreply
  obtain ⟨-, hrun⟩ := World.callQueue_of_ok hanswer
  rw [(QueueCall.run_dequeue _ _ window).2] at hrun
  obtain ⟨stored, hstored, hid, hbody⟩ := hvalid.stored (Queue.dequeue_eq_some hrun)
  exact ⟨stored, hgrows.arrived hstored, hid, hbody⟩

theorem follows_execute {m : Delivery} (hholds : (S.logic i).holds env (.delivered m)) :
    S.Follows env ((S.access i).execute env m).1 ∧
      (S.logic i).holds ((S.access i).execute env m).1
        (.running m ((S.access i).execute env m).2) := by
  obtain ⟨hvalid, hdelivered⟩ := hholds
  obtain ⟨script, standard, hscripted⟩ := hvalid.scripted i
  obtain ⟨hworld, hserial⟩ :
      (env.1.execute (S.names i) m).1 = { env.1 with
        executors := env.1.executors.set (S.names i) ⟨.scripted script.tail standard,
          (env.1.executor (S.names i)).records ++
            [⟨env.1.now, none, m.id, m.dequeueCount, m.body⟩]⟩ } ∧
      (env.1.execute (S.names i) m).2.serial = (env.1.executor (S.names i)).records.length :=
    execute_eq hscripted
  have hfollows : S.Follows env ((S.access i).execute env m).1 := by
    refine follows_of_executor env.2 hworld ⟨_, _, rfl⟩ ?_
    intro k other ⟨run, hrun, hof⟩
    have hlength : k < (env.1.executor (S.names i)).records.length :=
      (List.getElem?_eq_some_iff.mp hrun).1
    exact ⟨run, by rw [List.getElem?_append_left hlength, hrun], hof⟩
  refine ⟨hfollows, ?_⟩
  obtain ⟨hvalid', hgrows⟩ := hfollows hvalid
  refine ⟨hvalid', Delivered.grow hdelivered hgrows,
    ⟨env.1.now, none, m.id, m.dequeueCount, m.body⟩, ?_, rfl, rfl, rfl⟩
  change ((env.1.execute (S.names i) m).1.executor (S.names i)).records[
    (env.1.execute (S.names i) m).2.serial]? = _
  rw [hserial, hworld]
  simp [World.executor]

theorem records_finish (w : World) (name : String) (execution : Execution)
    (result : Except String Bool) :
    ((w.finish name execution result).executor name).records =
      (w.executor name).records.modify execution.serial (·.finished w.now result) := by
  simp [World.finish, World.executor]

theorem follows_finish {m : Delivery} {execution : Execution} (result : Except String Bool)
    (hholds : (S.logic i).holds env (.running m execution)) :
    S.Follows env ((S.access i).finish env execution result) ∧
      ∀ succeeded, result = .ok succeeded →
        (S.logic i).holds ((S.access i).finish env execution result) (.ended m succeeded) := by
  obtain ⟨hvalid, hdelivered, run, hrun, hof⟩ := hholds
  have hfollows : S.Follows env ((S.access i).finish env execution result) := by
    refine follows_of_executor env.2 rfl (hvalid.scripted i) ?_
    intro k other ⟨run', hrun', hof'⟩
    rw [List.getElem?_modify, hrun']
    split
    · exact ⟨_, rfl, hof'.finished env.1.now result⟩
    · exact ⟨_, rfl, hof'⟩
  refine ⟨hfollows, ?_⟩
  rintro succeeded rfl
  obtain ⟨hvalid', hgrows⟩ := hfollows hvalid
  have hrecorded :
      ((env.1.finish (S.names i) execution (.ok succeeded)).executor (S.names i)).records[
      execution.serial]? = some { run with outcome := some (env.1.now, succeeded) } := by
    rw [records_finish, List.getElem?_modify_eq, hrun]
    rfl
  refine ⟨hvalid', Delivered.grow hdelivered hgrows,
    { run with outcome := some (env.1.now, succeeded) }, env.1.now, ?_, hof, rfl, Nat.le_refl _⟩
  exact List.mem_append_left _ (List.mem_map.mpr ⟨_, List.mem_of_getElem? hrecorded, rfl⟩)

theorem mem_of_enqueue {name : String} {body : List UInt8} {transit : Transit}
    {copy : MessageId} (h : (w.callQueue name (.enqueue body) transit).2 = .ok copy) :
    ∃ stored ∈ ((w.callQueue name (.enqueue body) transit).1.queue name).messages,
      stored.id = copy ∧ stored.body = body := by
  obtain ⟨hqueue, hrun⟩ := World.callQueue_of_ok h
  rw [(QueueCall.run_enqueue _ _ body).1] at hqueue
  rw [(QueueCall.run_enqueue _ _ body).2.1] at hrun
  rcases (w.queue name).enqueue_eq w.now (wallClock w) w.serials.freshMessage body with
    ⟨error, herror, -⟩ | ⟨hok, hstores⟩
  · rw [herror] at hrun
    exact absurd hrun (by simp)
  · rw [hqueue]
    have hcopy : w.serials.freshMessage = copy := Except.ok.inj (hok.symm.trans hrun)
    exact (hstores copy body).mpr (.inr ⟨hcopy, rfl⟩)

theorem holds_copy {env' : World × Chronicle} {m : Delivery} {transit : Transit}
    {copy : MessageId} (hholds : (S.logic i).holds env (.condemned m))
    (h : (S.access i).poison.perform env (.enqueue m.body) transit = (env', .ok copy)) :
    (S.logic i).holds
      (report env' (.messageQuarantined (S.poller i).queue ((S.poller i).poison.getD "") m.id copy
        m.dequeueCount)) (.settled m) := by
  obtain ⟨hvalid, ⟨hquarantines, hoften⟩, hended⟩ := hholds
  obtain ⟨hvalid', hgrows⟩ : S.Valid env' ∧ S.Grows env env' := by
    have hfollows : S.Follows env
        ((S.access i).poison.perform env (.enqueue m.body) transit).1 :=
      follows_poison hquarantines (.enqueue m.body) transit
    rw [h] at hfollows
    exact hfollows hvalid
  have hreported : ∀ event, S.Follows env' (report env' event) := fun event =>
    (untouched_report env'.1 event).follows env'.2
  obtain ⟨hvalid'', hgrows'⟩ := hreported (.messageQuarantined (S.poller i).queue
    ((S.poller i).poison.getD "") m.id copy m.dequeueCount) hvalid'
  rw [access_poison hquarantines] at h
  obtain ⟨hworld, hreply⟩ := Prod.mk.inj h
  have hanswer : (env.1.callQueue S.poison (.enqueue m.body) transit).2 = .ok copy := hreply
  obtain ⟨stored, hstored, hid, hbody⟩ := mem_of_enqueue hanswer
  have hshelved : stored ∈ env'.2.shelved := by
    rw [← hworld]
    exact List.mem_append_left _ hstored
  obtain ⟨hdelivered, run, ended, hrun, hof, houtcome, hpast⟩ := Ended.grow hended hgrows
  refine ⟨hvalid'', Delivered.grow hdelivered hgrows', .inr ?_⟩
  refine ⟨i, run, ended, stored, ⟨env'.1.now, _⟩, hrun, hof.1, hof.2.2, houtcome, ?_, hshelved,
    hbody, List.mem_cons_self .., hpast, ?_⟩
  · rw [hof.2.1]
    exact hoften
  · rw [poison_poller hquarantines, hid, hof.2.1]
    rfl

theorem governs (S : PollingSite ι) (i : ι) : (S.logic i).Governs (S.poller i) (S.access i) where
  refl := Follows.refl S
  trans := Follows.trans
  stable h hholds := ⟨(h hholds.1).1, hholds.2.grow (h hholds.1).2⟩
  sane hholds := ⟨hholds.1, trivial⟩
  logs env event := (untouched_report env.1 event).follows env.2
  mark env m := (untouched_mark env.1 (S.names i) m).follows env.2
  issue env call := (untouched_issue env.1 _ call.kind).follows env.2
  issuePoison env call := (untouched_issue env.1 _ call.kind).follows env.2
  call _ _ transit hcall := follows_call hcall transit
  callPoison call transit hholds := follows_poison hholds.2.1.1 call transit
  dequeue := holds_dequeue
  execute := follows_execute
  running := by
    intro env m m' execution hsame ⟨hvalid, hdelivered, run, hrun, hof⟩
    exact ⟨hvalid, hdelivered.renewed hsame, run, hrun, hof.renewed hsame⟩
  ended := by
    intro env m m' succeeded hsame ⟨hvalid, hdelivered, run, ended, hrun, hof, hended⟩
    exact ⟨hvalid, hdelivered.renewed hsame, run, ended, hrun, hof.renewed hsame, hended⟩
  finish := follows_finish
  success := by
    intro env m ⟨hvalid, hdelivered, run, ended, hrun, hof, houtcome, _⟩
    exact ⟨hvalid, hdelivered, .inl ⟨i, run, ended, hrun, hof.1, houtcome⟩⟩
  failure := by
    intro env m ⟨hvalid, hended⟩ hpoison hoften
    refine ⟨hvalid, ⟨?_, hoften⟩, hended⟩
    cases hquarantines : S.quarantines i with
    | true => rfl
    | false => simp [poller, hquarantines] at hpoison
  copy := holds_copy
  delete := by
    intro env m transit ⟨hvalid, hdelivered, hsettled⟩
    exact Shifts.follows (fun hvalid => hvalid.shifts_delete hdelivered hsettled)
      (untouched_record ..)

end PollingSite

end LeasedListener
