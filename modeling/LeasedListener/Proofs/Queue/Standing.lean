import LeasedListener.Proofs.Queue.Claims

/-!
# Standing claims

While a claim on a message stands, no call of anyone touches the message but
one that presents the receipt of the claim.  With that receipt an update and a
deletion are accepted, unless an error is in store for them.
-/

namespace LeasedListener

/-- The delivery whose receipt a call presents. -/
@[simp]
def QueueCall.presented? : QueueCall → Option Delivery
  | .update m _ | .delete m => some m
  | .probe | .create | .enqueue _ | .dequeue _ => none

namespace Queue

variable {q : Queue} {now ends bound : Nat} {wallClock : Timestamp} {m : Delivery}
  {fresh : Receipt} {window : Duration}

/-- The messages are told apart by numbers that have been used. -/
structure IsNumbered (q : Queue) (bound : Nat) : Prop where
  distinct : q.IsDistinct
  numbered : ∀ m ∈ q.messages, m.id.serial < bound

/-- No error is in store, and the messages are told apart by numbers that have
been used. -/
structure IsTidy (q : Queue) (bound : Nat) : Prop where
  faultless : q.faults = []
  distinct : q.IsDistinct
  numbered : ∀ m ∈ q.messages, m.id.serial < bound

/-- The delivery has a claim on the message that lasts until `ends` at
least. -/
structure Secures (q : Queue) (m : Delivery) (ends : Nat) : Prop where
  present : q.present = true
  stored : ∃ stored, q.find? m.id = some stored ∧ stored.receipt = some m.receipt ∧
    ends ≤ stored.visibleAt

theorem isOpen_of_faultless (hfaults : q.faults = []) (hpresent : q.present = true)
    (operation : QueueOperation) : q.IsOpen operation :=
  ⟨hpresent, by simp [hfaults]⟩

theorem Secures.honours (h : q.Secures m ends) (hlive : now < ends) : q.Honours now m := by
  obtain ⟨stored, hstored, hreceipt, hends⟩ := h.stored
  exact ⟨stored, hstored, hreceipt, Nat.lt_of_lt_of_le hlive hends⟩

theorem Secures.earlier {ends' : Nat} (h : q.Secures m ends) (hle : ends' ≤ ends) :
    q.Secures m ends' := by
  obtain ⟨stored, hstored, hreceipt, hends⟩ := h.stored
  exact ⟨h.present, stored, hstored, hreceipt, Nat.le_trans hle hends⟩

theorem Secures.congr {q' : Queue} (h : q.Secures m ends) (hfind : q'.find? m.id = q.find? m.id)
    (hpresent : q'.present = q.present) : q'.Secures m ends where
  present := hpresent.trans h.present
  stored := by
    rw [hfind]
    exact h.stored

theorem IsNumbered.kept {q' : Queue} {bound' : Nat} (h : q.IsNumbered bound)
    (hmessages : q'.messages = q.messages) (hbound : bound ≤ bound') : q'.IsNumbered bound' where
  distinct := (isDistinct_congr hmessages).mpr h.distinct
  numbered := by
    rw [hmessages]
    exact fun m hm => Nat.lt_of_lt_of_le (h.numbered m hm) hbound

theorem IsNumbered.changed {id : MessageId} {f : StoredMessage → StoredMessage} {bound' : Nat}
    (h : q.IsNumbered bound) (hbound : bound ≤ bound') (hf : ∀ m, m.id = id → (f m).id = id) :
    (q.change id f).IsNumbered bound' where
  distinct := isDistinct_change hf h.distinct
  numbered := by
    intro m hm
    obtain ⟨before, hbefore, rfl⟩ := List.mem_map.mp hm
    have hid : (if before.id = id then f before else before).id = before.id := by
      split
      · next hself => rw [hf before hself, hself]
      · rfl
    rw [hid]
    exact Nat.lt_of_lt_of_le (h.numbered before hbefore) hbound

theorem IsNumbered.append {s : Serials} {body : List UInt8} {dequeueCount : UInt32}
    (h : q.IsNumbered s.message) :
    (q.append s.freshMessage body dequeueCount now wallClock).IsNumbered
      s.messageUsed.message where
  distinct := by
    refine isDistinct_append h.distinct ?_
    intro m hm hsame
    have hless : m.id.serial < s.message := h.numbered m hm
    rw [hsame] at hless
    exact Nat.lt_irrefl _ hless
  numbered := by
    intro m hm
    rcases List.mem_append.mp hm with hbefore | hadded
    · exact Nat.lt_succ_of_lt (h.numbered m hbefore)
    · rw [List.mem_singleton.mp hadded]
      exact Nat.lt_succ_self _

theorem IsTidy.isNumbered (h : q.IsTidy bound) : q.IsNumbered bound :=
  ⟨h.distinct, h.numbered⟩

theorem IsNumbered.isTidy (h : q.IsNumbered bound) (hfaults : q.faults = []) : q.IsTidy bound :=
  ⟨hfaults, h.distinct, h.numbered⟩

theorem Secures.append {added : MessageId} {body : List UInt8} {dequeueCount : UInt32}
    (h : q.Secures m ends) :
    (q.append added body dequeueCount now wallClock).Secures m ends where
  present := h.present
  stored := by
    obtain ⟨stored, hstored, hclaim⟩ := h.stored
    refine ⟨stored, ?_, hclaim⟩
    rw [find?_append, hstored]
    rfl

theorem opening_of_faultless (hfaults : q.faults = []) (operation : QueueOperation) :
    q.opening operation = (q, if q.present then .ok () else .error (.queueNotFound q.name)) := by
  simp [opening, hfaults]

theorem Secures.claimed {m' : Delivery} (h : q.Secures m ends) (hid : m'.id = m.id)
    (hreceipt : m'.receipt = fresh) :
    (q.change m.id (·.claim now fresh window)).Secures m' (Instant.windowEnd now window) where
  present := h.present
  stored := by
    obtain ⟨stored, hstored, -⟩ := h.stored
    refine ⟨stored.claim now fresh window, ?_, congrArg some hreceipt.symm, Nat.le_refl _⟩
    rw [find?_claim, if_pos hid, hid, hstored]
    rfl

theorem Delivers.secures {after : Queue} (h : q.Delivers now fresh window m after) :
    after.Secures m (Instant.windowEnd now window) where
  present := by
    obtain ⟨_, -, -, rfl⟩ := h.visible
    exact h.isOpen.1
  stored := by
    obtain ⟨stored, hstored, hreceipt, hends⟩ := h.find?
    exact ⟨stored, hstored, hreceipt, Nat.le_of_eq hends.symm⟩

end Queue

namespace QueueCall

variable {q : Queue} {s : Serials} {now ends : Nat} {wallClock : Timestamp} {m : Delivery}

theorem faults_run (call : QueueCall) (hfaults : q.faults = []) :
    (call.run now wallClock (s, q)).1.2.faults = [] := by
  cases call with
  | probe | create => exact hfaults
  | enqueue body =>
      rw [(run_enqueue s q body).1, Queue.enqueue, Queue.opening_of_faultless hfaults]
      cases q.present <;> exact hfaults
  | dequeue window =>
      rw [(run_dequeue s q window).1, Queue.dequeue, Queue.opening_of_faultless hfaults]
      cases q.present with
      | false => exact hfaults
      | true =>
          simp only [if_true]
          split <;> exact hfaults
  | update m window =>
      rw [run_update, Queue.updateVisibility, Queue.opening_of_faultless hfaults]
      cases q.present with
      | false => exact hfaults
      | true =>
          simp only [if_true]
          split <;> exact hfaults
  | delete m =>
      simp only [run, Queue.delete, Queue.opening_of_faultless hfaults]
      cases q.present with
      | false => exact hfaults
      | true =>
          simp only [if_true]
          split <;> exact hfaults

/-- What a call does to the messages of a queue: one is added, delivered,
claimed anew or removed, or nothing happens to them. -/
inductive Affects (now : Nat) (wallClock : Timestamp) (s : Serials) (q : Queue) :
    QueueCall → Serials → Queue → Prop
  | keeps {call : QueueCall} {s' : Serials} {q' : Queue} (messages : q'.messages = q.messages)
      (present : q.present = true → q'.present = true) : Affects now wallClock s q call s' q'
  | appends {body : List UInt8} : Affects now wallClock s q (.enqueue body) s.messageUsed
      (q.append s.freshMessage body 0 now wallClock)
  | delivers {window : Duration} {m : Delivery} {s' : Serials} {q' : Queue}
      (delivers : q.Delivers now s.freshReceipt window m q') :
      Affects now wallClock s q (.dequeue window) s' q'
  | updates {m : Delivery} {window : Duration} {s' : Serials} (honoured : q.Honours now m) :
      Affects now wallClock s q (.update m window) s'
        (q.change m.id (·.claim now s.freshReceipt window))
  | deletes {m : Delivery} {s' : Serials} (honoured : q.Honours now m) :
      Affects now wallClock s q (.delete m) s' (q.remove m.id)

theorem affects_run (call : QueueCall) (hdistinct : q.IsDistinct) :
    Affects now wallClock s q call (call.run now wallClock (s, q)).1.1
      (call.run now wallClock (s, q)).1.2 := by
  cases call with
  | probe => exact .keeps rfl id
  | create => exact .keeps rfl fun _ => rfl
  | enqueue body =>
      by_cases hopen : q.IsOpen .enqueue
      · have henqueue : q.enqueue now wallClock s.freshMessage body =
            (q.append s.freshMessage body 0 now wallClock, .ok s.freshMessage) :=
          Queue.enqueue_of_isOpen hopen
        simp only [run, henqueue]
        exact .appends
      · rw [(run_enqueue s q body).1]
        obtain ⟨hmessages, hpresent⟩ := Queue.enqueue_of_not_isOpen hopen
        exact .keeps hmessages hpresent.trans
  | dequeue window =>
      rw [(run_dequeue s q window).1]
      rcases Queue.dequeue_cases now wallClock s.freshReceipt window hdistinct with
        ⟨m, -, hdelivers⟩ | ⟨-, hmessages, hpresent⟩
      · exact .delivers hdelivers
      · exact .keeps hmessages hpresent.trans
  | update m window =>
      rw [run_update]
      by_cases haccepted : q.IsOpen .update ∧ q.Honours now m
      · rw [Queue.updateVisibility_of_honours haccepted.1 haccepted.2]
        exact .updates haccepted.2
      · have hrefuses := Queue.refuses_updateVisibility s.freshReceipt window haccepted
        exact .keeps hrefuses.messages hrefuses.present.trans
  | delete m =>
      have hqueue : ((delete m).run now wallClock (s, q)).1.2 = (q.delete now m).1 := rfl
      rw [hqueue]
      by_cases haccepted : q.IsOpen .delete ∧ q.Honours now m
      · rw [Queue.delete_of_honours haccepted.1 haccepted.2]
        exact .deletes haccepted.2
      · have hrefuses := Queue.refuses_delete haccepted
        exact .keeps hrefuses.messages hrefuses.present.trans

theorem run_update_of_honours (window : Duration) (hopen : q.IsOpen .update)
    (h : q.Honours now m) :
    (update m window).run now wallClock (s, q) =
      ((s.receiptUsed, q.change m.id (·.claim now s.freshReceipt window)),
        .ok s.freshReceipt) := by
  simp only [run, Queue.updateVisibility_of_honours hopen h]

/-- An update that is refused changes no message. -/
theorem run_update_of_refused (window : Duration) (h : ¬ (q.IsOpen .update ∧ q.Honours now m)) :
    ∃ q' error, (update m window).run now wallClock (s, q) = ((s, q'), .error error) ∧
      q'.messages = q.messages ∧ q'.present = q.present := by
  obtain ⟨hmessages, hpresent, error, herror, -⟩ :=
    Queue.refuses_updateVisibility s.freshReceipt window h
  refine ⟨_, error, ?_, hmessages, hpresent⟩
  have houtcome : q.updateVisibility now s.freshReceipt m window =
      ((q.updateVisibility now s.freshReceipt m window).1, .error error) :=
    Prod.ext rfl herror
  simp only [run]
  rw [houtcome]

theorem isNumbered_run (call : QueueCall) (hq : q.IsNumbered s.message) :
    (call.run now wallClock (s, q)).1.2.IsNumbered
      (call.run now wallClock (s, q)).1.1.message := by
  have hbound : s.message ≤ (call.run now wallClock (s, q)).1.1.message := message_le_run call s q
  have haffects : Affects now wallClock s q call (call.run now wallClock (s, q)).1.1
    (call.run now wallClock (s, q)).1.2 := affects_run call hq.distinct
  generalize (call.run now wallClock (s, q)).1.1 = s' at *
  generalize (call.run now wallClock (s, q)).1.2 = q' at *
  cases haffects with
  | keeps messages present => exact hq.kept messages hbound
  | appends => exact hq.append
  | delivers delivers =>
      obtain ⟨stored, hstored, -, rfl⟩ := delivers.visible
      have hid : stored.id = _ := Queue.id_of_find? hstored
      exact hq.changed hbound fun _ _ => hid
  | updates honoured => exact hq.changed hbound fun _ hid => hid
  | deletes honoured =>
      refine ⟨Queue.isDistinct_remove hq.distinct, ?_⟩
      intro m hm
      exact Nat.lt_of_lt_of_le (hq.numbered m (List.mem_of_mem_filter hm)) hbound

/-- A claim stands unless a call presents its receipt. -/
theorem secures_run (call : QueueCall) (hdistinct : q.IsDistinct) (h : q.Secures m ends)
    (hlive : now < ends)
    (hspared : ∀ other, call.presented? = some other → other.id = m.id →
      other.receipt ≠ m.receipt) :
    (call.run now wallClock (s, q)).1.2.Secures m ends := by
  have haffects : Affects now wallClock s q call (call.run now wallClock (s, q)).1.1
    (call.run now wallClock (s, q)).1.2 := affects_run call hdistinct
  generalize (call.run now wallClock (s, q)).1.1 = s' at *
  generalize (call.run now wallClock (s, q)).1.2 = q' at *
  obtain ⟨stored, hstored, hreceipt, hends⟩ := h.stored
  -- an honoured receipt is that of the claim, if it is for the same message
  have hother : ∀ other : Delivery, call.presented? = some other → q.Honours now other →
      m.id ≠ other.id := by
    rintro other hpresented ⟨found, hfound, hproof, -⟩ hid
    rw [← hid, hstored] at hfound
    obtain rfl := Option.some.inj hfound
    exact hspared other hpresented hid.symm (Option.some.inj (hproof.symm.trans hreceipt))
  cases haffects with
  | keeps messages present =>
      exact ⟨present h.present, stored, (Queue.find?_congr messages _).trans hstored, hreceipt,
        hends⟩
  | appends => exact h.append
  | @delivers window delivered s' q' delivers =>
      have hne : m.id ≠ delivered.id :=
        fun hid => delivers.not_honours hid (h.honours hlive)
      have hfind : q'.find? m.id = q.find? m.id := delivers.find?_of_ne hne
      obtain ⟨_, -, -, rfl⟩ := delivers.visible
      exact h.congr hfind rfl
  | updates honoured =>
      refine h.congr ?_ rfl
      rw [Queue.find?_claim, if_neg (hother _ rfl honoured)]
  | deletes honoured =>
      refine h.congr ?_ rfl
      rw [Queue.find?_remove, if_neg (hother _ rfl honoured)]

end QueueCall

end LeasedListener
