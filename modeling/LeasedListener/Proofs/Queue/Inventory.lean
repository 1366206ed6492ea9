import LeasedListener.Proofs.Queue.Deeds
import LeasedListener.Scenario.World

/-!
# The inventory of a queue

An inventory follows a queue through any deeds, and keeps what was ever
created, returned and removed, as the answers tell it.  What is stored is what
was created, in the same order, less what was removed; each message counts the
dequeues that have returned it.
-/

namespace LeasedListener

namespace QueueEntry

variable {e : QueueEntry} {id : MessageId}

/-- The entry after some more dequeues; the count stops at its limit. -/
def served (e : QueueEntry) (times : Nat) : QueueEntry :=
  { e with dequeueCount := min (e.dequeueCount + times) (UInt32.size - 1) }

def servedIf (id : MessageId) (e : QueueEntry) : QueueEntry := if e.id = id then e.served 1 else e

@[simp] theorem id_served (e : QueueEntry) (times : Nat) : (e.served times).id = e.id := rfl

@[simp] theorem id_servedIf (e : QueueEntry) (id : MessageId) : (e.servedIf id).id = e.id := by
  unfold servedIf
  split <;> rfl

theorem served_served (e : QueueEntry) (earlier later : Nat) :
    (e.served earlier).served later = e.served (earlier + later) := by
  simp only [served, mk.injEq, true_and]
  omega

theorem servedIf_served_count (e : QueueEntry) (id : MessageId) (returned : List MessageId) :
    (e.served (returned.count e.id)).servedIf id = e.served ((id :: returned).count e.id) := by
  rw [servedIf, id_served, List.count_cons]
  by_cases hid : e.id = id
  · rw [if_pos hid, served_served, if_pos (beq_iff_eq.mpr hid.symm)]
  · rw [if_neg hid, if_neg fun hsame => hid (beq_iff_eq.mp hsame).symm, Nat.add_zero]

end QueueEntry

namespace StoredMessage

theorem served_entry (m : StoredMessage) : m.entry.served 0 = m.entry := by
  have hlimit : m.dequeueCount.toNat < UInt32.size := m.dequeueCount.toNat_lt
  simp only [QueueEntry.served, entry, QueueEntry.mk.injEq, true_and]
  omega

theorem entry_countDequeue (m : StoredMessage) : m.countDequeue.entry = m.entry.served 1 := by
  have hcount : m.countDequeue.dequeueCount = nextCount m.dequeueCount := rfl
  simp only [entry, hcount, toNat_nextCount]
  rfl

@[simp] theorem entry_claim (m : StoredMessage) (now : Nat) (fresh : Receipt) (window : Duration) :
    (m.claim now fresh window).entry = m.entry := rfl

end StoredMessage

namespace Queue

variable {q : Queue} {now : Nat} {id : MessageId} {fresh : Receipt} {window : Duration}
  {stored : StoredMessage}

def entries (q : Queue) : List QueueEntry := q.messages.map StoredMessage.entry

theorem entries_claim : (q.change id (·.claim now fresh window)).entries = q.entries := by
  simp only [entries, change, List.map_map]
  apply List.map_congr_left
  intro m _
  simp only [Function.comp_apply]
  split <;> rfl

theorem entries_serve (hdistinct : q.IsDistinct) (hstored : stored ∈ q.messages) :
    (q.change stored.id fun _ => stored.countDequeue.claim now fresh window).entries =
      q.entries.map (·.servedIf stored.id) := by
  simp only [entries, change, List.map_map]
  apply List.map_congr_left
  intro m hm
  have hentry : m.entry.id = m.id := rfl
  simp only [Function.comp_apply, QueueEntry.servedIf, hentry]
  by_cases hid : m.id = stored.id
  · obtain rfl : m = stored := List.inj_on_of_nodup_map hdistinct hm hstored hid
    simp only [if_true, StoredMessage.entry_claim, StoredMessage.entry_countDequeue]
  · simp only [if_neg hid]

theorem contains_iff_mem : q.contains id = true ↔ ∃ m ∈ q.messages, m.id = id := by
  simp [contains, find?]

theorem contains_change {changed : MessageId} {f : StoredMessage → StoredMessage}
    (hf : ∀ m, m.id = changed → (f m).id = changed) (h : q.contains id = true) :
    (q.change changed f).contains id = true := by
  obtain ⟨m, hm, rfl⟩ := contains_iff_mem.mp h
  apply contains_iff_mem.mpr
  refine ⟨_, List.mem_map.mpr ⟨m, hm, rfl⟩, ?_⟩
  split
  · next hid => rw [hf m hid, hid]
  · rfl

theorem contains_of_append {q' : Queue} {added : List StoredMessage}
    (hmessages : q'.messages = q.messages ++ added) (h : q.contains id = true) :
    q'.contains id = true := by
  obtain ⟨m, hm, hid⟩ := contains_iff_mem.mp h
  rw [contains_iff_mem, hmessages]
  exact ⟨m, List.mem_append_left _ hm, hid⟩

theorem entries_remove :
    (q.remove id).entries = q.entries.filter fun e => !decide (e.id = id) := by
  simp only [entries, remove, List.filter_map]
  congr 1
  apply List.filter_congr
  intro m _
  simp only [ne_eq, decide_not, Function.comp_apply]
  rfl

end Queue

structure Inventory where
  queue : Queue
  now : Nat
  /-- The messages as they were created, the earliest first. -/
  created : List QueueEntry
  /-- The identities that dequeues have returned, the latest first. -/
  returned : List MessageId
  /-- The identities of the messages that were deleted, or dropped with the
  queue. -/
  removed : List MessageId

namespace Inventory

def note (i : Inventory) (queue : Queue) (created? : Option QueueEntry)
    (returned? : Option MessageId) (removes : MessageId → Bool) : Inventory where
  queue := queue
  now := i.now
  created :=
    match created? with
    | none => i.created
    | some e => i.created ++ [e]
  returned :=
    match returned? with
    | none => i.returned
    | some id => id :: i.returned
  removed := (i.created.map (·.id)).filter removes ++ i.removed

def act (i : Inventory) (deed : QueueDeed) : Inventory :=
  i.note (deed.run i.now i.queue).1 (deed.created? (deed.run i.now i.queue).2)
    (deed.returned? (deed.run i.now i.queue).2) (deed.removes (deed.run i.now i.queue).2)

inductive Step : Inventory → Inventory → Prop
  | elapse {i : Inventory} {now : Nat} (later : i.now ≤ now) : Step i { i with now }
  | act {i : Inventory} (deed : QueueDeed)
      (unused : ∀ fresh, deed.fresh? = some fresh → ∀ e ∈ i.created, e.id ≠ fresh) :
      Step i (i.act deed)

/-- An inventory begins with an empty queue, which may be missing. -/
inductive Reachable : Inventory → Prop
  | start (name : String) (present : Bool) (now : Nat) :
      Reachable ⟨⟨name, present, [], []⟩, now, [], [], []⟩
  | step {i j : Inventory} : Reachable i → Step i j → Reachable j

/-- What was created, with the dequeues counted. -/
def entries (i : Inventory) : List QueueEntry :=
  i.created.map fun e => e.served (i.returned.count e.id)

/-- What was created and not removed. -/
def remaining (i : Inventory) : List QueueEntry := i.entries.filter fun e => e.id ∉ i.removed

structure Invariant (i : Inventory) : Prop where
  stored : i.queue.entries = i.remaining
  unique : (i.created.map (·.id)).Nodup
  known : ∀ id ∈ i.returned ++ i.removed, ∃ e ∈ i.created, e.id = id
  vacant : i.queue.present = false → i.queue.messages = []

variable {i j : Inventory} {deed : QueueDeed}

theorem ids_entries (i : Inventory) : i.entries.map (·.id) = i.created.map (·.id) := by
  simp [entries, Function.comp_def]

theorem ids_queueEntries (q : Queue) : q.entries.map (·.id) = q.messages.map (·.id) := by
  simp [Queue.entries, Function.comp_def, StoredMessage.entry]

theorem Invariant.ids_sublist (hi : i.Invariant) :
    (i.queue.messages.map (·.id)).Sublist (i.created.map (·.id)) := by
  rw [← ids_queueEntries, ← ids_entries, hi.stored]
  exact List.filter_sublist.map _

theorem Invariant.isDistinct (hi : i.Invariant) : i.queue.IsDistinct :=
  hi.ids_sublist.nodup hi.unique

theorem Invariant.mem_created (hi : i.Invariant) {m : StoredMessage} (hm : m ∈ i.queue.messages) :
    ∃ e ∈ i.created, e.id = m.id := by
  have hid : m.id ∈ i.created.map (·.id) :=
    hi.ids_sublist.subset (List.mem_map.mpr ⟨m, hm, rfl⟩)
  simpa using hid

/-- No message is created or returned, and the messages that stay are as they
were. -/
theorem Invariant.lose (hi : i.Invariant) {q : Queue} {removes : MessageId → Bool}
    (hentries : q.entries = i.queue.entries.filter fun e => !removes e.id)
    (hvacant : q.present = false → q.messages = []) :
    (i.note q none none removes).Invariant where
  stored := by
    rw [note, hentries, hi.stored, remaining, List.filter_filter]
    apply List.filter_congr
    intro e he
    have hcreated : e.id ∈ i.created.map (·.id) := by
      rw [← ids_entries]
      exact List.mem_map.mpr ⟨e, he, rfl⟩
    simp [List.mem_filter, hcreated]
  unique := hi.unique
  known := by
    intro id hid
    rcases List.mem_append.mp hid with hreturned | hremoved
    · exact hi.known id (List.mem_append_left _ hreturned)
    · rcases List.mem_append.mp hremoved with hnow | hbefore
      · exact List.mem_map.mp (List.mem_of_mem_filter hnow)
      · exact hi.known id (List.mem_append_right _ hbefore)
  vacant := hvacant

theorem Invariant.append (hi : i.Invariant) {q : Queue} {m : StoredMessage}
    (hmessages : q.messages = i.queue.messages ++ [m]) (hpresent : q.present = true)
    (hunused : ∀ e ∈ i.created, e.id ≠ m.id) :
    (i.note q (some m.entry) none fun _ => false).Invariant where
  stored := by
    have hnever : m.entry.id ∉ i.returned ++ i.removed := by
      intro hbefore
      obtain ⟨e, he, hid⟩ := hi.known _ hbefore
      exact hunused e he hid
    obtain ⟨hunreturned, hunremoved⟩ := not_or.mp (mt List.mem_append.mpr hnever)
    have hentries : (i.note q (some m.entry) none fun _ => false).entries =
        i.entries ++ [m.entry] := by
      simp only [note, entries, List.map_append, List.map_cons, List.map_nil,
        List.count_eq_zero.mpr hunreturned, StoredMessage.served_entry]
    have hremoved : (i.note q (some m.entry) none fun _ => false).removed = i.removed := by
      simp [note]
    have hstored : q.entries = i.remaining ++ [m.entry] := by
      rw [← hi.stored]
      simp [Queue.entries, hmessages]
    rw [remaining, hentries, hremoved, List.filter_append, List.filter_cons_of_pos]
    · exact hstored
    · simpa using hunremoved
  unique := by
    simp only [note, List.map_append, List.map_cons, List.map_nil]
    apply List.nodup_append.mpr
    refine ⟨hi.unique, by simp, ?_⟩
    intro known hknown other hother
    obtain ⟨e, he, rfl⟩ := List.mem_map.mp hknown
    rw [List.mem_singleton.mp hother]
    exact hunused e he
  known := by
    intro id hid
    obtain ⟨e, he, hsame⟩ := hi.known id (by simpa [note] using hid)
    exact ⟨e, List.mem_append_left _ he, hsame⟩
  vacant := by simp [note, hpresent]

theorem Invariant.serve (hi : i.Invariant) {fresh : Receipt} {window : Duration}
    {stored : StoredMessage} (hstored : stored ∈ i.queue.messages)
    (hpresent : i.queue.present = true) :
    (i.note (i.queue.change stored.id fun _ => stored.countDequeue.claim i.now fresh window)
      none (some stored.id) fun _ => false).Invariant where
  stored := by
    have hentries : ∀ q, (i.note q none (some stored.id) fun _ => false).entries =
        i.entries.map (·.servedIf stored.id) := by
      intro q
      simp only [note, entries, List.map_map]
      apply List.map_congr_left
      intro e _
      exact (QueueEntry.servedIf_served_count e stored.id i.returned).symm
    have hremoved : ∀ q, (i.note q none (some stored.id) fun _ => false).removed =
        i.removed := by
      simp [note]
    rw [remaining, hentries, hremoved, note, Queue.entries_serve hi.isDistinct hstored,
      hi.stored, remaining, List.filter_map]
    congr 1
    apply List.filter_congr
    intro e _
    simp
  unique := hi.unique
  known := by
    intro id hid
    have hid' : id = stored.id ∨ id ∈ i.returned ++ i.removed := by
      simpa [note] using hid
    rcases hid' with rfl | hbefore
    · exact hi.mem_created hstored
    · exact hi.known id hbefore
  vacant := by
    intro hmissing
    exact absurd (hpresent.symm.trans hmissing) (by simp)

theorem Invariant.act (hi : i.Invariant)
    (hunused : ∀ fresh, deed.fresh? = some fresh → ∀ e ∈ i.created, e.id ≠ fresh) :
    (i.act deed).Invariant := by
  have hmoves := QueueDeed.moves_run i.now i.queue deed
  have hstays : ∀ q : Queue, q.present = i.queue.present → i.queue.present = true →
      q.present = false → q.messages = [] := by
    intro q hsame hpresent hmissing
    exact absurd ((hsame.trans hpresent).symm.trans hmissing) (by simp)
  unfold Inventory.act
  generalize deed.run i.now i.queue = outcome at *
  cases hmoves with
  | keeps messages present creates returns removes =>
      rw [creates, returns]
      apply hi.lose
      · simp [Queue.entries, messages, removes]
      · intro hmissing
        rw [messages]
        apply hi.vacant
        cases hpresent : i.queue.present with
        | false => rfl
        | true => exact absurd ((present hpresent).symm.trans hmissing) (by simp)
  | @enqueues wallClock fresh body isOpen =>
      exact hi.append (m := ⟨fresh, body, 0, wallClock, i.now, none⟩) rfl isOpen.1
        (hunused fresh rfl)
  | @pushes wallClock fresh body dequeueCount =>
      exact hi.append (m := ⟨fresh, body, dequeueCount, wallClock, i.now, none⟩) rfl rfl
        (hunused fresh rfl)
  | serves isOpen first => exact hi.serve (List.mem_of_find?_eq_some first) isOpen.1
  | claims isOpen honoured =>
      apply hi.lose
      · rw [Queue.entries_claim]
        exact (List.filter_true _).symm
      · exact hstays _ rfl isOpen.1
  | deletes isOpen honoured =>
      apply hi.lose
      · exact Queue.entries_remove
      · exact hstays _ rfl isOpen.1
  | drops =>
      apply hi.lose
      · exact (List.filter_false _).symm
      · exact fun _ => rfl

theorem Invariant.step (hi : i.Invariant) (h : Step i j) : j.Invariant := by
  cases h with
  | elapse _ => exact ⟨hi.stored, hi.unique, hi.known, hi.vacant⟩
  | act deed unused => exact hi.act unused

theorem Reachable.invariant (h : Reachable i) : i.Invariant := by
  induction h with
  | start name present now => exact ⟨rfl, .nil, by simp, fun _ => rfl⟩
  | step _ hstep ih => exact ih.step hstep

/-- Of the visible messages this one was created first. -/
structure ServesNext (i : Inventory) (stored : StoredMessage) : Prop where
  mem : stored ∈ i.queue.messages
  visible : stored.isVisible i.now = true
  earliest : ∃ earlier e later, i.created = earlier ++ e :: later ∧ e.id = stored.id ∧
    ∀ d ∈ earlier, ∀ m ∈ i.queue.messages, m.id = d.id → m.isVisible i.now = false

theorem Invariant.servesNext (hi : i.Invariant) {stored : StoredMessage}
    (hfirst : i.queue.messages.find? (·.isVisible i.now) = some stored) : i.ServesNext stored := by
  obtain ⟨before, after, hlies, hvisible, hhidden⟩ := Queue.lies_of_first hi.isDistinct hfirst
  have hids := hi.ids_sublist
  rw [hlies.messages, List.map_append, List.map_cons] at hids
  obtain ⟨upTo, rest, hsplit, hserved, hafter⟩ :=
    List.cons_sublist_iff.mp ((List.sublist_append_right _ _).trans hids)
  obtain ⟨earlierIds, between, rfl⟩ := List.append_of_mem hserved
  rw [List.append_assoc, List.cons_append] at hsplit
  obtain ⟨earlier, served, hcreated, hearlier, hlater⟩ := List.map_eq_append_iff.mp hsplit
  obtain ⟨e, later, rfl, hid, hlater⟩ := List.map_eq_cons_iff.mp hlater
  refine ⟨List.mem_of_find?_eq_some hfirst, hvisible, earlier, e, later, hcreated, hid, ?_⟩
  intro d hd m hm hsame
  rw [hlies.messages] at hm
  rcases List.mem_append.mp hm with hbefore | hnot
  · exact hhidden m hbefore
  · -- what stands behind the message was created after it
    have hdistinct := hi.unique
    rw [hsplit] at hdistinct
    have hearly : d.id ∈ earlierIds := hearlier ▸ List.mem_map.mpr ⟨d, hd, rfl⟩
    have hlate : m.id ∈ stored.id :: (between ++ rest) := by
      rcases List.mem_cons.mp hnot with rfl | hbehind
      · exact List.mem_cons_self ..
      · have hrest : m.id ∈ rest := hafter.subset (List.mem_map.mpr ⟨m, hbehind, rfl⟩)
        exact List.mem_cons_of_mem _ (List.mem_append_right _ hrest)
    exact absurd hsame.symm ((List.nodup_append.mp hdistinct).2.2 d.id hearly m.id hlate)

/-- The ways in which a message can leave the queue. -/
def Removes (i : Inventory) (deed : QueueDeed) (id : MessageId) : Prop :=
  deed = .drop ∨ ∃ m, deed = .delete m ∧ m.id = id ∧ (i.queue.delete i.now m).2 = .ok ()

theorem removes_of_gone {id : MessageId} (hbefore : i.queue.contains id = true)
    (hafter : (i.act deed).queue.contains id = false) : i.Removes deed id := by
  have hmoves := QueueDeed.moves_run i.now i.queue deed
  have hgone : ¬ (deed.run i.now i.queue).1.contains id = true := by
    rw [Bool.not_eq_true]
    exact hafter
  generalize hrun : deed.run i.now i.queue = outcome at *
  cases hmoves with
  | keeps messages _ _ _ =>
      rw [← List.append_nil i.queue.messages] at messages
      exact absurd (Queue.contains_of_append messages hbefore) hgone
  | enqueues _ => exact absurd (Queue.contains_of_append rfl hbefore) hgone
  | pushes => exact absurd (Queue.contains_of_append rfl hbefore) hgone
  | serves _ _ => exact (hgone (Queue.contains_change (fun _ _ => rfl) hbefore)).elim
  | claims _ _ => exact (hgone (Queue.contains_change (fun _ hid => hid) hbefore)).elim
  | @deletes m _ _ =>
      by_cases hid : id = m.id
      · exact .inr ⟨m, rfl, hid.symm, congrArg Prod.snd hrun⟩
      · have hkept : (i.queue.remove m.id).contains id = true := by
          rw [Queue.contains, Queue.find?_remove, if_neg hid]
          exact hbefore
        exact absurd hkept hgone
  | drops => exact .inl rfl

/-- A message that is created is stored, behind all the others. -/
theorem entries_of_created {e : QueueEntry}
    (h : deed.created? (deed.run i.now i.queue).2 = some e) :
    (i.act deed).queue.entries = i.queue.entries ++ [e] := by
  have hmoves := QueueDeed.moves_run i.now i.queue deed
  have hqueue : (i.act deed).queue = (deed.run i.now i.queue).1 := rfl
  rw [hqueue]
  generalize deed.run i.now i.queue = outcome at *
  cases hmoves with
  | keeps _ _ creates _ _ => cases creates.symm.trans h
  | serves _ _ | claims _ _ | deletes _ _ | drops => cases h
  | enqueues _ | pushes =>
      cases h
      exact List.map_append

/-- The stored messages are those that were created and not removed, in order,
with their bodies and with the dequeues that returned them counted.  A dequeue
returns the visible message that was created first.  A message leaves only by
an accepted deletion or with the queue, and a missing queue is empty. -/
theorem stored_in_order (h : Reachable i) :
    i.queue.entries = i.remaining ∧ (i.created.map (·.id)).Nodup ∧ i.queue.IsDistinct ∧
    (∀ deed e, deed.created? (deed.run i.now i.queue).2 = some e →
      (i.act deed).queue.entries = i.queue.entries ++ [e]) ∧
    (∀ wallClock fresh window answer,
      (i.queue.dequeue i.now wallClock fresh window).2 = .ok answer →
        (answer = none ↔ ∀ m ∈ i.queue.messages, m.isVisible i.now = false) ∧
        ∀ m, answer = some m → ∃ stored, i.ServesNext stored ∧
          m = stored.delivery fresh (wallClock.plus window)) ∧
    (∀ deed id, i.queue.contains id = true → (i.act deed).queue.contains id = false →
      i.Removes deed id) ∧
    (i.queue.present = false → i.queue.messages = []) := by
  have hi : i.Invariant := h.invariant
  refine ⟨hi.stored, hi.unique, hi.isDistinct, fun _ _ => entries_of_created, ?_,
    fun _ _ => removes_of_gone, hi.vacant⟩
  intro wallClock fresh window answer hanswer
  have hserves := i.queue.serves_dequeue i.now wallClock fresh window
  generalize i.queue.dequeue i.now wallClock fresh window = outcome at *
  cases hserves with
  | refuses _ _ => simp at hanswer
  | exhausted _ hidden =>
      obtain rfl := Except.ok.inj hanswer
      have hnone : ∀ m ∈ i.queue.messages, m.isVisible i.now = false := by
        simpa using hidden
      exact ⟨iff_of_true rfl hnone, by simp⟩
  | delivers _ first =>
      obtain rfl := Except.ok.inj hanswer
      have hnext := hi.servesNext first
      constructor
      · constructor
        · simp
        · intro hhidden
          exact absurd hnext.visible (by simp [hhidden _ hnext.mem])
      · intro m hm
        exact ⟨_, hnext, (Option.some.inj hm).symm⟩

def tenSecondClaim (serial : Nat) : QueueDeed := .dequeue scenarioEpoch ⟨serial⟩ (.ofSeconds 10)

def enqueued (serial : Nat) (body : List UInt8) : QueueDeed :=
  .enqueue scenarioEpoch ⟨serial⟩ body

/-- The second of three messages, as it was delivered. -/
def finished : Delivery where
  id := ⟨1⟩
  receipt := ⟨1⟩
  dequeueCount := 1
  body := [7]
  insertedAt := scenarioEpoch
  nextVisibleAt := scenarioEpoch.plus (.ofSeconds 10)

/-- Three messages have been dequeued.  One of them has been deleted, and the
claims on the others have lapsed. -/
def twoLapsed : Inventory :=
  { (((((((Inventory.mk (.create "jobs") 0 [] [] []).act (enqueued 0 [])).act (enqueued 1 [7])).act
      (.push scenarioEpoch ⟨2⟩ [] 4)).act (tenSecondClaim 0)).act (tenSecondClaim 1)).act
      (tenSecondClaim 2)).act (.delete finished)
    with now := 10000000000 }

theorem reachable_twoLapsed : Reachable twoLapsed := by
  have hstart : Reachable (Inventory.mk (.create "jobs") 0 [] [] []) := .start "jobs" true 0
  have hfirst := hstart.step (.act (enqueued 0 []) (by decide))
  have hsecond := hfirst.step (.act (enqueued 1 [7]) (by decide))
  have hthird := hsecond.step (.act (.push scenarioEpoch ⟨2⟩ [] 4) (by decide))
  have hclaimed := hthird.step (.act (tenSecondClaim 0) nofun)
  have hclaims := (hclaimed.step (.act (tenSecondClaim 1) nofun)).step
    (.act (tenSecondClaim 2) nofun)
  have hdeleted := hclaims.step (.act (.delete finished) nofun)
  exact hdeleted.step (.elapse (Nat.zero_le _))

/-- Two of the three messages remain, and the one that was created first is
returned first again. -/
theorem stored_in_order_twoLapsed :
    twoLapsed.created = [⟨⟨0⟩, [], 0⟩, ⟨⟨1⟩, [7], 0⟩, ⟨⟨2⟩, [], 4⟩] ∧
      twoLapsed.queue.entries = [⟨⟨0⟩, [], 1⟩, ⟨⟨2⟩, [], 5⟩] ∧
      ∃ stored, twoLapsed.ServesNext stored ∧ stored.id = ⟨0⟩ := by
  have hordered := stored_in_order reachable_twoLapsed
  refine ⟨rfl, hordered.1, ?_⟩
  obtain ⟨stored, hnext, hstored⟩ := (hordered.2.2.2.2.1 scenarioEpoch ⟨3⟩ .zero _ rfl).2 _ rfl
  exact ⟨stored, hnext, congrArg Message.id hstored.symm⟩

end Inventory

end LeasedListener
