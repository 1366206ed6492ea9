import LeasedListener.Proofs.Queue.Evolution
import Mathlib.Data.List.Nodup

/-!
# Claims on stored messages

A message is looked up by its identity, and the identities in a queue are
distinct.  Each operation is described by what it does to the message under
every identity, and by when it fails: because an error is in store for it,
because the queue is missing, or because the claim that it presents is not
honoured.
-/

namespace LeasedListener

namespace Queue

variable {q : Queue} {now : Nat} {wallClock : Timestamp} {id : MessageId} {m : Delivery}
  {stored : StoredMessage} {fresh : Receipt} {window : Duration}

def IsDistinct (q : Queue) : Prop := (q.messages.map (·.id)).Nodup

/-- The queue exists, and no error is in store for the operation. -/
def IsOpen (q : Queue) (operation : QueueOperation) : Prop :=
  q.present = true ∧ q.faults.find? (·.1 = operation) = none

/-- The stored message carries the receipt and is still hidden. -/
def Honours (q : Queue) (now : Nat) (m : Delivery) : Prop :=
  ∃ stored, q.find? m.id = some stored ∧ stored.receipt = some m.receipt ∧ now < stored.visibleAt

theorem opening_of_isOpen {operation : QueueOperation} (h : q.IsOpen operation) :
    q.opening operation = (q, .ok ()) := by
  obtain ⟨hpresent, hfault⟩ := h
  simp [opening, hfault, hpresent]

theorem opening_of_not_isOpen {operation : QueueOperation} (h : ¬ q.IsOpen operation) :
    ∃ error, q.opening operation = ((q.opening operation).1, .error error) := by
  unfold opening
  split
  · next fault _ => exact ⟨fault.2, rfl⟩
  · next hfault =>
      have hmissing : ¬ q.present = true := fun hpresent => h ⟨hpresent, hfault⟩
      exact ⟨_, congrArg (Prod.mk q) (if_neg hmissing)⟩

theorem present_opening (q : Queue) (operation : QueueOperation) :
    (q.opening operation).1.present = q.present := by
  unfold opening
  split <;> rfl

theorem find?_congr {q' : Queue} (h : q'.messages = q.messages) (id : MessageId) :
    q'.find? id = q.find? id := by
  simp only [find?, h]

theorem id_of_find? (h : q.find? id = some stored) : stored.id = id := by
  simpa using List.find?_some h

theorem mem_of_find? (h : q.find? id = some stored) : stored ∈ q.messages :=
  List.mem_of_find?_eq_some h

theorem find?_of_mem (hdistinct : q.IsDistinct) (hmem : stored ∈ q.messages) :
    q.find? stored.id = some stored := by
  cases hfound : q.find? stored.id with
  | none =>
      have hnone : ∀ m ∈ q.messages, m.id ≠ stored.id := by
        simpa [find?, List.find?_eq_none] using hfound
      exact absurd rfl (hnone stored hmem)
  | some found =>
      have hsame : found = stored :=
        List.inj_on_of_nodup_map hdistinct (mem_of_find? hfound) hmem (id_of_find? hfound)
      rw [hsame]

theorem contains_iff : q.contains id = true ↔ ∃ stored, q.find? id = some stored := by
  rw [contains, Option.isSome_iff_exists]

theorem find?_append {added : MessageId} {body : List UInt8} {dequeueCount : UInt32} :
    (q.append added body dequeueCount now wallClock).find? id =
      (q.find? id).or
        (if added = id then some ⟨added, body, dequeueCount, wallClock, now, none⟩ else none) := by
  simp only [find?, append, List.find?_append]
  congr 1
  by_cases hadded : added = id <;> simp [hadded]

theorem find?_change {changed : MessageId} {f : StoredMessage → StoredMessage}
    (hf : ∀ m, m.id = changed → (f m).id = changed) :
    (q.change changed f).find? id = if id = changed then (q.find? id).map f else q.find? id := by
  simp only [find?, change]
  induction q.messages with
  | nil => simp
  | cons head rest ih =>
      have hid : (if head.id = changed then f head else head).id = head.id := by
        split
        · next hchanged => rw [hf head hchanged, hchanged]
        · rfl
      simp only [List.map_cons, List.find?_cons, hid, ih]
      by_cases hhead : head.id = id
      · subst hhead
        by_cases hchanged : head.id = changed <;> simp [hchanged]
      · simp [hhead]

theorem find?_claim {claimed : MessageId} :
    (q.change claimed (·.claim now fresh window)).find? id =
      if id = claimed then (q.find? id).map (·.claim now fresh window) else q.find? id :=
  find?_change fun _ hid => hid

theorem find?_remove {removed : MessageId} :
    (q.remove removed).find? id = if id = removed then none else q.find? id := by
  simp only [find?, remove, List.find?_filter]
  by_cases hid : id = removed
  · subst hid
    rw [if_pos rfl, List.find?_eq_none]
    intro m _
    simp
  · rw [if_neg hid]
    congr 1
    funext m
    by_cases hm : m.id = id <;> simp [hm, hid]

theorem isDistinct_congr {q' : Queue} (h : q'.messages = q.messages) :
    q'.IsDistinct ↔ q.IsDistinct := by
  simp only [IsDistinct, h]

theorem isDistinct_append {added : MessageId} {body : List UInt8} {dequeueCount : UInt32}
    (hdistinct : q.IsDistinct) (hfresh : ∀ m ∈ q.messages, m.id ≠ added) :
    (q.append added body dequeueCount now wallClock).IsDistinct := by
  simp only [IsDistinct, append, List.map_append, List.map_cons, List.map_nil]
  refine List.nodup_append.mpr ⟨hdistinct, by simp, ?_⟩
  intro known hknown other hother
  obtain ⟨m, hm, rfl⟩ := List.mem_map.mp hknown
  rw [List.mem_singleton.mp hother]
  exact hfresh m hm

theorem isDistinct_change {changed : MessageId} {f : StoredMessage → StoredMessage}
    (hf : ∀ m, m.id = changed → (f m).id = changed) (hdistinct : q.IsDistinct) :
    (q.change changed f).IsDistinct := by
  have hsame : (q.change changed f).messages.map (·.id) = q.messages.map (·.id) := by
    simp only [change, List.map_map]
    refine List.map_congr_left ?_
    intro m _
    simp only [Function.comp_apply]
    split
    · next hchanged => rw [hf m hchanged, hchanged]
    · rfl
  rw [IsDistinct, hsame]
  exact hdistinct

theorem isDistinct_remove {removed : MessageId} (hdistinct : q.IsDistinct) :
    (q.remove removed).IsDistinct :=
  (List.filter_sublist.map _).nodup hdistinct

theorem claimed?_eq_ok_iff :
    q.claimed? m now = .ok stored ↔
      q.find? m.id = some stored ∧ stored.receipt = some m.receipt ∧ now < stored.visibleAt := by
  have hclaimed : ∀ found : StoredMessage, found.claimedBy m.receipt now = true ↔
      found.receipt = some m.receipt ∧ now < found.visibleAt := by
    intro found
    simp [StoredMessage.claimedBy, StoredMessage.isVisible]
  unfold claimed?
  constructor
  · intro h
    split at h
    · simp at h
    · next found hfound =>
        split at h
        · next hclaim =>
            obtain rfl := Except.ok.inj h
            exact ⟨hfound, (hclaimed found).mp hclaim⟩
        · simp at h
  · rintro ⟨hfound, hclaim⟩
    simp only [hfound]
    rw [if_pos ((hclaimed stored).mpr hclaim)]

/-- Why the claim of a delivery is not honoured. -/
def refusal (q : Queue) (m : Delivery) : StorageError :=
  if q.contains m.id then .popReceiptMismatch m.id.text else .messageNotFound m.id.text

theorem claimed?_of_not_honours (h : ¬ q.Honours now m) :
    q.claimed? m now = .error (q.refusal m) := by
  unfold claimed?
  split
  · next hnone => simp [refusal, contains, hnone]
  · next found hfound =>
      have hstale : ¬ found.claimedBy m.receipt now = true := by
        intro hclaim
        refine h ⟨found, hfound, ?_⟩
        simpa [StoredMessage.claimedBy, StoredMessage.isVisible] using hclaim
      rw [if_neg hstale]
      simp [refusal, contains, hfound]

theorem updateVisibility_of_honours (hopen : q.IsOpen .update) (h : q.Honours now m) :
    q.updateVisibility now fresh m window =
      (q.change m.id (·.claim now fresh window), .ok fresh) := by
  obtain ⟨stored, hstored⟩ := h
  have hclaimed : q.claimed? m now = .ok stored := claimed?_eq_ok_iff.mpr hstored
  simp only [updateVisibility, opening_of_isOpen hopen, hclaimed, id_of_find? hstored.1]

theorem delete_of_honours (hopen : q.IsOpen .delete) (h : q.Honours now m) :
    q.delete now m = (q.remove m.id, .ok ()) := by
  obtain ⟨stored, hstored⟩ := h
  have hclaimed : q.claimed? m now = .ok stored := claimed?_eq_ok_iff.mpr hstored
  simp only [delete, opening_of_isOpen hopen, hclaimed, id_of_find? hstored.1]

/-- An operation on a claim that fails: it leaves the messages as they are, and
says why the claim is not honoured unless something else is in its way. -/
structure Refuses {α : Type} (q : Queue) (operation : QueueOperation) (m : Delivery)
    (outcome : Queue × Except StorageError α) : Prop where
  messages : outcome.1.messages = q.messages
  present : outcome.1.present = q.present
  fails : ∃ error, outcome.2 = .error error ∧ (q.IsOpen operation → error = q.refusal m)

/-- An operation that begins like any other and then checks the claim. -/
theorem refuses_of_checks {α : Type} {operation : QueueOperation}
    {outcome : Queue × Except StorageError α} (h : ¬ (q.IsOpen operation ∧ q.Honours now m))
    (hopening : ∀ after error, q.opening operation = (after, .error error) →
      outcome = (after, .error error))
    (hclaim : ∀ error, q.opening operation = (q, .ok ()) → q.claimed? m now = .error error →
      outcome = (q, .error error)) :
    q.Refuses operation m outcome := by
  by_cases hopen : q.IsOpen operation
  · have hclaimed : q.claimed? m now = .error (q.refusal m) :=
      claimed?_of_not_honours fun hhonours => h ⟨hopen, hhonours⟩
    rw [hclaim _ (opening_of_isOpen hopen) hclaimed]
    exact ⟨rfl, rfl, _, rfl, fun _ => rfl⟩
  · obtain ⟨error, herror⟩ := opening_of_not_isOpen hopen
    rw [hopening _ error herror]
    exact ⟨messages_opening q operation, present_opening q operation, error, rfl,
      fun hopen' => absurd hopen' hopen⟩

theorem refuses_updateVisibility (fresh : Receipt) (window : Duration)
    (h : ¬ (q.IsOpen .update ∧ q.Honours now m)) :
    q.Refuses .update m (q.updateVisibility now fresh m window) := by
  refine refuses_of_checks h ?_ ?_
  · intro after error hopening
    simp only [updateVisibility, hopening]
  · intro error hopening hclaim
    simp only [updateVisibility, hopening, hclaim]

theorem refuses_delete (h : ¬ (q.IsOpen .delete ∧ q.Honours now m)) :
    q.Refuses .delete m (q.delete now m) := by
  refine refuses_of_checks h ?_ ?_
  · intro after error hopening
    simp only [delete, hopening]
  · intro error hopening hclaim
    simp only [delete, hopening, hclaim]

theorem enqueue_of_isOpen {added : MessageId} {body : List UInt8} (hopen : q.IsOpen .enqueue) :
    q.enqueue now wallClock added body = (q.append added body 0 now wallClock, .ok added) := by
  simp only [enqueue, opening_of_isOpen hopen]

theorem enqueue_of_not_isOpen {added : MessageId} {body : List UInt8}
    (hopen : ¬ q.IsOpen .enqueue) :
    (q.enqueue now wallClock added body).1.messages = q.messages ∧
      (q.enqueue now wallClock added body).1.present = q.present := by
  obtain ⟨error, herror⟩ := opening_of_not_isOpen hopen
  have henqueue : q.enqueue now wallClock added body = ((q.opening .enqueue).1, .error error) := by
    rw [enqueue, herror]
  rw [henqueue]
  exact ⟨messages_opening q .enqueue, present_opening q .enqueue⟩

/-- A delivery is of a visible message, which is under a new claim from then
on. -/
structure Delivers (q : Queue) (now : Nat) (fresh : Receipt) (window : Duration)
    (m : Delivery) (after : Queue) : Prop where
  isOpen : q.IsOpen .dequeue
  receipt : m.receipt = fresh
  visible : ∃ stored, q.find? m.id = some stored ∧ stored.visibleAt ≤ now ∧
    after = q.change m.id fun _ => stored.countDequeue.claim now fresh window

/-- A dequeue delivers a visible message or changes no message. -/
theorem dequeue_cases (now : Nat) (wallClock : Timestamp) (fresh : Receipt) (window : Duration)
    (hdistinct : q.IsDistinct) :
    (∃ m, (q.dequeue now wallClock fresh window).2 = .ok (some m) ∧
      q.Delivers now fresh window m (q.dequeue now wallClock fresh window).1) ∨
    ((∀ m, (q.dequeue now wallClock fresh window).2 ≠ .ok (some m)) ∧
      (q.dequeue now wallClock fresh window).1.messages = q.messages ∧
      (q.dequeue now wallClock fresh window).1.present = q.present) := by
  by_cases hopen : q.IsOpen .dequeue
  · simp only [dequeue, opening_of_isOpen hopen]
    cases hfound : q.messages.find? (·.isVisible now) with
    | none => exact .inr ⟨by simp, rfl, rfl⟩
    | some stored =>
        have hvisible : stored.visibleAt ≤ now := by
          simpa [StoredMessage.isVisible] using List.find?_some hfound
        have hstored : q.find? stored.id = some stored :=
          find?_of_mem hdistinct (List.mem_of_find?_eq_some hfound)
        exact .inl ⟨_, rfl, hopen, rfl, stored, hstored, hvisible, rfl⟩
  · obtain ⟨error, herror⟩ := opening_of_not_isOpen hopen
    have hdequeue : q.dequeue now wallClock fresh window =
        ((q.opening .dequeue).1, .error error) := by
      rw [dequeue, herror]
    rw [hdequeue]
    exact .inr ⟨by simp, messages_opening q .dequeue, present_opening q .dequeue⟩

theorem delivers_of_dequeue (hdistinct : q.IsDistinct)
    (h : (q.dequeue now wallClock fresh window).2 = .ok (some m)) :
    q.Delivers now fresh window m (q.dequeue now wallClock fresh window).1 := by
  rcases dequeue_cases now wallClock fresh window hdistinct with
    ⟨delivered, hdelivered, hdelivers⟩ | ⟨hnone, -, -⟩
  · obtain rfl : delivered = m := Option.some.inj (Except.ok.inj (hdelivered.symm.trans h))
    exact hdelivers
  · exact absurd h (hnone m)

theorem Delivers.find? {after : Queue} (h : q.Delivers now fresh window m after) :
    ∃ stored, after.find? m.id = some stored ∧ stored.receipt = some m.receipt ∧
      stored.visibleAt = Instant.windowEnd now window := by
  obtain ⟨stored, hstored, -, rfl⟩ := h.visible
  have hid : stored.id = m.id := id_of_find? hstored
  refine ⟨stored.countDequeue.claim now fresh window, ?_, by rw [h.receipt]; rfl, rfl⟩
  rw [find?_change (f := fun _ => stored.countDequeue.claim now fresh window) fun _ _ => hid,
    if_pos rfl, hstored]
  rfl

theorem Delivers.find?_of_ne {after : Queue} (h : q.Delivers now fresh window m after)
    (hne : id ≠ m.id) : after.find? id = q.find? id := by
  obtain ⟨stored, hstored, -, rfl⟩ := h.visible
  have hid : stored.id = m.id := id_of_find? hstored
  rw [find?_change (f := fun _ => stored.countDequeue.claim now fresh window) fun _ _ => hid,
    if_neg hne]

theorem Delivers.isDistinct {after : Queue} (h : q.Delivers now fresh window m after)
    (hdistinct : q.IsDistinct) : after.IsDistinct := by
  obtain ⟨stored, hstored, -, rfl⟩ := h.visible
  have hid : stored.id = m.id := id_of_find? hstored
  exact isDistinct_change (fun _ _ => hid) hdistinct

/-- A visible message is under no claim. -/
theorem Delivers.not_honours {after : Queue} (h : q.Delivers now fresh window m after)
    {other : Delivery} (hid : other.id = m.id) : ¬ q.Honours now other := by
  rintro ⟨stored, hstored, -, hhidden⟩
  obtain ⟨visible, hvisible, hseen, -⟩ := h.visible
  rw [hid, hvisible, Option.some.injEq] at hstored
  subst hstored
  omega

end Queue

end LeasedListener
