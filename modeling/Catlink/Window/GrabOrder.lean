import Catlink.Lib.Runs
import Catlink.Window.EncodeQueue

/-! Frames are encoded in the order in which they were grabbed, as long as none of them is given to
the encode thread while others wait. -/

namespace Catlink.EncodeQueue

open MainLoop Runs

/-! ### Where the images are -/

/-- Every image is with the encode thread, in the queue, dropped, or else `pending`, in the hands of
the region that is processed. -/
structure Accounted (s : WindowSource) (pending : List Image) : Prop where
  numbered : s.grabbed.map Image.id = List.range s.grabbed.length
  places : ∃ dropped : List Image,
    (dropped ++ ((s.handed ++ s.encodeQueue).map Item.image ++ pending)).Perm s.grabbed ∧
      s.freed.Perm (dropped ++ s.taken.map Item.image) ∧
      ∀ image ∈ dropped, image.sequence ≤ s.damageCancelled

theorem Accounted.distinct {s : WindowSource} {pending : List Image} (held : Accounted s pending) :
    s.grabbed.Nodup := by
  apply List.Nodup.of_map Image.id
  rw [held.numbered]
  exact List.nodup_range

/-- What was freed is neither in a queue nor in the hands of a region. -/
theorem Accounted.apart {s : WindowSource} {pending : List Image} (held : Accounted s pending) :
    (s.freed ++ ((s.encodeWorkQueue ++ s.encodeQueue).map Item.image ++ pending)).Nodup := by
  obtain ⟨dropped, places, freed, _⟩ := held.places
  have distinct := places.nodup_iff.mpr held.distinct
  apply (List.Perm.nodup_iff _).mpr distinct
  calc
    (s.freed ++ ((s.encodeWorkQueue ++ s.encodeQueue).map Item.image ++ pending)).Perm
        ((dropped ++ s.taken.map Item.image) ++
          ((s.encodeWorkQueue ++ s.encodeQueue).map Item.image ++ pending)) :=
      freed.append_right _
    _ = dropped ++ ((s.handed ++ s.encodeQueue).map Item.image ++ pending) := by
      simp [WindowSource.handed]

theorem Accounted.perm {s : WindowSource} {pending pending' : List Image}
    (held : Accounted s pending) (same : pending.Perm pending') : Accounted s pending' := by
  obtain ⟨dropped, places, rest⟩ := held.places
  constructor
  · exact held.numbered
  · exact ⟨dropped, ((same.symm.append_left _).append_left _).trans places, rest⟩

theorem Accounted.newImage {s : WindowSource} {pending : List Image} (held : Accounted s pending) :
    Accounted s.newImage.1 (pending ++ [s.newImage.2]) := by
  obtain ⟨dropped, places, rest⟩ := held.places
  constructor
  · simp [WindowSource.newImage, held.numbered, List.range_succ]
  · refine ⟨dropped, ?_, rest⟩
    have more := places.append_right [s.newImage.2]
    simpa [WindowSource.newImage, WindowSource.handed] using more

theorem free_fresh {s : WindowSource} {image : Image} (fresh : image ∉ s.freed) :
    s.free image = { s with freed := s.freed ++ [image] } := if_neg fresh

theorem foldl_free (images : List Image) (s : WindowSource) (fresh : (s.freed ++ images).Nodup) :
    images.foldl WindowSource.free s = { s with freed := s.freed ++ images } := by
  induction images generalizing s with
  | nil => simp
  | cons image images ih =>
      have new : image ∉ s.freed := by
        intro old
        rw [List.nodup_append] at fresh
        exact fresh.2.2 image old image List.mem_cons_self rfl
      rw [List.foldl_cons, free_fresh new, ih]
      · simp
      · simpa using fresh

theorem free_again (s : WindowSource) (image : Image) : (s.free image).free image = s.free image := by
  by_cases old : image ∈ s.freed
  · have same : s.free image = s := if_pos old
    rw [same, same]
  · rw [free_fresh old]
    exact if_pos (List.mem_append_right _ (List.mem_singleton.mpr rfl))

theorem freeEncodeQueueImages_ok {s : WindowSource}
    (fresh : (s.freed ++ s.encodeQueue.map Item.image).Nodup) :
    freeEncodeQueueImages s =
      { s with encodeQueue := [], freed := s.freed ++ s.encodeQueue.map Item.image } :=
  foldl_free _ { s with encodeQueue := [] } fresh

/-- What was cancelled is freed and not encoded. -/
theorem makeDataPacketCb_ok {s : WindowSource} {item : Item} (fresh : item.image ∉ s.freed) :
    ∃ encoded, makeDataPacketCb s item =
        { s with encoded := encoded, freed := s.freed ++ [item.image] } ∧
      (encoded = s.encoded ∨ s.damageCancelled < item.sequence ∧ encoded = s.encoded ++ [item]) := by
  unfold makeDataPacketCb
  split
  next cancelled =>
    rw [free_again, free_fresh fresh]
    exact ⟨s.encoded, rfl, .inl rfl⟩
  next live =>
    refine ⟨s.encoded ++ [item], free_fresh fresh, .inr ⟨?_, rfl⟩⟩
    simpa [WindowSource.isCancelled] using live

/-- An image is given to the encode thread. -/
theorem Accounted.hand {s : WindowSource} {item : Item} {pending : List Image}
    (held : Accounted s (item.image :: pending)) :
    Accounted (callInEncodeThread s item) pending := by
  obtain ⟨dropped, places, freed, cancelled⟩ := held.places
  constructor
  · exact held.numbered
  · refine ⟨dropped, List.Perm.trans ?_ places, freed, cancelled⟩
    apply List.Perm.append_left
    simp only [callInEncodeThread, WindowSource.handed, List.map_append, List.append_assoc]
    apply List.Perm.append_left
    apply List.Perm.append_left
    change (item.image :: (s.encodeQueue.map Item.image ++ pending)).Perm _
    exact List.perm_middle.symm

/-- An image is put in the queue. -/
theorem Accounted.enqueue {s : WindowSource} {item : Item} {pending : List Image}
    (held : Accounted s (item.image :: pending)) :
    Accounted { s with encodeQueue := s.encodeQueue ++ [item] } pending := by
  obtain ⟨dropped, places, freed, cancelled⟩ := held.places
  constructor
  · exact held.numbered
  · refine ⟨dropped, List.Perm.trans ?_ places, freed, cancelled⟩
    apply List.Perm.append_left
    simp [WindowSource.handed]

/-- The first of the queue is given to the encode thread. -/
theorem Accounted.dequeue {s : WindowSource} {item : Item} {items : List Item}
    {pending : List Image} (held : Accounted s pending) (first : s.encodeQueue = item :: items) :
    Accounted (callInEncodeThread { s with encodeQueue := items } item) pending := by
  obtain ⟨dropped, places, freed, cancelled⟩ := held.places
  constructor
  · exact held.numbered
  · refine ⟨dropped, List.Perm.trans ?_ places, freed, cancelled⟩
    simp [callInEncodeThread, WindowSource.handed, first]

/-- The queue is dropped. -/
theorem Accounted.drop {s : WindowSource} {limit : Nat} (held : Accounted s [])
    (all : ∀ image ∈ s.grabbed, image.sequence ≤ limit) :
    Accounted { s with
      damageCancelled := limit
      encodeQueue := []
      freed := s.freed ++ s.encodeQueue.map Item.image } [] := by
  obtain ⟨dropped, places, freed, _⟩ := held.places
  constructor
  · exact held.numbered
  · refine ⟨dropped ++ s.encodeQueue.map Item.image, List.Perm.trans ?_ places, ?_, ?_⟩
    · simp only [WindowSource.handed, List.map_append, List.append_nil, List.append_assoc]
      apply List.Perm.append_left
      exact List.perm_append_comm.trans (by simp)
    · dsimp only
      refine (freed.append_right _).trans ?_
      rw [List.append_assoc, List.append_assoc]
      exact List.perm_append_comm.append_left _
    · intro image member
      apply all image
      apply places.subset
      rcases List.mem_append.mp member with old | new
      · exact List.mem_append_left _ old
      · apply List.mem_append_right
        rw [List.append_nil, List.map_append]
        exact List.mem_append_right _ new

/-- The encode thread is done with the first of its queue. -/
theorem Accounted.take {s : WindowSource} {item : Item} {items encoded : List Item}
    (held : Accounted s []) (first : s.encodeWorkQueue = item :: items) :
    Accounted { s with
      encodeWorkQueue := items
      taken := s.taken ++ [item]
      encoded := encoded
      freed := s.freed ++ [item.image] } [] := by
  obtain ⟨dropped, places, freed, cancelled⟩ := held.places
  constructor
  · exact held.numbered
  · refine ⟨dropped, List.Perm.trans ?_ places, ?_, cancelled⟩
    · simp [WindowSource.handed, first]
    · simpa using freed.append_right [item.image]

/-! ### Their order -/

structure Ordered (s : WindowSource) (clock : Int) : Prop where
  known : ∀ image ∈ s.grabbed, image.sequence ≤ s.sequence
  labelled : ∀ item ∈ s.handed ++ s.encodeQueue, item.image.sequence = item.sequence
  ordered : (s.handed ++ s.encodeQueue).Pairwise fun a b => a.sequence ≤ b.sequence
  live : ∀ item ∈ s.encodeQueue, s.damageCancelled < item.sequence
  waited : s.encodeQueue.Pairwise fun a b => a.now ≤ b.now
  past : ∀ item ∈ s.encodeQueue, item.now ≤ clock

structure Holding (s : WindowSource) (clock : Int) (pending : List Image) : Prop where
  accounted : Accounted s pending
  order : Ordered s clock

namespace Holding

variable {s : WindowSource} {clock : Int} {pending : List Image}

theorem later {clock' : Int} (held : Holding s clock pending) (passed : clock ≤ clock') :
    Holding s clock' pending := by
  constructor
  · exact held.accounted
  · obtain ⟨known, labelled, ordered, live, waited, past⟩ := held.order
    exact ⟨known, labelled, ordered, live, waited,
      fun item member => Int.le_trans (past item member) passed⟩

theorem timer (held : Holding s clock pending) (due : Option Int) (timer : Nat)
    (timers : Sources Unit) :
    Holding { s with
      encodeFromQueueDue := due
      encodeFromQueueTimer := timer
      timers := timers } clock pending := by
  obtain ⟨⟨numbered, places⟩, known, labelled, ordered, live, waited, past⟩ := held
  exact ⟨⟨numbered, places⟩, known, labelled, ordered, live, waited, past⟩

theorem configure (held : Holding s clock pending) (settings : Settings) :
    Holding { s with settings := settings } clock pending := by
  obtain ⟨⟨numbered, places⟩, known, labelled, ordered, live, waited, past⟩ := held
  exact ⟨⟨numbered, places⟩, known, labelled, ordered, live, waited, past⟩

theorem nextSequence (held : Holding s clock pending) :
    Holding { s with sequence := s.sequence + 1 } clock pending := by
  obtain ⟨⟨numbered, places⟩, known, labelled, ordered, live, waited, past⟩ := held
  constructor
  · exact ⟨numbered, places⟩
  · refine ⟨?_, labelled, ordered, live, waited, past⟩
    intro image member
    exact Nat.le_succ_of_le (known image member)

theorem perm {pending' : List Image} (held : Holding s clock pending)
    (same : pending.Perm pending') : Holding s clock pending' :=
  ⟨held.accounted.perm same, held.order⟩

theorem newImage (held : Holding s clock pending) :
    Holding s.newImage.1 clock (pending ++ [s.newImage.2]) := by
  obtain ⟨known, labelled, ordered, live, waited, past⟩ := held.order
  constructor
  · exact held.accounted.newImage
  · refine ⟨?_, labelled, ordered, live, waited, past⟩
    intro image member
    rcases List.mem_append.mp member with old | new
    · exact known image old
    · rw [List.mem_singleton.mp new]
      exact Nat.le_refl _

theorem current (held : Holding s clock pending) (item : Item)
    (member : item ∈ s.handed ++ s.encodeQueue) : item.sequence ≤ s.sequence := by
  obtain ⟨dropped, places, _⟩ := held.accounted.places
  rw [← held.order.labelled item member]
  apply held.order.known
  apply places.subset
  apply List.mem_append_right
  apply List.mem_append_left
  exact List.mem_map_of_mem member

/-- A new frame is behind all that there are. -/
theorem behind {item : Item} (held : Holding s clock pending) (newest : item.sequence = s.sequence) :
    (s.handed ++ s.encodeQueue ++ [item]).Pairwise fun a b => a.sequence ≤ b.sequence := by
  rw [List.pairwise_append]
  refine ⟨held.order.ordered, List.pairwise_singleton _ _, ?_⟩
  intro a member b last
  rw [List.mem_singleton.mp last, newest]
  exact held.current a member

theorem label {item : Item} (held : Holding s clock pending)
    (labelled : item.image.sequence = item.sequence) :
    ∀ other ∈ s.handed ++ s.encodeQueue ++ [item], other.image.sequence = other.sequence := by
  intro other member
  rcases List.mem_append.mp member with old | new
  · exact held.order.labelled other old
  · rw [List.mem_singleton.mp new]
    exact labelled

/-- It may overtake nothing. -/
theorem hand {item : Item} (held : Holding s clock (item.image :: pending))
    (empty : s.encodeQueue = []) (labelled : item.image.sequence = item.sequence)
    (newest : item.sequence = s.sequence) :
    Holding (callInEncodeThread s item) clock pending := by
  have behind := held.behind newest
  have label := held.label labelled
  have moved : (callInEncodeThread s item).handed ++ (callInEncodeThread s item).encodeQueue =
      s.handed ++ s.encodeQueue ++ [item] := by
    simp [callInEncodeThread, WindowSource.handed, empty]
  constructor
  · exact held.accounted.hand
  · constructor
    · exact held.order.known
    · rw [moved]
      exact label
    · rw [moved]
      exact behind
    · exact held.order.live
    · exact held.order.waited
    · exact held.order.past

theorem enqueue {item : Item} (held : Holding s clock (item.image :: pending))
    (labelled : item.image.sequence = item.sequence) (newest : item.sequence = s.sequence)
    (live : s.damageCancelled < item.sequence) (now : item.now = clock) :
    Holding { s with encodeQueue := s.encodeQueue ++ [item] } clock pending := by
  have behind := held.behind newest
  have label := held.label labelled
  rw [List.append_assoc] at behind label
  constructor
  · exact held.accounted.enqueue
  · constructor
    · exact held.order.known
    · exact label
    · exact behind
    · intro other member
      rcases List.mem_append.mp member with old | new
      · exact held.order.live other old
      · rw [List.mem_singleton.mp new]
        exact live
    · apply List.pairwise_append.mpr
      refine ⟨held.order.waited, List.pairwise_singleton _ _, ?_⟩
      intro a member b last
      rw [List.mem_singleton.mp last, now]
      exact held.order.past a member
    · intro other member
      rcases List.mem_append.mp member with old | new
      · exact held.order.past other old
      · rw [List.mem_singleton.mp new]
        exact Int.le_of_eq now

theorem dequeue {item : Item} {items : List Item} (held : Holding s clock pending)
    (first : s.encodeQueue = item :: items) :
    Holding (callInEncodeThread { s with encodeQueue := items } item) clock pending := by
  obtain ⟨known, labelled, ordered, live, waited, past⟩ := held.order
  have moved : (callInEncodeThread { s with encodeQueue := items } item).handed ++ items =
      s.handed ++ s.encodeQueue := by
    simp [callInEncodeThread, WindowSource.handed, first]
  rw [first] at live waited past
  constructor
  · exact held.accounted.dequeue first
  · constructor
    · exact known
    · change ∀ other ∈ (callInEncodeThread { s with encodeQueue := items } item).handed ++ items, _
      rw [moved]
      exact labelled
    · change ((callInEncodeThread { s with encodeQueue := items } item).handed ++ items).Pairwise _
      rw [moved]
      exact ordered
    · exact (List.forall_mem_cons.mp live).2
    · exact (List.pairwise_cons.mp waited).2
    · exact (List.forall_mem_cons.mp past).2

theorem drop {limit : Nat} (held : Holding s clock []) (enough : s.sequence ≤ limit) :
    Holding { s with
      damageCancelled := limit
      encodeQueue := []
      freed := s.freed ++ s.encodeQueue.map Item.image } clock [] := by
  obtain ⟨known, labelled, ordered, live, waited, past⟩ := held.order
  constructor
  · apply held.accounted.drop
    intro image member
    exact Nat.le_trans (known image member) enough
  · constructor
    · exact known
    · intro item member
      rw [List.append_nil] at member
      exact labelled item (List.mem_append_left _ member)
    · change (s.handed ++ []).Pairwise _
      rw [List.append_nil]
      exact (List.pairwise_append.mp ordered).1
    · intro item member
      exact absurd member List.not_mem_nil
    · exact List.Pairwise.nil
    · intro item member
      exact absurd member List.not_mem_nil

theorem take {item : Item} {items encoded : List Item} (held : Holding s clock [])
    (first : s.encodeWorkQueue = item :: items) :
    Holding { s with
      encodeWorkQueue := items
      taken := s.taken ++ [item]
      encoded := encoded
      freed := s.freed ++ [item.image] } clock [] := by
  obtain ⟨known, labelled, ordered, live, waited, past⟩ := held.order
  have same : (s.taken ++ [item]) ++ items = s.handed := by
    rw [WindowSource.handed, first, List.append_assoc]
    rfl
  constructor
  · exact held.accounted.take first
  · constructor
    · exact known
    · change ∀ other ∈ (s.taken ++ [item]) ++ items ++ s.encodeQueue, _
      rw [same]
      exact labelled
    · change ((s.taken ++ [item]) ++ items ++ s.encodeQueue).Pairwise _
      rw [same]
      exact ordered
    · exact live
    · exact waited
    · exact past

end Holding

/-! ### The queue and its timer -/

structure Timed (s : WindowSource) : Prop where
  slots : s.timers.Slotted (fun _ => some ()) fun _ => s.encodeFromQueueTimer
  due : s.encodeFromQueueDue ≠ none → s.encodeFromQueueTimer ≠ 0

theorem update_unit (f : Unit → Nat) (n : Nat) : Function.update f () n = fun _ => n :=
  funext fun _ => Function.update_self () n f

theorem cancelEncodeFromQueue_timed (s : WindowSource) (timed : Timed s) :
    Timed (cancelEncodeFromQueue s) ∧ (cancelEncodeFromQueue s).encodeFromQueueTimer = 0 := by
  unfold cancelEncodeFromQueue
  dsimp only
  split
  next idle =>
    refine ⟨⟨timed.slots, ?_⟩, idle⟩
    intro due
    exact absurd rfl due
  next armed =>
    refine ⟨⟨?_, ?_⟩, rfl⟩
    · have released := timed.slots.release ()
      rw [update_unit] at released
      exact released
    · intro due
      exact absurd rfl due

theorem scheduleEncodeFromQueue_timed (s : WindowSource) (now avDelay : Int) (timed : Timed s) :
    Timed (scheduleEncodeFromQueue s now avDelay) ∧
      (scheduleEncodeFromQueue s now avDelay).encodeFromQueueTimer ≠ 0 := by
  unfold scheduleEncodeFromQueue
  dsimp only
  split
  next later =>
    obtain ⟨cancelled, free⟩ := cancelEncodeFromQueue_timed s timed
    have added : ((cancelEncodeFromQueue s).timers.add ()).Slotted (fun _ => some ())
        (Function.update _ () _) := cancelled.slots.arm rfl free
    rw [update_unit] at added
    have armed : (cancelEncodeFromQueue s).timers.next ≠ 0 :=
      Nat.ne_of_gt cancelled.slots.numbered
    exact ⟨⟨added, fun _ => armed⟩, armed⟩
  next sooner =>
    refine ⟨timed, timed.due ?_⟩
    intro idle
    simp [dueLater, idle] at sooner

theorem cancelEncodeFromQueue_timer (s : WindowSource) : ∃ due timer timers,
    cancelEncodeFromQueue s = { s with
      encodeFromQueueDue := due, encodeFromQueueTimer := timer, timers := timers } := by
  unfold cancelEncodeFromQueue
  dsimp only
  split
  · exact ⟨_, _, _, rfl⟩
  · exact ⟨_, _, _, rfl⟩

theorem scheduleEncodeFromQueue_timer (s : WindowSource) (now avDelay : Int) :
    ∃ due timer timers, scheduleEncodeFromQueue s now avDelay = { s with
      encodeFromQueueDue := due, encodeFromQueueTimer := timer, timers := timers } := by
  unfold scheduleEncodeFromQueue
  dsimp only
  split
  · obtain ⟨due, timer, timers, cancelled⟩ := cancelEncodeFromQueue_timer s
    rw [cancelled]
    exact ⟨_, _, _, rfl⟩
  · exact ⟨_, _, _, rfl⟩

/-- Between the steps of the main loop. -/
structure Queued (s : WindowSource) (clock : Int) (pending : List Image) : Prop where
  holding : Holding s clock pending
  timed : Timed s
  armed : s.encodeQueue ≠ [] → s.encodeFromQueueTimer ≠ 0

theorem Queued.schedule {s : WindowSource} {clock : Int} {pending : List Image}
    (holding : Holding s clock pending) (timed : Timed s) (now avDelay : Int) :
    Queued (scheduleEncodeFromQueue s now avDelay) clock pending := by
  obtain ⟨timed, armed⟩ := scheduleEncodeFromQueue_timed s now avDelay timed
  constructor
  · obtain ⟨due, timer, timers, scheduled⟩ := scheduleEncodeFromQueue_timer s now avDelay
    rw [scheduled]
    exact holding.timer due timer timers
  · exact timed
  · intro _
    exact armed

/-- Without a cancelled item, nothing but the first that is due leaves the queue. -/
theorem scanQueue_waits (cancelled : Nat) (avDelay now : Int) (items : List Item) (index : Nat)
    (found : Scan) (live : ∀ item ∈ items, cancelled < item.sequence)
    (waits : found.donePacket = true ∨ ∀ item ∈ items, ¬item.now + avDelay ≤ now) :
    scanQueue cancelled avDelay now items index found =
      { found with stillDue := found.stillDue ++ items.map fun item => item.now + avDelay - now } := by
  induction items generalizing index found with
  | nil => simp [scanQueue]
  | cons item items ih =>
      obtain ⟨first, others⟩ := List.forall_mem_cons.mp live
      have stays : ¬(item.now + avDelay ≤ now ∧ found.donePacket = false) := by
        rintro ⟨due, ready⟩
        rcases waits with done | early
        · rw [ready] at done
          cases done
        · exact early item List.mem_cons_self due
      rw [scanQueue, if_neg (Nat.not_le_of_lt first), if_neg stays, ih]
      · simp
      · exact others
      · rcases waits with done | early
        · exact .inl done
        · exact .inr (List.forall_mem_cons.mp early).2

theorem scanQueue_due (cancelled : Nat) (avDelay now : Int) (item : Item) (items : List Item)
    (live : ∀ other ∈ item :: items, cancelled < other.sequence) (due : item.now + avDelay ≤ now) :
    scanQueue cancelled avDelay now (item :: items) 0 {} =
      { stillDue := items.map fun item => item.now + avDelay - now
        remove := [0], donePacket := true, encoded := [item] } := by
  obtain ⟨first, others⟩ := List.forall_mem_cons.mp live
  rw [scanQueue, if_neg (Nat.not_le_of_lt first), if_pos ⟨due, rfl⟩,
    scanQueue_waits _ _ _ _ _ _ others (.inl rfl)]
  rfl

/-- The items are in the order of their times, so none is due before the first one. -/
theorem scanQueue_early (cancelled : Nat) (avDelay now : Int) (item : Item) (items : List Item)
    (live : ∀ other ∈ item :: items, cancelled < other.sequence)
    (waited : (item :: items).Pairwise fun a b => a.now ≤ b.now)
    (early : ¬item.now + avDelay ≤ now) :
    scanQueue cancelled avDelay now (item :: items) 0 {} =
      { stillDue := (item :: items).map fun item => item.now + avDelay - now } := by
  rw [scanQueue_waits _ _ _ _ _ _ live]
  · rfl
  · right
    intro other member due
    rcases List.mem_cons.mp member with rfl | after
    · exact early due
    · have order := (List.pairwise_cons.mp waited).1 other after
      omega

theorem Queued.rescheduled {s : WindowSource} {clock : Int} {items : List Item} (avDelay : Int)
    (holding : Holding s clock []) (timed : Timed s) (queue : s.encodeQueue = items) :
    Queued (match (items.map fun item => item.now + avDelay - clock).min? with
      | none => s
      | some first => scheduleEncodeFromQueue s clock (max s.settings.encodeQueueMinGap first))
      clock [] := by
  cases first : (items.map fun item => item.now + avDelay - clock).min? with
  | none =>
      rw [List.min?_eq_none_iff, List.map_eq_nil_iff] at first
      exact ⟨holding, timed, fun some => absurd (queue.trans first) some⟩
  | some first => exact .schedule holding timed _ _

theorem updateAvSyncDelay_settings (s : WindowSource) :
    ∃ settings, updateAvSyncDelay s = { s with settings := settings } := by
  unfold updateAvSyncDelay
  dsimp only
  split
  · exact ⟨s.settings, rfl⟩
  · exact ⟨_, rfl⟩

theorem encodeFromQueue_queued {s : WindowSource} {now : Int} (holding : Holding s now [])
    (timed : Timed s) : Queued (encodeFromQueue s now) now [] := by
  unfold encodeFromQueue
  split
  next empty => exact ⟨holding, timed, fun some => absurd empty some⟩
  next some =>
    obtain ⟨settings, updated⟩ := updateAvSyncDelay_settings s
    have holding := holding.configure settings
    have timed : Timed { s with settings := settings } := ⟨timed.slots, timed.due⟩
    rw [updated]
    change ({ s with settings := settings } : WindowSource).encodeQueue ≠ [] at some
    generalize { s with settings := settings } = s at holding timed some
    dsimp only
    cases queue : s.encodeQueue with
    | nil => exact absurd queue some
    | cons item items =>
        obtain ⟨_, _, _, live, waited, _⟩ := holding.order
        rw [queue] at live waited
        by_cases due : item.now + queueAvDelay s ≤ now
        · rw [scanQueue_due _ _ _ _ _ live due]
          have moved : Holding (callInEncodeThread { s with encodeQueue := items } item) now [] :=
            holding.dequeue queue
          exact .rescheduled _ moved ⟨timed.slots, timed.due⟩ rfl
        · rw [scanQueue_early _ _ _ _ _ live waited due]
          have kept : Holding { s with encodeQueue := item :: items } now [] := by
            rw [← queue]
            exact holding
          exact .rescheduled _ kept ⟨timed.slots, timed.due⟩ rfl

theorem cancelDamage_queued {s : WindowSource} {clock : Int} (queued : Queued s clock [])
    (limit : Nat) (enough : limit = 0 ∨ s.sequence ≤ limit) :
    Queued (cancelDamage s limit) clock [] := by
  have below : s.sequence ≤ if limit = 0 then s.sequence else limit := by
    rcases enough with zero | enough
    · rw [if_pos zero]
    · split
      · exact Nat.le_refl _
      · exact enough
  unfold cancelDamage
  generalize (if limit = 0 then s.sequence else limit) = limit at below
  have timed : Timed { s with damageCancelled := limit } := ⟨queued.timed.slots, queued.timed.due⟩
  obtain ⟨timed, _⟩ := cancelEncodeFromQueue_timed _ timed
  obtain ⟨due, timer, timers, cancelled⟩ :=
    cancelEncodeFromQueue_timer { s with damageCancelled := limit }
  have fresh : (s.freed ++ s.encodeQueue.map Item.image).Nodup := by
    have apart := queued.holding.accounted.apart
    rw [List.append_nil, List.map_append] at apart
    exact ((List.sublist_append_right _ _).append_left _).nodup apart
  rw [freeEncodeQueueImages_ok (by rw [cancelled]; exact fresh)]
  constructor
  · rw [cancelled]
    exact (queued.holding.drop below).timer due timer timers
  · exact ⟨timed.slots, timed.due⟩
  · intro some
    exact absurd rfl some

theorem encodeLoop_queued {s : WindowSource} {clock : Int} (queued : Queued s clock []) :
    Queued (encodeLoop s) clock [] := by
  unfold encodeLoop
  split
  next => exact queued
  next item items first =>
    have fresh : item.image ∉ s.freed := by
      intro old
      have apart := queued.holding.accounted.apart
      rw [first, List.nodup_append] at apart
      exact apart.2.2 _ old item.image (by simp) rfl
    obtain ⟨encoded, done, _⟩ := makeDataPacketCb_ok
      (s := { s with encodeWorkQueue := items, taken := s.taken ++ [item] }) fresh
    rw [done]
    constructor
    · exact queued.holding.take first
    · exact ⟨queued.timed.slots, queued.timed.due⟩
    · exact queued.armed

/-! ### Regions -/

/-- What `call_encode` relies on for a region of the last frame that was grabbed. -/
structure Sends (s : WindowSource) (avDelay : Int) : Prop where
  live : s.damageCancelled < s.sequence
  empty : avDelay ≤ 0 → s.encodeQueue = []

theorem callEncode_queued {s : WindowSource} {now avDelay : Int} {region : Region}
    {pending : List Image} (queued : Queued s now (region.image :: pending))
    (sends : Sends s avDelay) (last : region.image.sequence = s.sequence) (damageTime : Int)
    (flush : Nat) :
    Queued (callEncode s now damageTime avDelay s.sequence region flush) now pending ∧
      Sends (callEncode s now damageTime avDelay s.sequence region flush) avDelay ∧
      (callEncode s now damageTime avDelay s.sequence region flush).sequence = s.sequence := by
  have current : ¬s.isCancelled s.sequence = true := by
    simpa [WindowSource.isCancelled] using sends.live
  unfold callEncode
  rw [if_neg current]
  dsimp only
  split
  next direct =>
    refine ⟨⟨?_, ?_, ?_⟩, ?_, rfl⟩
    · exact queued.holding.hand (sends.empty direct) last rfl
    · exact ⟨queued.timed.slots, queued.timed.due⟩
    · exact queued.armed
    · exact ⟨sends.live, sends.empty⟩
  next delayed =>
    let item : Item := ⟨region.width, region.height, damageTime, now, region.image, region.encoding,
      s.sequence, flush⟩
    have holding : Holding { s with encodeQueue := s.encodeQueue ++ [item] } now pending :=
      queued.holding.enqueue last rfl sends.live rfl
    refine ⟨.schedule holding ⟨queued.timed.slots, queued.timed.due⟩ now avDelay, ?_⟩
    obtain ⟨due, timer, timers, scheduled⟩ :=
      scheduleEncodeFromQueue_timer { s with encodeQueue := s.encodeQueue ++ [item] } now avDelay
    rw [scheduled]
    refine ⟨⟨sends.live, ?_⟩, rfl⟩
    intro direct
    exact absurd direct delayed

/-- One region after the other, in the same sequence. -/
theorem callEncodes_queued {s : WindowSource} {now avDelay : Int} {regions : List Region}
    (queued : Queued s now (regions.map Region.image)) (sends : Sends s avDelay)
    (last : ∀ region ∈ regions, region.image.sequence = s.sequence) (damageTime : Int)
    (flush : Nat) :
    Queued (callEncodes now damageTime avDelay s.sequence s regions flush) now [] := by
  induction regions generalizing s flush with
  | nil => exact queued
  | cons region regions ih =>
      obtain ⟨first, others⟩ := List.forall_mem_cons.mp last
      obtain ⟨queued, sends, same⟩ := callEncode_queued queued sends first damageTime flush
      have done := ih queued sends (fun region member => (others region member).trans same.symm)
        (flush - 1)
      rw [same] at done
      exact done

/-- The regions have the frame and the images cut from it, and nothing but images is new. -/
structure Splits (s : WindowSource) (now : Int) (result : WindowSource × List Image) : Prop where
  holding : Holding result.1 now result.2
  last : ∀ image ∈ result.2, image.sequence = s.sequence
  rest : ∃ grabbed, result.1 = { s with grabbed := grabbed }

theorem Splits.newImage {s s' : WindowSource} {now : Int} {images : List Image}
    (split : Splits s now (s', images)) :
    Splits s now (s'.newImage.1, images ++ [s'.newImage.2]) := by
  obtain ⟨holding, last, grabbed, rest⟩ := split
  change s' = _ at rest
  refine ⟨holding.newImage, ?_, ?_⟩
  · intro image member
    rcases List.mem_append.mp member with old | new
    · exact last image old
    · rw [List.mem_singleton.mp new]
      have same : s'.sequence = s.sequence := by rw [rest]
      exact same
  · subst rest
    exact ⟨_, rfl⟩

theorem Splits.perm {s s' : WindowSource} {now : Int} {images images' : List Image}
    (split : Splits s now (s', images)) (same : images.Perm images') :
    Splits s now (s', images') := by
  refine ⟨split.holding.perm same, ?_, split.rest⟩
  intro image member
  exact split.last image (same.symm.subset member)

/-- The frame itself is for something once the masks are applied: for the main area, or for the only
edge there is, unless that is another image. -/
def WindowSource.covers (s : WindowSource) (coding : String) (copies : Bool)
    (width height : Nat) : Prop :=
  let w := width &&& s.settings.widthMask
  let h := height &&& s.settings.heightMask
  0 < w ∧ 0 < h ∨ copies = false ∧ s.sendsEdges coding = true ∧ (0 < w ∨ 0 < h)

theorem rightEdge_splits {s s' : WindowSource} {now : Int} {images : List Image} (wrapper : Wrapper)
    (w h : Nat) (some : 0 < w) (split : Splits s now (s', images)) :
    Splits s now ((rightEdge s' wrapper w h).1,
      images ++ (rightEdge s' wrapper w h).2.map Region.image) := by
  unfold rightEdge
  split
  · have cut : getSubImage s' wrapper w 0 (wrapper.width - w) wrapper.height = s'.newImage :=
      if_neg fun whole => Nat.ne_of_gt some whole.2.1
    rw [cut]
    exact split.newImage
  · simpa using split

theorem bottomEdge_splits {s s' : WindowSource} {now : Int} {images : List Image}
    (wrapper : Wrapper) (w h : Nat) (some : 0 < h) (split : Splits s now (s', images)) :
    Splits s now ((bottomEdge s' wrapper w h).1,
      images ++ (bottomEdge s' wrapper w h).2.map Region.image) := by
  unfold bottomEdge
  split
  · have cut : getSubImage s' wrapper 0 h wrapper.width (wrapper.height - h) = s'.newImage :=
      if_neg fun whole => Nat.ne_of_gt some whole.2.2.1
    rw [cut]
    exact split.newImage
  · simpa using split

/-- Where one of the masks leaves nothing, the edge is the frame itself. -/
theorem splitRegion_splits {s : WindowSource} {now : Int} {wrapper : Wrapper} {coding : String}
    (split : Splits s now (s, [wrapper.image])) (wide : 0 < wrapper.width)
    (high : 0 < wrapper.height)
    (covers : s.covers coding wrapper.copies wrapper.width wrapper.height) :
    Splits s now ((splitRegion s wrapper coding).1,
      (splitRegion s wrapper coding).2.map Region.image) := by
  unfold WindowSource.covers at covers
  unfold splitRegion
  generalize wrapper.width &&& s.settings.widthMask = w at covers ⊢
  generalize wrapper.height &&& s.settings.heightMask = h at covers ⊢
  dsimp only at covers ⊢
  by_cases both : 0 < w ∧ 0 < h
  · rw [if_pos both]
    split
    · have right := rightEdge_splits wrapper w h both.1 split
      have bottom := bottomEdge_splits wrapper w h both.2 right
      apply bottom.perm
      simp only [List.map_append, List.map_cons, List.map_nil]
      rw [List.append_assoc]
      exact List.perm_append_comm
    · exact split
  · rcases covers with whole | ⟨same, edges, some⟩
    · exact absurd whole both
    · rw [if_neg both, if_pos edges]
      rcases some with left | above
      · have flat : h = 0 := by omega
        have right : rightEdge s wrapper w h = (s, []) :=
          if_neg fun inside => by omega
        have bottom : (bottomEdge s wrapper w h).1 = s ∧
            (bottomEdge s wrapper w h).2.map Region.image = [wrapper.image] := by
          rw [bottomEdge, if_pos ⟨by omega, left⟩, getSubImage,
            if_pos ⟨same, rfl, flat, rfl, by omega⟩]
          exact ⟨rfl, rfl⟩
        rw [right]
        dsimp only
        rw [List.nil_append, List.append_nil, bottom.1, bottom.2]
        exact split
      · have thin : w = 0 := by omega
        have right : (rightEdge s wrapper w h).1 = s ∧
            (rightEdge s wrapper w h).2.map Region.image = [wrapper.image] := by
          rw [rightEdge, if_pos ⟨by omega, above⟩, getSubImage,
            if_pos ⟨same, thin, rfl, by omega, rfl⟩]
          exact ⟨rfl, rfl⟩
        have bottom : bottomEdge s wrapper w h = (s, []) :=
          if_neg fun inside => by omega
        rw [right.1, bottom]
        dsimp only
        rw [List.append_nil, List.append_nil, right.2]
        exact split

/-- Whether the window gives an image. -/
def WindowSource.grabs (s : WindowSource) (width height : Nat) : Prop :=
  ¬s.isCancelled (s.sequence + 1) = true ∧ width ≠ 0 ∧ height ≠ 0

/-- The regions that keep the order: the frame is used for one of them at least, and does not go to
the encode thread while others wait. -/
def KeepsOrder (s : WindowSource) (coding : String) (avDelay : Int) : Grab → Prop
  | .refused | .nodata => True
  | .image copies width height => s.grabs width height →
      s.covers coding copies width height ∧ (avDelay ≤ 0 → s.encodeQueue = [])

theorem processDamageRegion_queued {s : WindowSource} {now : Int} (queued : Queued s now [])
    (grab : Grab) (coding : String) (avDelay : Int) (keeps : KeepsOrder s coding avDelay grab)
    (damageTime : Int) (flush : Nat) :
    Queued (processDamageRegion s now damageTime grab coding avDelay flush).1 now [] := by
  have nodata : Queued { s with sequence := s.sequence + 1 } now [] := by
    constructor
    · exact queued.holding.nextSequence
    · exact ⟨queued.timed.slots, queued.timed.due⟩
    · exact queued.armed
  unfold processDamageRegion
  cases grab with
  | refused => exact queued
  | nodata => exact nodata
  | image copies width height =>
      unfold getDamageImage
      dsimp only
      by_cases nothing :
          WindowSource.isCancelled { s with sequence := s.sequence + 1 } (s.sequence + 1) = true ∨
            width = 0 ∨ height = 0
      · rw [if_pos nothing]
        exact nodata
      · rw [if_neg nothing]
        rw [not_or, not_or] at nothing
        obtain ⟨current, wide, high⟩ := nothing
        obtain ⟨covers, empty⟩ := keeps ⟨current, wide, high⟩
        let grabbed : WindowSource × Image :=
          WindowSource.newImage { s with sequence := s.sequence + 1 }
        have start : Splits grabbed.1 now (grabbed.1, [grabbed.2]) := by
          constructor
          · exact nodata.holding.newImage
          · intro image member
            rw [List.mem_singleton.mp member]
            rfl
          · exact ⟨grabbed.1.grabbed, rfl⟩
        let wrapper : Wrapper := ⟨grabbed.2, copies, width, height⟩
        have split : Splits grabbed.1 now ((splitRegion grabbed.1 wrapper coding).1,
            (splitRegion grabbed.1 wrapper coding).2.map Region.image) :=
          splitRegion_splits start (Nat.pos_of_ne_zero wide) (Nat.pos_of_ne_zero high) covers
        change Queued (callEncodes now damageTime avDelay grabbed.1.sequence
          (splitRegion grabbed.1 wrapper coding).1
          (splitRegion grabbed.1 wrapper coding).2 _) now []
        generalize splitRegion grabbed.1 wrapper coding = result at split ⊢
        obtain ⟨s', regions⟩ := result
        obtain ⟨holding, last, others, rest⟩ := split
        change s' = _ at rest
        have same : s'.sequence = grabbed.1.sequence := by rw [rest]
        rw [← same]
        apply callEncodes_queued
        · refine ⟨holding, ?_, ?_⟩
          · rw [rest]
            exact ⟨queued.timed.slots, queued.timed.due⟩
          · rw [rest]
            exact queued.armed
        · constructor
          · rw [rest]
            change s.damageCancelled < s.sequence + 1
            simpa [WindowSource.isCancelled] using current
          · intro direct
            rw [rest]
            exact empty direct
        · intro region member
          rw [same]
          exact last region.image (List.mem_map_of_mem member)

/-! ### Runs -/

inductive Action
  | region (now damageTime : Int) (grab : Grab) (coding : String) (avDelay : Int) (flush : Nat)
  | timerEncodeFromQueue (now : Int)
  | encodeLoop
  | cancelDamage (limit : Nat)
  | updateAvSyncDelay
  | configure (settings : Settings)

/-- The window source, and the time of the last step. -/
inductive Step : WindowSource × Int → Action → WindowSource × Int → Prop
  | region {s : WindowSource} {clock : Int} (now damageTime : Int) (grab : Grab) (coding : String)
      (avDelay : Int) (flush : Nat) (passed : clock ≤ now) :
      Step (s, clock) (.region now damageTime grab coding avDelay flush)
        ((processDamageRegion s now damageTime grab coding avDelay flush).1, now)
  | timer {s : WindowSource} {clock : Int} (now : Int) (source : Nat)
      (armed : (source, ()) ∈ s.timers.sources) (passed : clock ≤ now) :
      Step (s, clock) (.timerEncodeFromQueue now)
        (timerEncodeFromQueue { s with timers := s.timers.remove source } now, now)
  | encodeLoop {s : WindowSource} {clock : Int} : Step (s, clock) .encodeLoop (encodeLoop s, clock)
  /-- a limit is a bound on all sequences -/
  | cancelDamage {s : WindowSource} {clock : Int} (limit : Nat)
      (enough : limit = 0 ∨ s.sequence ≤ limit) :
      Step (s, clock) (.cancelDamage limit) (cancelDamage s limit, clock)
  | updateAvSyncDelay {s : WindowSource} {clock : Int} :
      Step (s, clock) .updateAvSyncDelay (updateAvSyncDelay s, clock)
  | configure {s : WindowSource} {clock : Int} (settings : Settings) :
      Step (s, clock) (.configure settings) ({ s with settings := settings }, clock)

inductive Starts : WindowSource × Int → Prop
  | start (settings : Settings) (clock : Int) : Starts ({ settings := settings }, clock)

/-- A step whose regions keep the order. -/
def OrderlyStep (run : WindowSource × Int) (action : Action) (run' : WindowSource × Int) : Prop :=
  Step run action run' ∧
    ∀ now damageTime grab coding avDelay flush,
      action = .region now damageTime grab coding avDelay flush →
        KeepsOrder run.1 coding avDelay grab

theorem queued_start (settings : Settings) (clock : Int) :
    Queued { settings := settings } clock [] := by
  constructor
  · constructor
    · constructor
      · rfl
      · exact ⟨[], by simp [WindowSource.handed], by simp, by simp⟩
    · constructor <;> simp [WindowSource.handed]
  · exact ⟨Sources.Slotted.start, fun due => absurd rfl due⟩
  · intro some
    exact absurd rfl some

theorem step_queued {run run' : WindowSource × Int} {action : Action}
    (queued : Queued run.1 run.2 []) (taken : OrderlyStep run action run') :
    Queued run'.1 run'.2 [] := by
  obtain ⟨taken, orderly⟩ := taken
  have later : ∀ now, run.2 ≤ now → Queued run.1 now [] := fun now passed =>
    ⟨queued.holding.later passed, queued.timed, queued.armed⟩
  cases taken with
  | region now damageTime grab coding avDelay flush passed =>
      exact processDamageRegion_queued (later now passed) grab coding avDelay
        (orderly now damageTime grab coding avDelay flush rfl) damageTime flush
  | timer now source armed passed =>
      rename_i s clock
      have queued := later now passed
      obtain ⟨own, _⟩ := queued.timed.slots.only source () () armed rfl
      have released := queued.timed.slots.release ()
      rw [update_unit] at released
      apply encodeFromQueue_queued
      · exact queued.holding.timer _ _ _
      · refine ⟨?_, fun due => absurd rfl due⟩
        rw [own]
        exact released
  | encodeLoop => exact encodeLoop_queued queued
  | cancelDamage limit enough => exact cancelDamage_queued queued limit enough
  | updateAvSyncDelay =>
      rename_i s clock
      obtain ⟨settings, updated⟩ := updateAvSyncDelay_settings s
      dsimp only
      rw [updated]
      exact ⟨queued.holding.configure settings, ⟨queued.timed.slots, queued.timed.due⟩,
        queued.armed⟩
  | configure settings =>
      exact ⟨queued.holding.configure settings, ⟨queued.timed.slots, queued.timed.due⟩,
        queued.armed⟩

theorem reachable_queued {run : WindowSource × Int} (reachable : Reachable Starts OrderlyStep run) :
    Queued run.1 run.2 [] := by
  have starts : ∀ run, Starts run → Queued run.1 run.2 [] := by
    rintro run ⟨settings, clock⟩
    exact queued_start settings clock
  have kept : ∀ run action run', Queued run.1 run.2 [] → OrderlyStep run action run' →
      Queued run'.1 run'.2 [] := by
    intro run action run' queued taken
    exact step_queued queued taken
  exact reachable.invariant starts kept

/-- Every image that is not cancelled is given to the encode thread in its turn, or waits for it with
a timer; those that are cancelled are freed, at the latest when the encode thread comes to them. -/
structure InGrabOrder (s : WindowSource) : Prop where
  ordered : s.handed.Pairwise fun a b => a.image.sequence ≤ b.image.sequence
  distinct : ((s.handed ++ s.encodeQueue).map Item.image).Nodup
  kept : ∀ image ∈ s.grabbed, s.damageCancelled < image.sequence →
    image ∈ (s.handed ++ s.encodeQueue).map Item.image
  waiting : ∀ item ∈ s.encodeQueue, s.damageCancelled < item.image.sequence
  cancelled : ∀ image ∈ s.grabbed, image.sequence ≤ s.damageCancelled →
    image ∈ s.freed ∨ image ∈ s.encodeWorkQueue.map Item.image
  skipped : ∀ item items, s.encodeWorkQueue = item :: items →
    item.image.sequence ≤ s.damageCancelled →
      (encodeLoop s).encoded = s.encoded ∧ (encodeLoop s).freed = s.freed ++ [item.image]
  freed : (s.freed ++ (s.encodeWorkQueue ++ s.encodeQueue).map Item.image).Nodup
  armed : s.encodeQueue ≠ [] → (s.encodeFromQueueTimer, ()) ∈ s.timers.sources

theorem frames_in_grab_order (run : WindowSource × Int)
    (reachable : Reachable Starts OrderlyStep run) : InGrabOrder run.1 := by
  obtain ⟨s, clock⟩ := run
  have queued : Queued s clock [] := reachable_queued reachable
  dsimp only
  have held := queued.holding.accounted
  have order := queued.holding.order
  obtain ⟨dropped, places, freed, old⟩ := held.places
  have apart := held.apart
  rw [List.append_nil] at places apart
  constructor
  · have sorted := (List.pairwise_append.mp order.ordered).1
    apply sorted.imp_of_mem
    intro a b first second le
    rw [order.labelled a (List.mem_append_left _ first),
      order.labelled b (List.mem_append_left _ second)]
    exact le
  · have distinct := places.nodup_iff.mpr held.distinct
    exact (List.nodup_append.mp distinct).2.1
  · intro image member live
    rcases List.mem_append.mp (places.symm.subset member) with gone | here
    · exact absurd (old image gone) (Nat.not_le_of_lt live)
    · exact here
  · intro item member
    rw [order.labelled item (List.mem_append_right _ member)]
    exact order.live item member
  · intro image member cancelled
    rcases List.mem_append.mp (places.symm.subset member) with gone | here
    · exact .inl (freed.symm.subset (List.mem_append_left _ gone))
    · obtain ⟨item, there, rfl⟩ := List.mem_map.mp here
      rcases List.mem_append.mp there with given | waits
      · rcases List.mem_append.mp given with taken | work
        · left
          apply freed.symm.subset
          exact List.mem_append_right _ (List.mem_map_of_mem taken)
        · exact .inr (List.mem_map_of_mem work)
      · have live := order.live item waits
        rw [order.labelled item there] at cancelled
        exact absurd cancelled (Nat.not_le_of_lt live)
  · intro item items first cancelled
    have there : item ∈ s.handed ++ s.encodeQueue := by
      rw [WindowSource.handed, first]
      simp
    have fresh : item.image ∉ s.freed := by
      intro before
      rw [first, List.nodup_append] at apart
      exact apart.2.2 _ before item.image (by simp) rfl
    obtain ⟨encoded, done, skips | ⟨live, _⟩⟩ := makeDataPacketCb_ok
      (s := { s with encodeWorkQueue := items, taken := s.taken ++ [item] }) fresh
    · have taken : encodeLoop s = makeDataPacketCb
          { s with encodeWorkQueue := items, taken := s.taken ++ [item] } item := by
        rw [encodeLoop, first]
      rw [taken, done, skips]
      exact ⟨rfl, rfl⟩
    · rw [order.labelled item there] at cancelled
      exact absurd cancelled (Nat.not_le_of_lt live)
  · exact apart
  · intro some
    obtain ⟨callback, _, member⟩ := queued.timed.slots.armed () (queued.armed some)
    exact member

/-- A large window whose frames wait for the sound. -/
def delayedWindow : WindowSource where
  settings :=
    { widthMask := 0xffff, heightMask := 0xffff
      commonVideoEncodings := [], edgeEncoding := ""
      avSync := true, avSyncDelay := 100, avSyncDelayTarget := 100
      contentType := "audio", encodeQueueMaxSize := 2, forceAvDelay := -1
      avSyncDefault := false, avSyncRateChange := 20, encodeQueueMinGap := 5 }

def nextFrame (s : WindowSource) (now : Int) : WindowSource :=
  (processDamageRegion s now now (.image true 64 64) "rgb24" (getFrameEncodeDelay s none) 0).1

theorem frames_in_grab_order_delayed :
    InGrabOrder (nextFrame delayedWindow 1) := by
  apply frames_in_grab_order (nextFrame delayedWindow 1, 1)
  have start : Reachable Starts OrderlyStep (delayedWindow, 0) := .start (.start _ 0)
  apply start.next (a := .region 1 1 (.image true 64 64) "rgb24" (getFrameEncodeDelay delayedWindow none) 0)
  constructor
  · exact .region 1 1 _ _ _ _ (by decide)
  · rintro _ _ _ _ _ _ ⟨⟩ _
    exact ⟨.inl (by decide), by decide⟩

def thirdFrame : WindowSource := nextFrame (nextFrame (nextFrame delayedWindow 1) 2) 3

/-- With a full queue the third frame is not delayed, and the first one follows it. -/
theorem not_frames_in_grab_order :
    ¬∀ run, Reachable Starts Step run → InGrabOrder run.1 := by
  intro ordered
  have start : Reachable Starts Step (delayedWindow, 0) := .start (.start _ 0)
  have first : Reachable Starts Step (nextFrame delayedWindow 1, 1) :=
    start.next (.region 1 1 _ _ _ _ (by decide))
  have second : Reachable Starts Step (nextFrame (nextFrame delayedWindow 1) 2, 2) :=
    first.next (.region 2 2 _ _ _ _ (by decide))
  have third : Reachable Starts Step (thirdFrame, 3) := second.next (.region 3 3 _ _ _ _ (by decide))
  have fired := third.next (.timer 103 1 (by decide) (by decide))
  have sorted := List.pairwise_map.mpr (ordered _ fired).ordered
  have overtaken : (timerEncodeFromQueue { thirdFrame with
      timers := thirdFrame.timers.remove 1 } 103).handed.map (fun item => item.image.sequence) =
        [4, 2] := by decide
  rw [overtaken] at sorted
  exact absurd sorted (by decide)

end Catlink.EncodeQueue
