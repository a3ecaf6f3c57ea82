import Catlink.Lib.Runs
import Catlink.Window.ScrollShown

/-! Scroll detection while the UI thread queues and cancels the images of the window. -/

namespace Catlink.ScrollEncode

open Runs Window Client

variable {C : Type} {xxh3 : Bytes → UInt64} {look : String → Bytes → C}

/-! ### What the encode thread leaves alone -/

theorem drawRegion_size (backing : Backing C) (draw : Draw C) : (backing.drawRegion draw).size = backing.size := by
  unfold Backing.drawRegion
  split
  · rfl
  · split
    · rfl
    · rfl

theorem makeDrawPacket_kept (s : WindowVideoSource C) (x y : Int) (w h : Nat) (coding : String)
    (body : Body C) (scaled : Bool) (quality : Option Int) (flush : Int) (options : Options) :
    Kept s (makeDrawPacket s x y w h coding body scaled quality flush options).1 := by
  unfold makeDrawPacket
  dsimp only
  split
  · exact .refl s
  · split
    · exact .refl s
    · split
      · exact ⟨rfl, rfl, rfl, rfl, rfl, rfl, rfl, rfl⟩
      · exact ⟨rfl, rfl, rfl, rfl, rfl, rfl, rfl, rfl⟩

theorem queueDamagePacket_kept (s : WindowVideoSource C) (packet : Draw C) :
    Kept s (queueDamagePacket s packet) :=
  ⟨rfl, rfl, rfl, rfl, rfl, rfl, rfl, drawRegion_size _ _⟩

theorem sendPicture_keeps (s : WindowVideoSource C) (image : Frame) (ret : Encoded C) (flush : Int)
    (options : Options) : Kept s (sendPicture s image ret flush options) :=
  (makeDrawPacket_kept s _ _ _ _ _ _ _ _ _ _).trans (queueDamagePacket_kept _ _)

theorem sendScrolls_kept (s : WindowVideoSource C) (image : Frame) (scrolls : List Scroll) (flush : Int)
    (options : Options) : Kept s (sendScrolls s image scrolls flush options) := by
  unfold sendScrolls
  split
  · exact .refl s
  · exact (makeDrawPacket_kept s _ _ _ _ _ _ _ _ _ _).trans (queueDamagePacket_kept _ _)

theorem sendRest_kept (env : Env C) (image : Frame) (options : Options) (s : WindowVideoSource C)
    (lines : Lines) (flush : Int) : Kept s (sendRest env image options s lines flush).1 := by
  induction lines generalizing s flush with
  | nil => exact .refl s
  | cons line lines ih =>
      unfold sendRest
      split
      · exact .refl s
      · dsimp only
        split
        · exact .refl s
        · split
          · exact .refl s
          · split
            · exact .refl s
            · exact .refl s
            · split
              · exact .refl s
              · exact (sendPicture_keeps s _ _ _ _).trans (ih _ _)

theorem Kept.timed {s s' : WindowVideoSource C} (kept : Kept s s') (now : Int) :
    Kept s { s' with lastScrollTime := now } := by
  obtain ⟨dimensions, sequence, cancelled, suspended, todo, queue, current, size⟩ := kept
  exact ⟨dimensions, sequence, cancelled, suspended, todo, queue, current, size⟩

theorem doFreeScrollData_kept (s : WindowVideoSource C) : Kept s (doFreeScrollData s) :=
  ⟨rfl, rfl, rfl, rfl, rfl, rfl, rfl, rfl⟩

theorem encodeScrolling_kept {env : Env C} {s : WindowVideoSource C} {sd : ScrollData} {image : Frame}
    {options : Options} {matchPct : Int} {maxZones : Nat} {outcome : Outcome C Unit}
    (ends : encodeScrolling env s sd image options matchPct maxZones = some outcome) :
    Kept s outcome.source := by
  unfold encodeScrolling at ends
  split at ends
  · cases ends
  · cases ends
    exact .refl s
  · dsimp only at ends
    split at ends
    · cases ends
      exact .refl s
    · rename_i raw nonScroll _ _ scrolls _
      have sent := (sendScrolls_kept s image scrolls nonScroll.length options).trans
        (sendRest_kept env image
          (if nonScroll = [] then options else boostQuality env options matchPct) _ nonScroll nonScroll.length)
      split at ends
      · rename_i same
        cases ends
        rwa [same] at sent
      · rename_i same
        cases ends
        rwa [same] at sent
      · rename_i same
        rw [same] at sent
        split at ends
        · cases ends
          exact sent
        · cases ends
          exact sent.timed env.now

theorem compared_kept (s : WindowVideoSource C) (scrollData : Option ScrollData) (compared : Option Frame) :
    Kept s { s with scrollData, compared } :=
  ⟨rfl, rfl, rfl, rfl, rfl, rfl, rfl, rfl⟩

theorem encodeMatched_kept {env : Env C} {s : WindowVideoSource C} {sd : ScrollData} {image : Frame}
    {options : Options} {minPercent : Int} {outcome : Outcome C Bool}
    (ends : encodeMatched env s sd image options minPercent = some outcome) : Kept s outcome.source := by
  unfold encodeMatched at ends
  dsimp only at ends
  generalize (if minPercent > 0 then (20 : Nat) else 50) = maxZones at ends
  generalize (if minPercent > 0 then (100 * sd.getBestMatch.2 / image.height : Int) else minPercent) =
    matchPct at ends
  split at ends
  · split at ends
    · cases ends
    · rename_i encoded
      cases ends
      exact encodeScrolling_kept encoded
    · rename_i encoded
      have kept := encodeScrolling_kept encoded
      split at ends
      · cases ends
        exact kept.trans (doFreeScrollData_kept _)
      · cases ends
        exact kept
  · cases ends
    exact .refl s

theorem doScrollEncode_kept {env : Env C} {s : WindowVideoSource C} {image : Frame} {options : Options}
    {minPercent : Int} {outcome : Outcome C Bool}
    (ends : doScrollEncode xxh3 env s image options minPercent = some outcome) : Kept s outcome.source := by
  unfold doScrollEncode at ends
  split at ends
  · cases ends
    exact .refl s
  dsimp only at ends
  split at ends
  · cases ends
    exact ⟨rfl, rfl, rfl, rfl, rfl, rfl, rfl, rfl⟩
  split at ends
  · cases ends
    exact ⟨rfl, rfl, rfl, rfl, rfl, rfl, rfl, rfl⟩
  exact (compared_kept s _ _).trans (encodeMatched_kept ends)

theorem mayUseScrolling_kept {env : Env C} {s : WindowVideoSource C} {image : Frame} {options : Options}
    {outcome : Outcome C Bool} (ends : mayUseScrolling xxh3 env s image options = some outcome) :
    Kept s outcome.source := by
  unfold mayUseScrolling at ends
  dsimp only at ends
  split at ends
  · cases ends
    exact .refl s
  · split at ends
    · cases ends
      exact doFreeScrollData_kept s
    · split at ends
      · cases ends
        exact .refl s
      · exact doScrollEncode_kept ends

theorem encode_kept {env : Env C} {s : WindowVideoSource C} {item : Item} {options : Options}
    {encoder : Encoder} {outcome : Outcome C (Option (Encoded C))}
    (ends : encode xxh3 env s item options encoder = some outcome) : Kept s outcome.source := by
  cases encoder with
  | picture =>
      cases ends
      exact .refl s
  | video =>
      unfold encode at ends
      dsimp only at ends
      split at ends
      · cases ends
        exact .refl s
      · split at ends
        · cases ends
          exact .refl s
        · split at ends
          · cases ends
            exact .refl s
          · split at ends
            · cases ends
            · rename_i detected
              cases ends
              exact mayUseScrolling_kept detected
            · rename_i detected
              cases ends
              exact mayUseScrolling_kept detected
            · rename_i detected
              cases ends
              exact mayUseScrolling_kept detected
  | scroll =>
      unfold encode at ends
      dsimp only at ends
      split at ends
      · cases ends
      · rename_i detected
        cases ends
        exact doScrollEncode_kept detected
      · rename_i detected
        cases ends
        exact doScrollEncode_kept detected

theorem encodeAndSend_kept {env : Env C} {s s' : WindowVideoSource C} {item : Item} {options : Options}
    (ends : encodeAndSend xxh3 env s item options = some s') : Kept s s' := by
  unfold encodeAndSend at ends
  split at ends
  · cases ends
    exact .refl s
  · split at ends
    · cases ends
    · rename_i encoded
      cases ends
      exact encode_kept encoded
    · rename_i encoded
      cases ends
      exact encode_kept encoded
    · rename_i encoded
      split at ends
      · cases ends
        exact encode_kept encoded
      · cases ends
        exact (encode_kept encoded).trans (sendPicture_keeps _ _ _ _ _)

theorem makeDataPacketCb_kept {env : Env C} {s s' : WindowVideoSource C} {item : Item}
    (ends : makeDataPacketCb xxh3 env s item = some s') : Kept s s' := by
  unfold makeDataPacketCb at ends
  split at ends
  · split at ends
    · cases ends
    · rename_i detected
      cases ends
      exact mayUseScrolling_kept detected
    · rename_i detected
      cases ends
      exact mayUseScrolling_kept detected
    · rename_i detected
      exact (mayUseScrolling_kept detected).trans (encodeAndSend_kept ends)
  · exact encodeAndSend_kept ends

/-! ### The invariant -/

/-- The images are cancelled. -/
def Dropped (s : WindowVideoSource C) (works : List Work) : Prop :=
  ∀ item, .makeDataPacket item ∈ works → s.isCancelled item.sequence = true

/-- The scroll data is freed before the encode thread looks at another image. -/
def FreeDue (s : WindowVideoSource C) : Prop :=
  (∃ before after, s.encodeWorkQueue = before ++ .freeScrollData :: after ∧ Dropped s before) ∨
    .freeScrollData ∈ s.todo ∧ Dropped s s.encodeWorkQueue

/-- The images that the UI thread queues. -/
structure Known (s : WindowVideoSource C) (item : Item) : Prop where
  sequence : item.sequence ≤ s.sequence
  fits : Fits s.windowDimensions item.image
  unused : item.options.scroll = false
  sized : Sized s item.options

theorem Known.congr {s s' : WindowVideoSource C} {item : Item} (known : Known s item)
    (sequence : s.sequence ≤ s'.sequence) (dimensions : s'.windowDimensions = s.windowDimensions)
    (size : s'.client.size = s.client.size) : Known s' item := by
  obtain ⟨before, fits, unused, sized⟩ := known
  refine ⟨Nat.le_trans before sequence, dimensions ▸ fits, unused, ?_⟩
  unfold Sized at sized ⊢
  rwa [size]

structure Sound (xxh3 : Bytes → UInt64) (look : String → Bytes → C) (s : WindowVideoSource C) : Prop where
  same : SameSize s
  bounded : s.sequence < Delayed.maxSequence
  queued : ∀ item, .makeDataPacket item ∈ s.encodeWorkQueue → Known s item
  taken : ∀ item, s.current = some item → Known s item
  shown : Shown xxh3 look s ∨ FreeDue s
  active : ∀ item, s.current = some item → s.isCancelled item.sequence = false → Shown xxh3 look s
  busy : ∀ item, s.current = some item → s.isCancelled item.sequence = true → FreeDue s
  paused : s.todo ≠ [] → Dropped s s.encodeWorkQueue ∧
    ∀ item, s.current = some item → s.isCancelled item.sequence = true
  awake : s.suspended = true → ∀ item, s.current = some item → s.isCancelled item.sequence = true

/-- The window opens. -/
structure Opens (s : WindowVideoSource C) : Prop where
  same : SameSize s
  sequence : s.sequence < Delayed.maxSequence
  scrollData : s.scrollData = none
  todo : s.todo = []
  encodeWorkQueue : s.encodeWorkQueue = []
  current : s.current = none

/-- The UI thread does one thing after the other. -/
def Enabled (s : WindowVideoSource C) : Event C → Prop
  | .grab => s.todo = [] ∧ s.sequence + 1 < Delayed.maxSequence
  | .callEncode item => s.todo = [] ∧ Known s item
  | .refresh | .suspend | .resume => s.todo = []
  | .cancelDamage limit => s.todo = [] ∧ (limit = 0 ∨ s.sequence ≤ limit)
  | .take => s.current = none
  | .proceed | .finish _ => True

/-- The encoders do their work for an image that is not cancelled by then. -/
def Happens (xxh3 : Bytes → UInt64) (look : String → Bytes → C) (s : WindowVideoSource C)
    (event : Event C) (s' : WindowVideoSource C) : Prop :=
  Enabled s event ∧
    (∀ env item, event = .finish env → s.current = some item → s.isCancelled item.sequence = false →
      Honest look env item ∧ Follows xxh3 s item.image) ∧
    handle xxh3 s event = some s'

variable {s s' : WindowVideoSource C}

theorem Opens.sound (opens : Opens s) : Sound xxh3 look s := by
  obtain ⟨same, sequence, scrollData, todo, queue, current⟩ := opens
  refine ⟨same, sequence, ?_, ?_, .inl (shown_none scrollData), ?_, ?_, ?_, ?_⟩
  · rw [queue]
    nofun
  · rw [current]
    nofun
  · rw [current]
    nofun
  · rw [current]
    nofun
  · rw [todo]
    exact fun paused => absurd rfl paused
  · rw [current]
    nofun

/-- More work at the end of the queue. -/
theorem FreeDue.queue (due : FreeDue s) (idle : s.todo = []) (work : Work) :
    FreeDue (callInEncodeThread s work) := by
  rcases due with ⟨before, after, here, dropped⟩ | ⟨todo, -⟩
  · refine .inl ⟨before, after ++ [work], ?_, dropped⟩
    unfold callInEncodeThread
    dsimp only
    rw [here, List.append_assoc, List.cons_append]
  · rw [idle] at todo
    cases todo

theorem grab_sound (sound : Sound xxh3 look s) (bounded : s.sequence + 1 < Delayed.maxSequence) :
    Sound xxh3 look { s with sequence := s.sequence + 1 } := by
  have later {item : Item} (known : Known s item) : Known { s with sequence := s.sequence + 1 } item :=
    known.congr (Nat.le_succ _) rfl rfl
  exact ⟨sound.same, bounded, fun item member => later (sound.queued item member),
    fun item current => later (sound.taken item current), sound.shown, sound.active, sound.busy,
    sound.paused, sound.awake⟩

theorem callInEncodeThread_sound (sound : Sound xxh3 look s) (idle : s.todo = []) {work : Work}
    (known : ∀ item, work = .makeDataPacket item → Known s item) :
    Sound xxh3 look (callInEncodeThread s work) := by
  refine ⟨sound.same, sound.bounded, ?_,
    fun item current => (sound.taken item current).congr (Nat.le_refl _) rfl rfl, ?_, sound.active, ?_, ?_,
    sound.awake⟩
  · intro item member
    rcases List.mem_append.mp member with old | new
    · exact (sound.queued item old).congr (Nat.le_refl _) rfl rfl
    · exact (known item (List.mem_singleton.mp new).symm).congr (Nat.le_refl _) rfl rfl
  · rcases sound.shown with shown | due
    · exact .inl shown
    · exact .inr (due.queue idle work)
  · exact fun item current cancelled => (sound.busy item current cancelled).queue idle work
  · exact fun paused => absurd idle paused

theorem Sound.timed (sound : Sound xxh3 look s) (now : Int) :
    Sound xxh3 look { s with lastScrollTime := now } :=
  ⟨sound.same, sound.bounded, fun item member => (sound.queued item member).congr (Nat.le_refl _) rfl rfl,
    fun item current => (sound.taken item current).congr (Nat.le_refl _) rfl rfl, sound.shown, sound.active,
    sound.busy, sound.paused, sound.awake⟩

/-- Everything so far is cancelled, and the scroll data is to be freed. -/
theorem cancelDamage_sound (sound : Sound xxh3 look s) {limit : Nat} (all : limit = 0 ∨ s.sequence ≤ limit)
    (more : List Todo) : Sound xxh3 look (cancelDamage s limit more) := by
  have cancels {item : Item} (known : Known s item) :
      (cancelDamage s limit more).isCancelled item.sequence = true := by
    have before := known.sequence
    unfold cancelDamage WindowVideoSource.isCancelled
    dsimp only
    rw [decide_eq_true_eq]
    split
    · exact before
    · rename_i given
      exact Nat.le_trans before (all.resolve_left given)
  have due : FreeDue (cancelDamage s limit more) :=
    .inr ⟨List.mem_cons_self, fun item member => cancels (sound.queued item member)⟩
  refine ⟨sound.same, sound.bounded, fun item member => ?_, fun item current => ?_, .inr due, ?_,
    fun _ _ _ => due, ?_, ?_⟩
  · exact (sound.queued item member).congr (Nat.le_refl _) rfl rfl
  · exact (sound.taken item current).congr (Nat.le_refl _) rfl rfl
  · intro item current going
    rw [cancels (sound.taken item current)] at going
    cases going
  · exact fun _ => ⟨fun item member => cancels (sound.queued item member),
      fun item current => cancels (sound.taken item current)⟩
  · exact fun _ item current => cancels (sound.taken item current)

theorem proceed_sound (sound : Sound xxh3 look s) : Sound xxh3 look (proceed s) := by
  unfold proceed
  split
  · exact sound
  · rename_i todo pending
    obtain ⟨dropped, cancelled⟩ := sound.paused (by rw [pending]; nofun)
    have due : FreeDue { callInEncodeThread s .freeScrollData with todo, lastScrollTime := 0 } :=
      .inl ⟨s.encodeWorkQueue, [], rfl, dropped⟩
    have dropped' : Dropped s (s.encodeWorkQueue ++ [.freeScrollData]) := by
      intro item member
      rcases List.mem_append.mp member with old | new
      · exact dropped item old
      · cases List.mem_singleton.mp new
    refine ⟨sound.same, sound.bounded, ?_, fun item current => ?_, .inr due, ?_, fun _ _ _ => due,
      fun _ => ⟨dropped', cancelled⟩, sound.awake⟩
    · intro item member
      rcases List.mem_append.mp member with old | new
      · exact (sound.queued item old).congr (Nat.le_refl _) rfl rfl
      · cases List.mem_singleton.mp new
    · exact (sound.taken item current).congr (Nat.le_refl _) rfl rfl
    · exact sound.active
  · rename_i value todo pending
    obtain ⟨dropped, cancelled⟩ := sound.paused (by rw [pending]; nofun)
    have still (due : FreeDue s) : FreeDue { s with todo, suspended := value } := by
      rcases due with queued | ⟨member, dropped⟩
      · exact .inl queued
      · rw [pending] at member
        rcases List.mem_cons.mp member with absurd | later
        · cases absurd
        · exact .inr ⟨later, dropped⟩
    refine ⟨sound.same, sound.bounded, fun item member => ?_, fun item current => ?_, ?_, sound.active,
      fun item current gone => still (sound.busy item current gone), fun _ => ⟨dropped, cancelled⟩,
      fun _ => cancelled⟩
    · exact (sound.queued item member).congr (Nat.le_refl _) rfl rfl
    · exact (sound.taken item current).congr (Nat.le_refl _) rfl rfl
    · rcases sound.shown with shown | due
      · exact .inl shown
      · exact .inr (still due)

theorem take_sound (sound : Sound xxh3 look s) (idle : s.current = none) : Sound xxh3 look (take s) := by
  unfold take
  split
  · exact sound
  · rename_i rest queue
    have known : ∀ item, .makeDataPacket item ∈ rest → Known s item := fun item member =>
      sound.queued item (queue ▸ List.mem_cons_of_mem _ member)
    refine ⟨sound.same, sound.bounded, ?_, ?_, .inl (shown_none rfl), fun _ _ _ => shown_none rfl, ?_, ?_, ?_⟩
    · intro item member
      exact (known item member).congr (Nat.le_refl _) rfl rfl
    · intro item current
      cases idle.symm.trans current
    · intro item current
      cases idle.symm.trans current
    · intro paused
      refine ⟨fun item member => (sound.paused paused).1 item (queue ▸ List.mem_cons_of_mem _ member), ?_⟩
      intro item current
      cases idle.symm.trans current
    · intro _ item current
      cases idle.symm.trans current
  · rename_i item rest queue
    have known : ∀ item, .makeDataPacket item ∈ rest → Known s item := fun item member =>
      sound.queued item (queue ▸ List.mem_cons_of_mem _ member)
    have here : Known s item := sound.queued item (queue ▸ List.mem_cons_self)
    -- an image in front of the queue was cancelled, or the checksums are right
    have first (due : FreeDue s) : s.isCancelled item.sequence = true ∧
        FreeDue { s with encodeWorkQueue := rest } := by
      rcases due with ⟨before, after, same, dropped⟩ | ⟨todo, dropped⟩
      · rw [queue] at same
        cases before with
        | nil => cases same
        | cons work before =>
            cases same
            exact ⟨dropped item List.mem_cons_self, .inl ⟨before, after, rfl,
              fun item member => dropped item (List.mem_cons_of_mem _ member)⟩⟩
      · rw [queue] at dropped
        exact ⟨dropped item List.mem_cons_self, .inr ⟨todo,
          fun item member => dropped item (List.mem_cons_of_mem _ member)⟩⟩
    split
    · refine ⟨sound.same, sound.bounded, ?_, ?_, ?_, ?_, ?_, ?_, ?_⟩
      · intro item member
        exact (known item member).congr (Nat.le_refl _) rfl rfl
      · intro item current
        cases idle.symm.trans current
      · rcases sound.shown with shown | due
        · exact .inl shown
        · exact .inr (first due).2
      · intro item current
        cases idle.symm.trans current
      · intro item current
        cases idle.symm.trans current
      · intro paused
        refine ⟨fun item member => (sound.paused paused).1 item (queue ▸ List.mem_cons_of_mem _ member), ?_⟩
        intro item current
        cases idle.symm.trans current
      · intro _ item current
        cases idle.symm.trans current
    · rename_i goes
      rw [not_or] at goes
      obtain ⟨going, awake⟩ := goes
      have shown : Shown xxh3 look s := by
        rcases sound.shown with shown | due
        · exact shown
        · exact absurd (first due).1 going
      refine ⟨sound.same, sound.bounded, ?_, ?_, .inl shown, fun _ _ _ => shown, ?_, ?_, ?_⟩
      · intro item member
        exact (known item member).congr (Nat.le_refl _) rfl rfl
      · intro item' current
        cases current
        exact here.congr (Nat.le_refl _) rfl rfl
      · intro item' current gone
        cases current
        exact absurd gone going
      · intro paused
        exact absurd ((sound.paused paused).1 item (queue ▸ List.mem_cons_self)) going
      · exact fun asleep => absurd asleep awake

theorem Known.inside (known : Known s item) (bounded : s.sequence < Delayed.maxSequence)
    (going : s.isCancelled item.sequence = false) : s.isCancelled Delayed.maxSequence = false := by
  have before := known.sequence
  unfold WindowVideoSource.isCancelled at going ⊢
  rw [decide_eq_false_iff_not] at going ⊢
  omega

/-- What the encode thread leaves is sound, whatever the encoders do for a cancelled image. -/
theorem finish_sound {env : Env C} {item : Item} (sound : Sound xxh3 look s) (busy : s.current = some item)
    (does : s.isCancelled item.sequence = false → Honest look env item ∧ Follows xxh3 s item.image)
    (ends : makeDataPacketCb xxh3 env s item = some s') :
    Sound xxh3 look { s' with current := none } := by
  obtain ⟨dimensions, sequence, cancelled, suspended, todo, queue, current, size⟩ := makeDataPacketCb_kept ends
  have same : SameSize s' := by
    unfold SameSize
    rw [size, dimensions]
    exact sound.same
  have still {sequence : Nat} (gone : s.isCancelled sequence = true) : s'.isCancelled sequence = true := by
    unfold WindowVideoSource.isCancelled at gone ⊢
    rwa [cancelled]
  refine ⟨same, ?_, ?_, nofun, ?_, nofun, nofun, ?_, fun _ => nofun⟩
  · rw [show ({ s' with current := none } : WindowVideoSource C).sequence = s.sequence from sequence]
    exact sound.bounded
  · intro item member
    exact (sound.queued item (queue ▸ member)).congr (Nat.le_of_eq sequence.symm) dimensions size
  · cases gone : s.isCancelled item.sequence with
    | false =>
        obtain ⟨honest, follows⟩ := does gone
        have known := sound.taken item busy
        have awake : s.suspended = false := by
          rw [Bool.eq_false_iff]
          intro asleep
          rw [sound.awake asleep item busy] at gone
          cases gone
        exact .inl (makeDataPacketCb_finished honest known.fits sound.same (known.inside sound.bounded gone)
          gone awake known.unused known.sized (sound.active item busy gone) follows ends).shown
    | true =>
        rcases sound.busy item busy gone with ⟨before, after, here, dropped⟩ | ⟨pending, dropped⟩
        · exact .inr (.inl ⟨before, after, queue.trans here, fun item member => still (dropped item member)⟩)
        · refine .inr (.inr ⟨?_, fun item member => ?_⟩)
          · exact todo ▸ pending
          · exact still (dropped item (queue ▸ member))
  · intro paused
    have dropped := (sound.paused (todo ▸ paused)).1
    exact ⟨fun item member => still (dropped item (queue ▸ member)), nofun⟩

theorem handle_sound {event : Event C} (sound : Sound xxh3 look s) (happens : Happens xxh3 look s event s') :
    Sound xxh3 look s' := by
  obtain ⟨enabled, does, same⟩ := happens
  cases event with
  | grab =>
      cases same
      exact grab_sound sound enabled.2
  | callEncode item =>
      unfold handle at same
      dsimp only at same
      split at same
      · cases same
        exact sound
      · cases same
        exact callInEncodeThread_sound sound enabled.1 fun item same => by cases same; exact enabled.2
  | refresh =>
      cases same
      exact (callInEncodeThread_sound sound enabled fun item absurd => by cases absurd).timed 0
  | cancelDamage limit =>
      cases same
      exact cancelDamage_sound sound enabled.2 []
  | suspend =>
      cases same
      exact cancelDamage_sound sound (.inl rfl) _
  | resume =>
      cases same
      exact cancelDamage_sound sound (.inl rfl) _
  | proceed =>
      cases same
      exact proceed_sound sound
  | take =>
      cases same
      exact take_sound sound enabled
  | finish env =>
      unfold handle at same
      dsimp only at same
      cases busy : s.current with
      | none =>
          rw [busy] at same
          cases same
          exact sound
      | some item =>
          rw [busy] at same
          dsimp only at same
          cases ends : makeDataPacketCb xxh3 env s item with
          | none =>
              rw [ends] at same
              cases same
          | some after =>
              rw [ends] at same
              cases same
              exact finish_sound sound busy (does env item rfl busy) ends

theorem sound_of_reachable (reachable : Reachable Opens (Happens xxh3 look) s) : Sound xxh3 look s :=
  reachable.invariant (fun _ opens => opens.sound) fun _ _ _ sound happens => handle_sound sound happens

/-- In every state of every run, every checksum that can be matched is of a line that the client
shows, unless the scroll data is freed before the next image; and an image that is not cancelled is
shown when the encode thread is done with it, scrolled or not, with nothing else changed. -/
theorem scroll_data_shown (reachable : Reachable Opens (Happens xxh3 look) s) :
    (Shown xxh3 look s ∨ FreeDue s) ∧
      ∀ env item s', s.current = some item → s.isCancelled item.sequence = false →
        Happens xxh3 look s (.finish env) s' → Delivers look env item →
        Shown xxh3 look s' ∧ ∀ p, s.client.inside p → s'.client.pixels p =
          if item.image.covers p then some (item.image.colourAt look p) else s.client.pixels p := by
  have sound := sound_of_reachable reachable
  refine ⟨sound.shown, fun env item s' busy going happens delivers => ?_⟩
  obtain ⟨-, does, same⟩ := happens
  obtain ⟨honest, follows⟩ := does env item rfl busy going
  have known := sound.taken item busy
  have awake : s.suspended = false := by
    rw [Bool.eq_false_iff]
    intro asleep
    rw [sound.awake asleep item busy] at going
    cases going
  unfold handle at same
  dsimp only at same
  rw [busy] at same
  dsimp only at same
  cases ends : makeDataPacketCb xxh3 env s item with
  | none =>
      rw [ends] at same
      cases same
  | some after =>
      rw [ends] at same
      cases same
      have finished := makeDataPacketCb_finished honest known.fits sound.same
        (known.inside sound.bounded going) going awake known.unused known.sized
        (sound.active item busy going) follows ends
      obtain ⟨shows, outside⟩ := finished.delivered delivers
      refine ⟨finished.shown, fun p inside => ?_⟩
      split
      · rename_i within
        exact shows p within
      · rename_i apart
        exact outside p inside apart

/-! ### A run -/

/-- Three lines of one pixel. -/
def stripes : Frame where
  targetX := 0
  targetY := 0
  width := 1
  height := 3
  bytesperpixel := 4
  rowstride := 4
  pixels := [0, 0, 255, 0, 0, 255, 0, 0, 255, 0, 0, 0]
  pixelFormat := "BGRX"
  valid := ⟨Nat.one_pos, Nat.succ_pos 2⟩
  enough _ := ⟨Nat.le_refl 4, Nat.le_refl 12⟩

/-- The checksums of its lines. -/
def stripesXxh3 (line : Bytes) : UInt64 :=
  if line = [0, 0, 255, 0] then 16445517814037645668
  else if line = [0, 255, 0, 0] then 5349580286215555687
  else 6304544749795547560

def opened : WindowVideoSource (String × Bytes) where
  windowDimensions := (1, 3)
  client := ⟨0, (1, 3), fun _ => none⟩

def stripesItem : Item := ⟨stripes, "rgb32", 2, {}, 0⟩

/-- Plain pixels for every picture, and scrolling whatever the match. -/
def plainPixels (look : String → Bytes → C) : Env C where
  scrollAll := true
  minScrollImageSize := 1
  mmap := false
  encoding := "auto"
  supportsScrolling := true
  contentType := ""
  nonVideoEncodings := ["rgb32"]
  commonVideoEncodings := []
  bFrameFlushTimer := 0
  currentSpeed := 40
  currentQuality := 50
  fixedQuality := -1
  scrollPreference := 100
  scrollMinPercent := 0
  lastScrollEvent := 0
  now := 0
  depth := 24
  encoders coding := if coding = "rgb32" then some .picture else none
  bestNonvideoEncoding _ _ _ := "rgb32"
  encodeSub coding image _ :=
    .ok (some ⟨coding, 4, image.colour look, false, none, image.width, image.height⟩)
  encodeImage coding image _ :=
    .ok (some ⟨coding, 4, image.colour look, false, none, image.width, image.height⟩)

def plain : Env (String × Bytes) := plainPixels Prod.mk

theorem plain_honest : Honest Prod.mk plain stripesItem where
  percent := by decide
  format := by decide
  encoder := .inl rfl
  listed _ _ _ := .inr (show plain.encoders "rgb32" ≠ none by decide)
  sub _ _ _ := .inr ⟨_, rfl, ⟨rfl, rfl, fun _ _ _ _ => rfl⟩⟩
  image _ _ := ⟨_, rfl, ⟨rfl, rfl, fun _ _ _ _ => rfl⟩⟩

def grabbed : WindowVideoSource (String × Bytes) := { opened with sequence := 2 }

def waiting : WindowVideoSource (String × Bytes) := callInEncodeThread grabbed (.makeDataPacket stripesItem)

theorem waiting_reachable : Reachable Opens (Happens stripesXxh3 Prod.mk) waiting := by
  have known : Known grabbed stripesItem :=
    ⟨Nat.le_refl 2, ⟨⟨by decide, by decide⟩, by decide, by decide⟩, rfl, .inl rfl⟩
  have grab : Happens stripesXxh3 Prod.mk opened .grab grabbed :=
    ⟨⟨rfl, by decide⟩, fun _ _ absurd => (by cases absurd), rfl⟩
  have call : Happens stripesXxh3 Prod.mk grabbed (.callEncode stripesItem) waiting :=
    ⟨⟨rfl, known⟩, fun _ _ absurd => (by cases absurd), rfl⟩
  exact ((Reachable.start ⟨rfl, by decide, rfl, rfl, rfl, rfl⟩).next grab).next call

theorem scroll_data_shown_stripes : ∃ s', handle stripesXxh3 (take waiting) (.finish plain) = some s' ∧
    Shown stripesXxh3 Prod.mk s' ∧ s'.client.pixels (0, 1) = some ("BGRX", [0, 255, 0, 0]) := by
  have ends : (handle stripesXxh3 (take waiting) (.finish plain)).isSome = true := rfl
  obtain ⟨s', same⟩ := Option.isSome_iff_exists.mp ends
  have taken : Happens stripesXxh3 Prod.mk waiting .take (take waiting) :=
    ⟨rfl, fun _ _ absurd => (by cases absurd), rfl⟩
  have follows : Follows stripesXxh3 (take waiting) stripes := follows_none rfl
  have happens : Happens stripesXxh3 Prod.mk (take waiting) (.finish plain) s' := by
    refine ⟨trivial, fun env item event current _ => ?_, same⟩
    cases event
    cases current
    exact ⟨plain_honest, follows⟩
  obtain ⟨shown, pixels⟩ := (scroll_data_shown (waiting_reachable.next taken)).2 plain stripesItem s' rfl
    rfl happens fun _ => ⟨_, rfl, ⟨rfl, rfl, fun _ _ _ _ => rfl⟩⟩
  exact ⟨s', same, shown, pixels (0, 1) (by decide)⟩

/-- An encoder that has nothing for an image that was compared and not scrolled. -/
def failing : Env (String × Bytes) :=
  { plain with scrollMinPercent := 30, encodeImage := fun _ _ _ => .ok none }

/-- The checksums of an image that was not sent are kept. -/
theorem not_scroll_data_shown : ¬ ∀ s, Reachable Opens (Happens stripesXxh3 Prod.mk) s → ∀ env s',
    handle stripesXxh3 s (.finish env) = some s' → Shown stripesXxh3 Prod.mk s' ∨ FreeDue s' := by
  intro claim
  have ends : (handle stripesXxh3 (take waiting) (.finish failing)).isSome = true := rfl
  have taken : Happens stripesXxh3 Prod.mk waiting .take (take waiting) :=
    ⟨rfl, fun _ _ absurd => (by cases absurd), rfl⟩
  rcases claim _ (waiting_reachable.next taken) failing _ (Option.some_get ends).symm with shown | due
  · obtain ⟨image, compared, -, displayed⟩ := shown _ _ rfl rfl
    have same : some stripes = some image := compared
    cases same
    have pixel : none = some (stripes.colour Prod.mk 0 0) :=
      displayed.pixels 0 (by decide) (by decide) 0 (by decide)
    cases pixel
  · rcases due with ⟨before, after, here, -⟩ | ⟨todo, -⟩
    · have empty : [] = before ++ .freeScrollData :: after := here
      rw [List.nil_eq, List.append_eq_nil_iff] at empty
      cases empty.2
    · have empty : .freeScrollData ∈ ([] : List Todo) := todo
      cases empty

end Catlink.ScrollEncode
