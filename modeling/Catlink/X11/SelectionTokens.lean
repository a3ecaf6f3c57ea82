import Catlink.X11.SelectionReads

/-! What the tokens carry comes from the epoch they are sent in. -/

namespace Catlink.X11.Selection

open MainLoop Clipboard Runs

/-! ### Where contents come from -/

/-- The targets were read in this epoch, or replied by a peer that was asked for them in it. -/
def TargetsObtained (o : Outside) (known : List Obtained) (epoch : Nat) (targets : List String) : Prop :=
  targets = [] ∨
    (∃ dtype dformat data, .read epoch "TARGETS" dtype dformat data ∈ known ∧
      xatomsToStrings o data = some targets) ∨
    .remoteTargets epoch targets ∈ known

/-- The contents are empty, or were read in this epoch. -/
def ReadIn (o : Outside) (known : List Obtained) (epoch : Nat) (target : String)
    (contents : Contents) : Prop :=
  contents.data = .bytes [] ∨
    ∃ raw data, .read epoch target contents.dtype contents.dformat raw ∈ known ∧
      filterData o contents.dtype raw = some data ∧ contents.data = .bytes data

/-- Contents of this epoch; the target may be the list of the targets itself. -/
def Genuine (o : Outside) (known : List Obtained) (epoch : Nat) (target : String)
    (contents : Contents) : Prop :=
  ReadIn o known epoch target contents ∨
    (target = "TARGETS" ∧ ∃ targets, TargetsObtained o known epoch targets ∧
      contents = ⟨"ATOM", 32, .bytes (stringsToXatoms o targets)⟩)

def Callback.offer? : Callback → Option Offer
  | .caller _ => none
  | .gotTargets offer | .gotFiles offer _ _ | .gotChosenTarget offer _ _ _ => some offer

/-- The callback is part of an offer of this epoch. -/
def Callback.Current (callback : Callback) (epoch : Nat) : Prop :=
  ∃ offer, callback.offer? = some offer ∧ offer.epoch = epoch

/-- What a callback captures comes from its epoch, and it reads the target it is for. -/
def Callback.Sound (o : Outside) (known : List Obtained) (target : String) : Callback → Prop
  | .caller _ => True
  | .gotTargets offer => target = "TARGETS" ∧ .origin offer.epoch offer.sourceMetadata ∈ known
  | .gotFiles offer otargets _ =>
      target = "text/uri-list" ∧ .origin offer.epoch offer.sourceMetadata ∈ known ∧
        TargetsObtained o known offer.epoch otargets
  | .gotChosenTarget offer otargets chosen _ =>
      target = chosen ∧ .origin offer.epoch offer.sourceMetadata ∈ known ∧
        TargetsObtained o known offer.epoch otargets

/-- What a callback of this epoch is called with. -/
def Callback.Given (o : Outside) (known : List Obtained) (epoch : Nat) (target : String)
    (contents : Contents) : Callback → Prop
  | .gotTargets _ => ReadIn o known epoch target contents
  | _ => Genuine o known epoch target contents

variable {o : Outside} {s s' : Proxy} {known later : List Obtained} {epoch : Nat}

theorem TargetsObtained.mono (more : ∀ x ∈ known, x ∈ later) {targets : List String}
    (obtained : TargetsObtained o known epoch targets) : TargetsObtained o later epoch targets := by
  rcases obtained with none | ⟨dtype, dformat, data, read, atoms⟩ | remote
  · exact .inl none
  · exact .inr (.inl ⟨dtype, dformat, data, more _ read, atoms⟩)
  · exact .inr (.inr (more _ remote))

theorem ReadIn.mono (more : ∀ x ∈ known, x ∈ later) {target : String} {contents : Contents}
    (obtained : ReadIn o known epoch target contents) : ReadIn o later epoch target contents := by
  rcases obtained with none | ⟨raw, data, read, filtered⟩
  · exact .inl none
  · exact .inr ⟨raw, data, more _ read, filtered⟩

theorem Genuine.mono (more : ∀ x ∈ known, x ∈ later) {target : String} {contents : Contents}
    (genuine : Genuine o known epoch target contents) : Genuine o later epoch target contents := by
  rcases genuine with read | ⟨same, targets, obtained, contents⟩
  · exact .inl (read.mono more)
  · exact .inr ⟨same, targets, obtained.mono more, contents⟩

theorem Callback.Sound.mono (more : ∀ x ∈ known, x ∈ later) {target : String} {callback : Callback}
    (sound : callback.Sound o known target) : callback.Sound o later target := by
  cases callback with
  | caller n => trivial
  | gotTargets offer => exact ⟨sound.1, more _ sound.2⟩
  | gotFiles offer otargets chosen => exact ⟨sound.1, more _ sound.2.1, sound.2.2.mono more⟩
  | gotChosenTarget offer otargets chosen files =>
      exact ⟨sound.1, more _ sound.2.1, sound.2.2.mono more⟩

theorem Callback.Given.mono (more : ∀ x ∈ known, x ∈ later) {target : String} {contents : Contents}
    {callback : Callback} (given : callback.Given o known epoch target contents) :
    callback.Given o later epoch target contents := by
  cases callback with
  | gotTargets offer => exact ReadIn.mono more given
  | caller | gotFiles | gotChosenTarget => exact Genuine.mono more given

/-- Nothing at all may be given to any callback. -/
theorem given_empty (known : List Obtained) (epoch : Nat) (target dtype : String) (dformat : Nat)
    (callback : Callback) : callback.Given o known epoch target ⟨dtype, dformat, .bytes []⟩ := by
  cases callback with
  | gotTargets offer => exact .inl rfl
  | caller | gotFiles | gotChosenTarget => exact .inl (.inl rfl)

/-! ### What a run keeps -/

/-- The callbacks that are kept or about to be called, with the targets they read. -/
def Proxy.callbacks (s : Proxy) : List (String × Callback) :=
  s.reads.pending.map (fun r => (r.target, r.callback)) ++
    s.reads.due.map fun c => (c.target, c.callback)

/-- `do_owner_changed` is called by the main loop: what is left of it comes last. -/
def Ordered : List Task → Prop
  | [] => True
  | .ownerChanged :: rest => rest = []
  | _ :: rest => Ordered rest

def Task.isTokenReceived : Task → Prop
  | .tokenReceived _ _ _ _ => True
  | _ => False

structure Fresh (o : Outside) (s : Proxy) : Prop where
  sound : ∀ x ∈ s.callbacks, x.2.Sound o s.obtained x.1
  within : ∀ x ∈ s.callbacks, ∀ offer, x.2.offer? = some offer → offer.epoch ≤ s.offerEpoch
  given : ∀ c ∈ s.reads.due, c.callback.Current s.offerEpoch →
    c.callback.Given o s.obtained s.offerEpoch c.target c.contents
  filed : Filed s.localRequests
  /-- while an offer of this epoch goes on, the caches are of this epoch -/
  caches : (∃ x ∈ s.callbacks, x.2.Current s.offerEpoch) →
    s.targetData = [] ∧ TargetsObtained o s.obtained s.offerEpoch s.targets
  ordered : Ordered s.stack
  /-- before a token is taken over, the offers of its epoch have not begun -/
  received : (∃ task ∈ s.stack, task.isTokenReceived) →
    ∀ x ∈ s.callbacks, ¬ x.2.Current s.offerEpoch

/-- A token and where all it carries comes from. -/
def Token.Sound (o : Outside) (known : List Obtained) (token : Token) : Prop :=
  .origin token.epoch token.origin ∈ known ∧
    TargetsObtained o known token.epoch token.targets ∧
    ∀ target contents, token.targetData = some (target, contents) →
      Genuine o known token.epoch target contents

/-- The tokens that a step adds are of the epoch it is made in. -/
def Sends (o : Outside) (s s' : Proxy) : Prop :=
  ∃ new, s'.tokens = s.tokens ++ new ∧ ∀ token, some token ∈ new →
    token.epoch = s'.offerEpoch ∧ s'.owned = false ∧ token.Sound o s'.obtained

theorem Sends.none (same : s'.tokens = s.tokens) : Sends o s s' :=
  ⟨[], by rw [same, List.append_nil], by simp⟩

/-- A step that only takes callbacks away, or calls some with nothing. -/
theorem Fresh.of_less (fresh : Fresh o s) (callbacks : ∀ x ∈ s'.callbacks, x ∈ s.callbacks)
    (due : ∀ c ∈ s'.reads.due, c ∈ s.reads.due ∨ c.contents.data = .bytes [])
    (filed : Filed s'.localRequests)
    (obtained : ∀ x ∈ s.obtained, x ∈ s'.obtained) (offerEpoch : s'.offerEpoch = s.offerEpoch)
    (targetData : s'.targetData = s.targetData)
    (targets : s'.targets = s.targets ∨ TargetsObtained o s'.obtained s'.offerEpoch s'.targets)
    (ordered : Ordered s'.stack)
    (received : ∀ task ∈ s'.stack, task.isTokenReceived → task ∈ s.stack) : Fresh o s' := by
  constructor
  · exact fun x member => (fresh.sound x (callbacks x member)).mono obtained
  · rw [offerEpoch]
    exact fun x member => fresh.within x (callbacks x member)
  · rw [offerEpoch]
    intro c member current
    rcases due c member with old | empty
    · exact (fresh.given c old current).mono obtained
    · obtain ⟨call, target, callback, ⟨dtype, dformat, data⟩, timer⟩ := c
      cases empty
      exact given_empty _ _ _ _ _ callback
  · exact filed
  · rintro ⟨x, member, current⟩
    rw [offerEpoch] at current
    obtain ⟨data, cached⟩ := fresh.caches ⟨x, callbacks x member, current⟩
    refine ⟨targetData.trans data, ?_⟩
    rcases targets with same | new
    · rw [same, offerEpoch]
      exact cached.mono obtained
    · exact new
  · exact ordered
  · rintro ⟨task, member, token⟩ x here
    rw [offerEpoch]
    exact fresh.received ⟨task, received task member token, token⟩ x (callbacks x here)

/-- A step that adds one callback. -/
theorem Fresh.of_new (fresh : Fresh o s) {target : String} {callback : Callback}
    (sound : callback.Sound o s.obtained target)
    (within : ∀ offer, callback.offer? = some offer → offer.epoch ≤ s.offerEpoch)
    (callbacks : ∀ x ∈ s'.callbacks, x ∈ s.callbacks ∨ x = (target, callback))
    (due : ∀ c ∈ s'.reads.due, c ∈ s.reads.due ∨ (c.callback.Current s.offerEpoch →
      c.callback.Given o s.obtained s.offerEpoch c.target c.contents))
    (filed : Filed s'.localRequests)
    (obtained : s'.obtained = s.obtained) (offerEpoch : s'.offerEpoch = s.offerEpoch)
    (targetData : s'.targetData = s.targetData) (targets : s'.targets = s.targets)
    (caches : callback.Current s.offerEpoch →
      s.targetData = [] ∧ TargetsObtained o s.obtained s.offerEpoch s.targets)
    (ordered : Ordered s'.stack)
    (received : ∀ task ∈ s'.stack, task.isTokenReceived → task ∈ s.stack)
    (begun : callback.Current s.offerEpoch → ∀ task ∈ s.stack, ¬ task.isTokenReceived) :
    Fresh o s' := by
  constructor
  · rw [obtained]
    intro x member
    rcases callbacks x member with old | rfl
    · exact fresh.sound x old
    · exact sound
  · rw [offerEpoch]
    intro x member
    rcases callbacks x member with old | rfl
    · exact fresh.within x old
    · exact within
  · rw [offerEpoch, obtained]
    intro c member current
    rcases due c member with old | new
    · exact fresh.given c old current
    · exact new current
  · exact filed
  · rw [offerEpoch, obtained, targetData, targets]
    rintro ⟨x, member, current⟩
    rcases callbacks x member with old | rfl
    · exact fresh.caches ⟨x, old, current⟩
    · exact caches current
  · exact ordered
  · rw [offerEpoch]
    rintro ⟨task, member, token⟩ x here current
    have old := received task member token
    rcases callbacks x here with there | rfl
    · exact fresh.received ⟨task, old, token⟩ x there current
    · exact begun current task old token

theorem Ordered.push {stack : List Task} (ordered : Ordered stack) {task : Task}
    (other : task ≠ .ownerChanged) : Ordered (task :: stack) := by
  cases task with
  | ownerChanged => exact absurd rfl other
  | complete | running | tokenReceived | gotContents | gotLocalContents | claim => exact ordered

theorem Ordered.append {stack more : List Task} (ordered : Ordered stack)
    (others : ∀ task ∈ more, task ≠ .ownerChanged) : Ordered (more ++ stack) := by
  induction more with
  | nil => exact ordered
  | cons task more ih =>
      obtain ⟨first, rest⟩ := List.forall_mem_cons.mp others
      exact (ih rest).push first

theorem Ordered.tail {stack : List Task} {task : Task} (ordered : Ordered (task :: stack)) :
    Ordered stack := by
  cases task with
  | ownerChanged =>
      have last : stack = [] := ordered
      rw [last]
      trivial
  | complete | running | tokenReceived | gotContents | gotLocalContents | claim => exact ordered

theorem mem_callbacks {x : String × Callback} :
    x ∈ s.callbacks ↔ (∃ r ∈ s.reads.pending, (r.target, r.callback) = x) ∨
      ∃ c ∈ s.reads.due, (c.target, c.callback) = x := by
  rw [Proxy.callbacks, List.mem_append, List.mem_map, List.mem_map]

/-- What a new read needs: of an offer that goes on, with the caches of its epoch. -/
structure Begun (o : Outside) (s : Proxy) (target : String) (callback : Callback) : Prop where
  sound : callback.Sound o s.obtained target
  within : ∀ offer, callback.offer? = some offer → offer.epoch ≤ s.offerEpoch
  caches : callback.Current s.offerEpoch →
    s.targetData = [] ∧ TargetsObtained o s.obtained s.offerEpoch s.targets
  uncached : callback.Current s.offerEpoch → ∀ offer, callback = .gotTargets offer → s.targets = []
  started : callback.Current s.offerEpoch → ∀ task ∈ s.stack, ¬ task.isTokenReceived

/-- What is answered at once, to an offer of this epoch, is a list of its targets. -/
theorem cached_given {target : String} {callback : Callback} (begun : Begun o s target callback)
    {contents : Contents} (cached : s.cached o target = some contents)
    (current : callback.Current s.offerEpoch) :
    callback.Given o s.obtained s.offerEpoch target contents := by
  obtain ⟨data, targets⟩ := begun.caches current
  rw [Proxy.cached] at cached
  split at cached
  · next same =>
      split at cached
      · cases cached
      · next known =>
          cases cached
          have genuine : Genuine o s.obtained s.offerEpoch target
              ⟨"ATOM", 32, .bytes (stringsToXatoms o s.targets)⟩ :=
            .inr ⟨same, s.targets, targets, rfl⟩
          cases callback with
          | gotTargets offer => exact absurd (begun.uncached current offer rfl) known
          | caller | gotFiles | gotChosenTarget => exact genuine
  · rw [data] at cached
    cases cached

theorem getContents_fresh (fresh : Fresh o s) (weOwn : Bool) {target : String} {callback : Callback}
    (begun : Begun o s target callback) :
    Fresh o (getContents o s weOwn target callback) ∧
      (getContents o s weOwn target callback).tokens = s.tokens ∧
      (getContents o s weOwn target callback).offerEpoch = s.offerEpoch := by
  -- a callback that is about to be called
  have called (contents : Contents) (s' : Proxy)
      (given : callback.Current s.offerEpoch →
        callback.Given o s.obtained s.offerEpoch target contents)
      (stack : s'.stack = .complete ⟨s.calls, target, callback, contents, none⟩ :: s.stack)
      (table : s'.localRequests = s.localRequests) (obtained : s'.obtained = s.obtained)
      (offerEpoch : s'.offerEpoch = s.offerEpoch) (targetData : s'.targetData = s.targetData)
      (targets : s'.targets = s.targets) : Fresh o s' := by
    have due : s'.reads.due = ⟨s.calls, target, callback, contents, none⟩ :: s.reads.due := by
      change s'.stack.filterMap Task.completion? = _
      rw [stack]
      rfl
    have pending : s'.reads.pending = s.reads.pending := by
      change s'.localRequests.flatMap Prod.snd = _
      rw [table]
      rfl
    apply fresh.of_new begun.sound begun.within
    · intro x member
      rw [mem_callbacks, pending, due] at member
      rcases member with old | ⟨c, here, same⟩
      · exact .inl (mem_callbacks.mpr (.inl old))
      · rcases List.mem_cons.mp here with rfl | old
        · exact .inr same.symm
        · exact .inl (mem_callbacks.mpr (.inr ⟨c, old, same⟩))
    · rw [due]
      intro c member
      rcases List.mem_cons.mp member with rfl | old
      · exact .inr given
      · exact .inl old
    · rw [table]
      exact fresh.filed
    · exact obtained
    · exact offerEpoch
    · exact targetData
    · exact targets
    · exact begun.caches
    · rw [stack]
      exact fresh.ordered.push (by simp)
    · rw [stack]
      intro task member token
      rcases List.mem_cons.mp member with rfl | old
      · cases token
      · exact old
    · exact begun.started
  unfold getContents
  split
  · next contents cached =>
      exact ⟨called contents _ (cached_given begun cached) rfl rfl rfl rfl rfl rfl, rfl, rfl⟩
  · split
    · refine ⟨called ⟨"", 0, .bytes []⟩ _ ?_ rfl rfl rfl rfl rfl rfl, rfl, rfl⟩
      exact fun _ => given_empty _ _ _ _ _ callback
    · refine ⟨?_, rfl, rfl⟩
      have perm := Dict.appendTo_perm s.localRequests target
        ⟨target, s.localRequestCounter, s.timers.next, s.calls, callback⟩
      apply fresh.of_new begun.sound begun.within
      · intro x member
        rcases mem_callbacks.mp member with ⟨r, here, same⟩ | ⟨c, here, same⟩
        · rcases List.mem_append.mp (perm.mem_iff.mp here) with old | new
          · exact .inl (mem_callbacks.mpr (.inl ⟨r, old, same⟩))
          · rw [List.mem_singleton.mp new] at same
            exact .inr same.symm
        · exact .inl (mem_callbacks.mpr (.inr ⟨c, here, same⟩))
      · exact fun c member => .inl member
      · exact Filed.appendTo fresh.filed ⟨target, s.localRequestCounter, s.timers.next, s.calls, callback⟩
      · rfl
      · rfl
      · rfl
      · rfl
      · exact begun.caches
      · exact fresh.ordered
      · exact fun task member _ => member
      · exact begun.started

/-! ### The functions within `schedule_emit_token` -/

/-- What a callback needs of the offer it is part of. -/
structure Ready (o : Outside) (s : Proxy) (offer : Offer) : Prop where
  within : offer.epoch ≤ s.offerEpoch
  origin : .origin offer.epoch offer.sourceMetadata ∈ s.obtained
  caches : offer.epoch = s.offerEpoch →
    s.targetData = [] ∧ TargetsObtained o s.obtained s.offerEpoch s.targets
  started : offer.epoch = s.offerEpoch → ∀ task ∈ s.stack, ¬ task.isTokenReceived

/-- What a part of the proxy does. -/
structure Does (o : Outside) (s s' : Proxy) : Prop where
  fresh : Fresh o s'
  sends : Sends o s s'

theorem Does.nothing (fresh : Fresh o s) : Does o s s := ⟨fresh, .none rfl⟩

/-- A token of this epoch is sent. -/
theorem send_does (fresh : Fresh o s) {offer : Offer} (current : s.current offer)
    (ready : Ready o s offer) (otargets : List String) (target : String) (data : PyVal)
    (files : List String) {token : Token} (epoch : token.epoch = s.offerEpoch)
    (origin : token.origin = offer.sourceMetadata)
    (targets : TargetsObtained o s.obtained s.offerEpoch token.targets)
    (contents : ∀ target contents, token.targetData = some (target, contents) →
      Genuine o s.obtained s.offerEpoch target contents) :
    Does o s ((offerMetadata s otargets target data files).sendToken (some token)) := by
  constructor
  · exact ⟨fresh.sound, fresh.within, fresh.given, fresh.filed, fresh.caches, fresh.ordered,
      fresh.received⟩
  · refine ⟨[some token], rfl, ?_⟩
    intro token' member
    cases List.mem_singleton.mp member
    refine ⟨epoch, current.2, ?_, ?_, ?_⟩
    · rw [origin, epoch, ← current.1]
      exact ready.origin
    · rw [epoch]
      exact targets
    · rw [epoch]
      exact contents

theorem sendTokenWithTargets_does (fresh : Fresh o s) {offer : Offer} (ready : Ready o s offer)
    (files : List String) : Does o s (sendTokenWithTargets s offer files) := by
  unfold sendTokenWithTargets
  split
  · next current =>
      exact send_does fresh current ready _ _ _ _ rfl rfl (ready.caches current.1).2 (by simp)
  · exact .nothing fresh

theorem gotChosenTarget_does (fresh : Fresh o s) {offer : Offer} (ready : Ready o s offer)
    {otargets : List String} (obtained : TargetsObtained o s.obtained offer.epoch otargets)
    (target : String) (files : List String) {contents : Contents}
    (genuine : offer.epoch = s.offerEpoch → Genuine o s.obtained s.offerEpoch target contents) :
    Does o s (gotChosenTarget s offer otargets target files contents) := by
  unfold gotChosenTarget
  split
  · next current =>
      split
      · refine send_does fresh current ready _ _ _ _ rfl rfl ?_ ?_
        · rw [← current.1]
          exact obtained
        · intro target' contents' same
          cases same
          exact genuine current.1
      · exact sendTokenWithTargets_does fresh ready files
  · exact .nothing fresh

/-- The offer goes on with another read. -/
theorem read_does (fresh : Fresh o s) {offer : Offer} (ready : Ready o s offer) (weOwn : Bool)
    {target : String} {callback : Callback} (sound : callback.Sound o s.obtained target)
    (own : callback.offer? = some offer)
    (uncached : ∀ offer, callback = .gotTargets offer → s.targets = []) :
    Does o s (getContents o s weOwn target callback) := by
  have same (epoch : Nat) (current : callback.Current epoch) : offer.epoch = epoch := by
    obtain ⟨offer', here, now⟩ := current
    rw [own] at here
    cases here
    exact now
  have begun : Begun o s target callback := by
    constructor
    · exact sound
    · intro offer' here
      rw [own] at here
      cases here
      exact ready.within
    · exact fun current => ready.caches (same _ current)
    · exact fun _ => uncached
    · exact fun current => ready.started (same _ current)
  obtain ⟨after, tokens, _⟩ := getContents_fresh fresh weOwn begun
  exact ⟨after, .none tokens⟩

theorem gotFiles_does (fresh : Fresh o s) {offer : Offer} (ready : Ready o s offer) (weOwn : Bool)
    {otargets : List String} (obtained : TargetsObtained o s.obtained offer.epoch otargets)
    (target : String) {contents : Contents}
    (genuine : offer.epoch = s.offerEpoch →
      Genuine o s.obtained s.offerEpoch "text/uri-list" contents) :
    Does o s (gotFiles o s weOwn offer otargets target contents) := by
  unfold gotFiles
  split
  · dsimp only
    split
    · next same =>
        rw [same]
        exact gotChosenTarget_does fresh ready obtained _ _ genuine
    · refine read_does fresh ready weOwn ⟨rfl, ready.origin, obtained⟩ rfl ?_
      intro offer' other
      cases other
  · exact .nothing fresh

theorem withTargets_does (fresh : Fresh o s) {offer : Offer} (ready : Ready o s offer) (weOwn : Bool)
    {otargets : List String} (obtained : TargetsObtained o s.obtained offer.epoch otargets) :
    Does o s (withTargets o s weOwn offer otargets) := by
  unfold withTargets
  split
  · split
    · exact sendTokenWithTargets_does fresh ready []
    · split
      · exact sendTokenWithTargets_does fresh ready []
      · split
        · refine read_does fresh ready weOwn ⟨rfl, ready.origin, obtained⟩ rfl ?_
          intro offer' other
          cases other
        · refine read_does fresh ready weOwn ⟨rfl, ready.origin, obtained⟩ rfl ?_
          intro offer' other
          cases other
  · exact .nothing fresh

/-- The atoms that were read are the targets. -/
theorem read_targets {contents : Contents} (read : ReadIn o known epoch "TARGETS" contents)
    (atoms : contents.dtype = "ATOM") :
    TargetsObtained o known epoch
      ((xatomsToStrings o (memoryviewToBytes o contents.data)).getD []) := by
  rcases read with none | ⟨raw, data, read, filtered, same⟩
  · rw [none]
    exact .inl rfl
  · have plain : isImage contents.dtype = false := by
      rw [atoms]
      decide
    rw [filterData, if_pos (.inr plain)] at filtered
    cases filtered
    rw [same, memoryviewToBytes]
    cases found : xatomsToStrings o raw with
    | none => exact .inl rfl
    | some targets => exact .inr (.inl ⟨_, _, raw, read, found⟩)

theorem setTargets_fresh (fresh : Fresh o s) {targets : List String}
    (obtained : TargetsObtained o s.obtained s.offerEpoch targets) : Fresh o (s.setTargets targets) :=
  fresh.of_less (fun _ member => member) (fun _ member => .inl member) fresh.filed
    (fun _ member => member) rfl rfl (.inr obtained) fresh.ordered (fun _ member _ => member)

theorem note_fresh (fresh : Fresh o s) (obtained : Obtained) : Fresh o (s.note obtained) :=
  fresh.of_less (fun _ member => member) (fun _ member => .inl member) fresh.filed
    (fun _ member => List.mem_append_left _ member) rfl rfl (.inl rfl) fresh.ordered
    (fun _ member _ => member)

theorem gotTargets_does (fresh : Fresh o s) {offer : Offer} (ready : Ready o s offer) (weOwn : Bool)
    {contents : Contents}
    (read : offer.epoch = s.offerEpoch → ReadIn o s.obtained s.offerEpoch "TARGETS" contents) :
    Does o s (gotTargets o s weOwn offer contents) := by
  unfold gotTargets
  split
  · next current =>
      split
      · exact sendTokenWithTargets_does fresh ready []
      · next atoms =>
          rw [not_or, not_not, not_not] at atoms
          have obtained := read_targets (read current.1) atoms.1
          dsimp only
          generalize (xatomsToStrings o (memoryviewToBytes o contents.data)).getD [] = targets
            at obtained ⊢
          have ready' : Ready o (s.setTargets targets) offer :=
            ⟨ready.within, ready.origin, fun same => ⟨(ready.caches same).1, obtained⟩, ready.started⟩
          have mine : TargetsObtained o s.obtained offer.epoch targets := by
            rw [current.1]
            exact obtained
          have does := withTargets_does (setTargets_fresh fresh obtained) ready' weOwn mine
          exact ⟨does.fresh, does.sends⟩
  · exact .nothing fresh

/-- A callback is called. -/
theorem complete_does (fresh : Fresh o s) {completion : Completion} {rest : List Task}
    (first : s.stack = .complete completion :: rest) (weOwn : Bool) :
    Does o s (complete o { s with stack := rest } weOwn completion) := by
  have due : s.reads.due = completion :: rest.filterMap Task.completion? := by
    change s.stack.filterMap Task.completion? = _
    rw [first]
    rfl
  have mine : (completion.target, completion.callback) ∈ s.callbacks := by
    rw [mem_callbacks, due]
    exact .inr ⟨completion, List.mem_cons_self, rfl⟩
  have inside : ∀ task ∈ rest, task ∈ s.stack := by
    rw [first]
    exact fun task => List.mem_cons_of_mem _
  have sound := fresh.sound _ mine
  have within := fresh.within _ mine
  have given (current : completion.callback.Current s.offerEpoch) :=
    fresh.given completion (by rw [due]; exact List.mem_cons_self) current
  have caches (current : completion.callback.Current s.offerEpoch) :=
    fresh.caches ⟨_, mine, current⟩
  have started (current : completion.callback.Current s.offerEpoch) :
      ∀ task ∈ rest, ¬ task.isTokenReceived := by
    intro task member token
    exact fresh.received ⟨task, inside task member, token⟩ _ mine current
  have fresh' : Fresh o { s with
      stack := rest
      timers := completion.timer.elim s.timers s.timers.remove
      completed := s.completed ++ [completion] } := by
    apply fresh.of_less
    · intro x member
      rcases mem_callbacks.mp member with pending | ⟨c, here, same⟩
      · exact mem_callbacks.mpr (.inl pending)
      · refine mem_callbacks.mpr (.inr ⟨c, ?_, same⟩)
        rw [due]
        exact List.mem_cons_of_mem _ here
    · intro c member
      rw [due]
      exact .inl (List.mem_cons_of_mem _ member)
    · exact fresh.filed
    · exact fun _ member => member
    · rfl
    · rfl
    · exact .inl rfl
    · have ordered := fresh.ordered
      rw [first] at ordered
      exact ordered.tail
    · exact fun task member _ => inside task member
  have ready (offer : Offer) (own : completion.callback.offer? = some offer)
      (origin : .origin offer.epoch offer.sourceMetadata ∈ s.obtained) :
      Ready o { s with
        stack := rest
        timers := completion.timer.elim s.timers s.timers.remove
        completed := s.completed ++ [completion] } offer :=
    ⟨within offer own, origin, fun same => caches ⟨offer, own, same⟩,
      fun same => started ⟨offer, own, same⟩⟩
  unfold complete
  dsimp only
  obtain ⟨call, target, callback, contents, timer⟩ := completion
  cases callback with
  | caller n =>
      refine ⟨?_, .none rfl⟩
      exact fresh'.of_less (fun _ member => member) (fun _ member => .inl member) fresh'.filed
        (fun _ member => member) rfl rfl (.inl rfl) (fresh'.ordered.push (by simp))
        (fun task member token => by
          rcases List.mem_cons.mp member with rfl | old
          · cases token
          · exact old)
  | gotTargets offer =>
      have same : target = "TARGETS" := sound.1
      subst same
      have does := gotTargets_does fresh' (ready offer rfl sound.2) weOwn
        fun now => given ⟨offer, rfl, now⟩
      exact ⟨does.fresh, does.sends⟩
  | gotFiles offer otargets chosen =>
      have same : target = "text/uri-list" := sound.1
      subst same
      have does := gotFiles_does fresh' (ready offer rfl sound.2.1) weOwn sound.2.2 chosen
        fun now => given ⟨offer, rfl, now⟩
      exact ⟨does.fresh, does.sends⟩
  | gotChosenTarget offer otargets chosen files =>
      have same : target = chosen := sound.1
      subst same
      have does := gotChosenTarget_does fresh' (ready offer rfl sound.2.1) sound.2.2 target files
        fun now => given ⟨offer, rfl, now⟩
      exact ⟨does.fresh, does.sends⟩

/-- The first read of an offer, when nothing is cached. -/
theorem scheduleEmitToken_does (fresh : Fresh o s) (idle : s.stack = []) (data : s.targetData = [])
    (targets : s.targets = []) (weOwn : Bool) : Does o s (scheduleEmitToken o s weOwn) := by
  have noted (s₁ : Proxy) (quiet : Quiet s s₁) (same : s₁.obtained = s.obtained)
      (data' : s₁.targetData = []) (targets' : s₁.targets = []) (tokens : s₁.tokens = s.tokens) :
      Fresh o (s₁.note (.origin s₁.offerEpoch s₁.clipboardOrigin)) := by
    have callbacks : s₁.callbacks = s.callbacks := by
      unfold Proxy.callbacks
      rw [quiet.reads]
    apply fresh.of_less
    · intro x member
      rw [← callbacks]
      exact member
    · intro c member
      rw [← quiet.reads]
      exact .inl member
    · have table : s₁.localRequests = s.localRequests := congrArg Reads.localRequests quiet.reads
      change Filed s₁.localRequests
      rw [table]
      exact fresh.filed
    · intro x member
      rw [← same] at member
      exact List.mem_append_left _ member
    · exact quiet.offerEpoch
    · exact data'.trans data.symm
    · exact .inl (targets'.trans targets.symm)
    · change Ordered s₁.stack
      rw [quiet.stack]
      exact fresh.ordered
    · intro task member _
      rw [← quiet.stack]
      exact member
  have quiet := getClipboardTokenMetadata_quiet s
  have rest : (getClipboardTokenMetadata s).obtained = s.obtained ∧
      (getClipboardTokenMetadata s).targetData = s.targetData ∧
      (getClipboardTokenMetadata s).targets = s.targets ∧
      (getClipboardTokenMetadata s).tokens = s.tokens := by
    unfold getClipboardTokenMetadata
    split
    · exact ⟨rfl, rfl, rfl, rfl⟩
    · exact ⟨rfl, rfl, rfl, rfl⟩
  unfold scheduleEmitToken
  dsimp only
  generalize getClipboardTokenMetadata s = s₁ at quiet rest ⊢
  obtain ⟨same, data', targets', tokens⟩ := rest
  rw [data] at data'
  rw [targets] at targets'
  have fresh' := noted s₁ quiet same data' targets' tokens
  have stack : (s₁.note (.origin s₁.offerEpoch s₁.clipboardOrigin)).stack = [] := by
    change s₁.stack = []
    rw [quiet.stack, idle]
  split
  · refine ⟨⟨fresh'.sound, fresh'.within, fresh'.given, fresh'.filed, fresh'.caches, fresh'.ordered,
      fresh'.received⟩, ⟨[none], ?_, ?_⟩⟩
    · change s₁.tokens ++ [none] = _
      rw [tokens]
    · intro token member
      cases List.mem_singleton.mp member
  · rw [if_neg (by
      change ¬ s₁.targets ≠ []
      rw [targets', Ne, not_not])]
    have ready : Ready o (s₁.note (.origin s₁.offerEpoch s₁.clipboardOrigin))
        ⟨s₁.offerEpoch, s₁.clipboardOrigin⟩ := by
      constructor
      · exact Nat.le_refl _
      · exact List.mem_append_right _ (List.mem_singleton_self _)
      · refine fun _ => ⟨data', ?_⟩
        change TargetsObtained o _ _ s₁.targets
        rw [targets']
        exact .inl rfl
      · rw [stack]
        exact fun _ task member => by cases member
    have sound : Callback.Sound o (s₁.note (.origin s₁.offerEpoch s₁.clipboardOrigin)).obtained
        "TARGETS" (.gotTargets ⟨s₁.offerEpoch, s₁.clipboardOrigin⟩) := ⟨rfl, ready.origin⟩
    obtain ⟨after, new, sent, own⟩ := read_does fresh' ready weOwn sound rfl fun _ _ => targets'
    refine ⟨after, new, ?_, own⟩
    rw [sent]
    change s₁.tokens ++ new = _
    rw [tokens]

theorem ownerChanged_does (fresh : Fresh o s) (idle : s.stack = []) (weOwn : Bool) :
    Does o s (ownerChanged o s weOwn) := by
  have cleared : Fresh o ({ s with targetData := [] }.setTargets []) :=
    ⟨fresh.sound, fresh.within, fresh.given, fresh.filed, fun _ => ⟨rfl, .inl rfl⟩, fresh.ordered,
      fresh.received⟩
  unfold ownerChanged
  dsimp only
  split
  · exact ⟨cleared, .none rfl⟩
  · split
    · have does := scheduleEmitToken_does cleared idle rfl rfl weOwn
      exact ⟨does.fresh, does.sends⟩
    · exact ⟨cleared, .none rfl⟩

/-! ### The other functions -/

/-- Requests are taken off the table, and their callbacks are about to be called. -/
theorem taken_fresh (fresh : Fresh o s) (requests : List LocalRequest)
    (rest : List (String × List LocalRequest)) (give : LocalRequest → Contents)
    (known : ∀ r ∈ requests, r ∈ s.reads.pending)
    (left : ∀ r ∈ rest.flatMap Prod.snd, r ∈ s.reads.pending) (filed : Filed rest)
    (given : ∀ r ∈ requests, r.callback.Current s.offerEpoch →
      r.callback.Given o s.obtained s.offerEpoch r.target (give r)) :
    Fresh o { s with
      localRequests := rest
      stack := (requests.map fun r => r.complete (give r)) ++ s.stack } := by
  have due : ∀ c ∈ ((requests.map fun r => r.complete (give r)) ++ s.stack).filterMap Task.completion?,
      (∃ r ∈ requests, c = ⟨r.call, r.target, r.callback, give r, some r.timer⟩) ∨
        c ∈ s.reads.due := by
    rw [due_complete]
    intro c member
    rcases List.mem_append.mp member with new | old
    · obtain ⟨r, here, rfl⟩ := List.mem_map.mp new
      exact .inl ⟨r, here, rfl⟩
    · exact .inr old
  have callbacks : ∀ x ∈ Proxy.callbacks { s with
      localRequests := rest
      stack := (requests.map fun r => r.complete (give r)) ++ s.stack }, x ∈ s.callbacks := by
    intro x member
    rcases mem_callbacks.mp member with ⟨r, here, same⟩ | ⟨c, here, same⟩
    · exact mem_callbacks.mpr (.inl ⟨r, left r here, same⟩)
    · rcases due c here with ⟨r, taken, rfl⟩ | old
      · exact mem_callbacks.mpr (.inl ⟨r, known r taken, same⟩)
      · exact mem_callbacks.mpr (.inr ⟨c, old, same⟩)
  constructor
  · exact fun x member => fresh.sound x (callbacks x member)
  · exact fun x member => fresh.within x (callbacks x member)
  · intro c member current
    rcases due c member with ⟨r, taken, rfl⟩ | old
    · exact given r taken current
    · exact fresh.given c old current
  · exact filed
  · rintro ⟨x, member, current⟩
    exact fresh.caches ⟨x, callbacks x member, current⟩
  · apply fresh.ordered.append
    intro task member
    obtain ⟨r, _, rfl⟩ := List.mem_map.mp member
    simp [LocalRequest.complete]
  · rintro ⟨task, member, token⟩ x here
    rcases List.mem_append.mp member with new | old
    · obtain ⟨r, _, rfl⟩ := List.mem_map.mp new
      cases token
    · exact fresh.received ⟨task, old, token⟩ x (callbacks x here)

theorem raise_fresh (fresh : Fresh o s) : Fresh o s.raise := by
  have none : s.raise.reads.due = [] := rfl
  apply fresh.of_less
  · intro x member
    rw [mem_callbacks, none] at member
    rcases member with pending | ⟨c, here, _⟩
    · exact mem_callbacks.mpr (.inl pending)
    · cases here
  · rw [none]
    exact fun c member => by cases member
  · exact fresh.filed
  · exact fun _ member => member
  · rfl
  · rfl
  · exact .inl rfl
  · trivial
  · exact fun task member => by cases member

theorem gotLocalContents_does (fresh : Fresh o s) {target dtype : String} {dformat : Nat}
    {raw : Bytes} (read : ∀ data, filterData o dtype raw = some data →
      ReadIn o s.obtained s.offerEpoch target ⟨dtype, dformat, .bytes data⟩) :
    Does o s (gotLocalContents o s target dtype dformat raw) := by
  unfold gotLocalContents
  split
  · exact ⟨raise_fresh fresh, .none rfl⟩
  · next data filtered =>
      split
      · exact .nothing fresh
      · next requests rest popped =>
          have perm : s.reads.pending.Perm (requests ++ rest.flatMap Prod.snd) :=
            (Dict.pop_perm popped).flatMap_right Prod.snd
          have filed : ∀ r ∈ requests, r.target = target :=
            fresh.filed _ ((Dict.pop_perm popped).mem_iff.mpr List.mem_cons_self)
          refine ⟨taken_fresh fresh requests rest _ ?_ ?_ (fresh.filed.pop popped) ?_, .none rfl⟩
          · exact fun r member => perm.mem_iff.mpr (List.mem_append_left _ member)
          · exact fun r member => perm.mem_iff.mpr (List.mem_append_right _ member)
          · intro r member _
            rw [filed r member]
            have given := read data filtered
            cases r.callback with
            | gotTargets offer => exact given
            | caller | gotFiles | gotChosenTarget => exact .inl given

/-- An epoch begins: no offer of it has begun. -/
theorem invalidate_fresh (fresh : Fresh o s) {task : Task} (ordered : Ordered (task :: s.stack))
    (plain : task.completion? = none) : Fresh o (invalidateLocalReads (s.push task)) := by
  have due : ∀ c ∈ (invalidateLocalReads (s.push task)).reads.due,
      (∃ r ∈ s.reads.pending, (r.target, r.callback) = (c.target, c.callback)) ∨
        c ∈ s.reads.due := by
    intro c member
    change c ∈ (_ ++ task :: s.stack).filterMap Task.completion? at member
    rw [due_complete, List.filterMap_cons_none plain] at member
    rcases List.mem_append.mp member with new | old
    · obtain ⟨r, here, rfl⟩ := List.mem_map.mp new
      exact .inl ⟨r, here, rfl⟩
    · exact .inr old
  have callbacks : ∀ x ∈ (invalidateLocalReads (s.push task)).callbacks, x ∈ s.callbacks := by
    intro x member
    rcases mem_callbacks.mp member with ⟨r, here, _⟩ | ⟨c, here, same⟩
    · cases here
    · rcases due c here with ⟨r, pending, mine⟩ | old
      · exact mem_callbacks.mpr (.inl ⟨r, pending, mine.trans same⟩)
      · exact mem_callbacks.mpr (.inr ⟨c, old, same⟩)
  have before : ∀ x ∈ (invalidateLocalReads (s.push task)).callbacks,
      ¬ x.2.Current (s.offerEpoch + 1) := by
    rintro x member ⟨offer, own, now⟩
    have within := fresh.within x (callbacks x member) offer own
    rw [now] at within
    exact Nat.not_succ_le_self _ within
  constructor
  · exact fun x member => fresh.sound x (callbacks x member)
  · intro x member offer own
    exact Nat.le_succ_of_le (fresh.within x (callbacks x member) offer own)
  · intro c member current
    exact absurd current (before (c.target, c.callback) (mem_callbacks.mpr (.inr ⟨c, member, rfl⟩)))
  · intro entry member
    cases member
  · rintro ⟨x, member, current⟩
    exact absurd current (before x member)
  · refine Ordered.append ordered ?_
    intro task' member
    obtain ⟨r, _, rfl⟩ := List.mem_map.mp member
    simp [LocalRequest.complete]
  · exact fun _ => before

/-- Responses are given, up to the first that cannot be. -/
theorem respondAll_shape (target dtype : String) (dformat : Nat) (data : PyVal)
    (pending : List RemoteRequest) :
    ∃ new, respondAll o s target dtype dformat data pending = s.answers new ∨
      respondAll o s target dtype dformat data pending = (s.answers new).raise := by
  have nothing : s.answers [] = s := by rw [Proxy.answers, List.append_nil]
  induction pending generalizing s dtype with
  | nil => exact ⟨[], .inl (by rw [respondAll, nothing])⟩
  | cons r pending ih =>
      have later (new : List Response) (dtype : String) :
          ∃ all, respondAll o (s.answers new) target dtype dformat data pending = s.answers all ∨
            respondAll o (s.answers new) target dtype dformat data pending = (s.answers all).raise := by
        have unchanged : (s.answers new).answers [] = s.answers new := by
          rw [Proxy.answers, List.append_nil]
        obtain ⟨rest, shape⟩ := ih dtype unchanged
        refine ⟨new ++ rest, ?_⟩
        rw [← answers_append]
        exact shape
      have stops : s.raise = (s.answers []).raise := by rw [nothing]
      rw [respondAll]
      split
      · rcases setSelectionResponse_shape o s (some r.number) r.requestor r.target r.prop dtype dformat
          .none r.time with fails | ⟨new, _, given⟩
        · rw [fails]
          exact ⟨[], .inr stops⟩
        · rw [given]
          exact later new dtype
      · dsimp only
        generalize (if r.target ≠ target ∧ dtype = target then r.target else dtype) = actual
        rcases setSelectionResponse_shape o s (some r.number) r.requestor r.target r.prop actual dformat
          data r.time with fails | ⟨new, _, given⟩
        · rw [fails]
          exact ⟨[], .inr stops⟩
        · rw [given]
          exact later new actual

theorem answers_fresh (fresh : Fresh o s) (responses : List Response) :
    Fresh o (s.answers responses) :=
  ⟨fresh.sound, fresh.within, fresh.given, fresh.filed, fresh.caches, fresh.ordered, fresh.received⟩

theorem popAndRespond_does (fresh : Fresh o s) (target : String) (contents : Contents) :
    Does o s (popAndRespond o s target contents) := by
  unfold popAndRespond
  split
  · exact .nothing fresh
  · next pending rest popped =>
      have without : Fresh o { s with remoteRequests := rest } :=
        ⟨fresh.sound, fresh.within, fresh.given, fresh.filed, fresh.caches, fresh.ordered,
          fresh.received⟩
      obtain ⟨new, all | some⟩ := respondAll_shape (o := o) (s := { s with remoteRequests := rest })
        target contents.dtype contents.dformat contents.data pending
      · rw [all]
        exact ⟨answers_fresh without new, .none rfl⟩
      · rw [some]
        exact ⟨raise_fresh (answers_fresh without new), .none rfl⟩

/-- An offer of this epoch goes on. -/
def Proxy.Offering (s : Proxy) : Prop := ∃ x ∈ s.callbacks, x.2.Current s.offerEpoch

/-- The targets are those of this epoch, or nothing depends on them. -/
def Timely (s : Proxy) (asked : Nat) (target : String) (contents : Contents) : Prop :=
  target = "TARGETS" ∧ contents.dtype = "ATOM" ∧ contents.dformat = 32 →
    asked = s.offerEpoch ∨ ¬ s.Offering

theorem gotContents_does (fresh : Fresh o s) {asked : Nat} {target : String} {contents : Contents}
    (timely : Timely s asked target contents) : Does o s (gotContents o s asked target contents) := by
  unfold gotContents
  split
  · next replied =>
      split
      · exact ⟨raise_fresh fresh, .none rfl⟩
      · next targets found =>
          have noted := note_fresh fresh (.remoteTargets asked targets)
          have known : Fresh o ((s.setTargets targets).note (.remoteTargets asked targets)) := by
            rcases timely replied with rfl | idle
            · exact setTargets_fresh noted
                (.inr (.inr (List.mem_append_right _ (List.mem_singleton_self _))))
            · exact ⟨noted.sound, noted.within, noted.given, noted.filed,
                fun offering => absurd offering idle, noted.ordered, noted.received⟩
          have does := popAndRespond_does known target contents
          exact ⟨does.fresh, does.sends⟩
  · exact popAndRespond_does fresh target contents

theorem tokenReceived_does (fresh : Fresh o s) (before : ∀ x ∈ s.callbacks, ¬ x.2.Current s.offerEpoch)
    (targets : List String) (targetData : List (String × Contents)) (claim synchronousClient : Bool) :
    Does o s (tokenReceived o s targets targetData claim synchronousClient) := by
  have taken (s' : Proxy) (more : List Task) (reads : s'.reads = s.reads)
      (stack : s'.stack = more ++ s.stack)
      (plain : ∀ task ∈ more, task ≠ .ownerChanged ∧ ¬ task.isTokenReceived)
      (obtained : s'.obtained = s.obtained) (offerEpoch : s'.offerEpoch = s.offerEpoch) :
      Fresh o s' := by
    have callbacks : s'.callbacks = s.callbacks := by
      unfold Proxy.callbacks
      rw [reads]
    constructor
    · rw [callbacks, obtained]
      exact fresh.sound
    · rw [callbacks, offerEpoch]
      exact fresh.within
    · rw [reads, obtained, offerEpoch]
      exact fresh.given
    · have table : s'.localRequests = s.localRequests := congrArg Reads.localRequests reads
      rw [table]
      exact fresh.filed
    · rw [callbacks, offerEpoch]
      rintro ⟨x, member, current⟩
      exact absurd current (before x member)
    · rw [stack]
      exact fresh.ordered.append fun task member => (plain task member).1
    · rw [callbacks, offerEpoch]
      exact fun _ => before
  unfold tokenReceived
  dsimp only
  split
  · exact ⟨taken _ [] rfl rfl (by simp) rfl rfl, .none rfl⟩
  · split
    · exact ⟨taken _ [] rfl rfl (by simp) rfl rfl, .none rfl⟩
    · have plain : ∀ task ∈ claimTasks o (targets ++ targetData.map Prod.fst) targetData
          synchronousClient, task ≠ .ownerChanged ∧ ¬ task.isTokenReceived ∧
            task.completion? = none := by
        intro task member
        rcases mem_claimTasks member with rfl | ⟨target, contents, rfl, _⟩
        · exact ⟨by simp, id, rfl⟩
        · exact ⟨by simp, id, rfl⟩
      refine ⟨taken _ _ ?_ rfl (fun task member => ⟨(plain task member).1, (plain task member).2.1⟩)
        rfl rfl, .none rfl⟩
      have due : (claimTasks o (targets ++ targetData.map Prod.fst) targetData synchronousClient ++
          s.stack).filterMap Task.completion? = s.stack.filterMap Task.completion? := by
        rw [List.filterMap_append, List.filterMap_eq_nil_iff.mpr fun task member =>
          (plain task member).2.2, List.nil_append]
      exact congrArg (fun due : List Completion => ({ s.reads with due := due } : Reads)) due

/-! ### Runs -/

theorem resetIncrData_fresh (fresh : Fresh o s) (atom : Atom) : Fresh o (s.resetIncrData atom) :=
  ⟨fresh.sound, fresh.within, fresh.given, fresh.filed, fresh.caches, fresh.ordered, fresh.received⟩

theorem timeoutGetContents_does (fresh : Fresh o s) (target : String) (requestId : Nat) :
    Does o s (timeoutGetContents s target requestId) := by
  unfold timeoutGetContents
  split
  · exact .nothing fresh
  · next requests found =>
      split
      · exact .nothing fresh
      · next r here =>
          have table := Dict.get_mem found
          have inside : ∀ r ∈ requests, r ∈ s.reads.pending :=
            fun r member => mem_pending (b := s.reads) table member
          refine ⟨taken_fresh fresh [r] _ (fun _ => emptyContents target) ?_ ?_ ?_ ?_, .none rfl⟩
          · intro r' member
            rw [List.mem_singleton.mp member]
            exact inside r (List.mem_of_find?_eq_some here)
          · intro r' member
            obtain ⟨entry, kept, within⟩ := List.mem_flatMap.mp member
            split at kept
            · exact mem_pending (b := s.reads) (Dict.mem_erase.mp kept).1 within
            · rcases Dict.of_mem_set kept with rfl | old
              · exact inside r' (List.mem_filter.mp within).1
              · exact mem_pending (b := s.reads) old within
          · exact fresh.filed.timeout found fun r' within => (List.mem_filter.mp within).1
          · intro r' _ _
            unfold emptyContents
            split
            · exact given_empty _ _ _ _ _ _
            · exact given_empty _ _ _ _ _ _

/-- Nothing, for those who read the target. -/
theorem read_nothing (o : Outside) (known : List Obtained) (epoch : Nat) (target dtype : String)
    (dformat : Nat) (data : Bytes) (filtered : filterData o dtype [] = some data) :
    ReadIn o known epoch target ⟨dtype, dformat, .bytes data⟩ := by
  rw [filterData_nil] at filtered
  cases filtered
  exact .inl rfl

theorem gotProperty_does (fresh : Fresh o s) {atom : Atom} (epoch : atom.epoch = s.offerEpoch)
    (p : Property) : Does o s (gotProperty o s atom p) := by
  have noted := note_fresh fresh (.read atom.epoch atom.target p.dtype p.dformat p.data)
  have logged : .read s.offerEpoch atom.target p.dtype p.dformat p.data ∈
      (s.note (.read atom.epoch atom.target p.dtype p.dformat p.data)).obtained := by
    rw [← epoch]
    exact List.mem_append_right _ (List.mem_singleton_self _)
  have read (data : Bytes) (filtered : filterData o p.dtype p.data = some data) :
      ReadIn o (s.note (.read atom.epoch atom.target p.dtype p.dformat p.data)).obtained s.offerEpoch
        atom.target ⟨p.dtype, p.dformat, .bytes data⟩ :=
    .inr ⟨p.data, data, logged, filtered, rfl⟩
  unfold gotProperty
  dsimp only
  split
  · next same =>
      split
      · exact ⟨raise_fresh noted, .none rfl⟩
      · next targets found =>
          have obtained : TargetsObtained o
              (s.note (.read atom.epoch atom.target p.dtype p.dformat p.data)).obtained s.offerEpoch
              targets := by
            rw [same] at logged
            exact .inr (.inl ⟨_, _, _, (by rw [same]; exact logged), found⟩)
          have does := gotLocalContents_does (setTargets_fresh noted obtained) read
          exact ⟨does.fresh, does.sends⟩
  · have does := gotLocalContents_does noted read
    exact ⟨does.fresh, does.sends⟩

theorem gotIncremental_does (fresh : Fresh o s) {atom : Atom} (epoch : atom.epoch = s.offerEpoch)
    (state : IncrementalData) (p : Property) : Does o s (gotIncremental o s atom state p) := by
  have reset := resetIncrData_fresh fresh atom
  unfold gotIncremental
  dsimp only
  split
  · have does := gotLocalContents_does reset (read_nothing o _ _ atom.target "" 0)
    exact ⟨does.fresh, does.sends⟩
  · split
    · exact ⟨⟨fresh.sound, fresh.within, fresh.given, fresh.filed, fresh.caches, fresh.ordered,
        fresh.received⟩, .none rfl⟩
    · generalize (state.typed p).chunks.flatten = data
      have noted := note_fresh reset (.read atom.epoch atom.target p.dtype p.dformat data)
      have logged : .read s.offerEpoch atom.target p.dtype p.dformat data ∈
          ((s.resetIncrData atom).note
            (.read atom.epoch atom.target p.dtype p.dformat data)).obtained := by
        rw [← epoch]
        exact List.mem_append_right _ (List.mem_singleton_self _)
      have read (data' : Bytes) (filtered : filterData o p.dtype data = some data') :
          ReadIn o ((s.resetIncrData atom).note
              (.read atom.epoch atom.target p.dtype p.dformat data)).obtained
            s.offerEpoch atom.target ⟨p.dtype, p.dformat, .bytes data'⟩ :=
        .inr ⟨data, data', logged, filtered, rfl⟩
      have does := gotLocalContents_does noted read
      exact ⟨does.fresh, does.sends⟩

theorem doPropertyNotify_does (fresh : Fresh o s) (atom : Atom) (property : Option Property) :
    Does o s (doPropertyNotify o s atom property) := by
  unfold doPropertyNotify
  split
  · exact .nothing fresh
  · split
    · exact .nothing fresh
    · next same =>
        rw [ne_eq, not_not] at same
        split
        · exact .nothing fresh
        · next p =>
            split
            · next state _ => exact gotIncremental_does fresh same state p
            · split
              · split
                · exact ⟨⟨fresh.sound, fresh.within, fresh.given, fresh.filed, fresh.caches,
                    fresh.ordered, fresh.received⟩, .none rfl⟩
                · exact ⟨raise_fresh fresh, .none rfl⟩
              · exact gotProperty_does fresh same p

theorem gotNothing_fresh (fresh : Fresh o s) (rr : List String) :
    Fresh o (gotNothing o s rr) ∧ (gotNothing o s rr).tokens = s.tokens := by
  induction rr generalizing s with
  | nil => exact ⟨fresh, rfl⟩
  | cons target rr ih =>
      have plain : ¬ (target = "TARGETS" ∧ ({} : Contents).dtype = "ATOM" ∧
          ({} : Contents).dformat = 32) := by
        rintro ⟨_, other, _⟩
        exact absurd other (by decide)
      have tokens : (gotContents o s s.offerEpoch target {}).tokens = s.tokens := by
        rw [gotContents, if_neg plain, popAndRespond]
        split
        · rfl
        · next pending rest _ =>
            obtain ⟨new, all | some⟩ := respondAll_shape (o := o)
              (s := { s with remoteRequests := rest }) target ({} : Contents).dtype
              ({} : Contents).dformat ({} : Contents).data pending
            · rw [all]
              rfl
            · rw [some]
              rfl
      obtain ⟨after, same⟩ := ih (gotContents_does fresh fun _ => .inl rfl).fresh
      exact ⟨after, same.trans tokens⟩

theorem cleanup_does (fresh : Fresh o s) : Does o s (cleanup o s) := by
  have start : Fresh o { s.resetAllIncrData with remoteRequests := [] } :=
    ⟨fresh.sound, fresh.within, fresh.given, fresh.filed, fresh.caches, fresh.ordered, fresh.received⟩
  obtain ⟨done, tokens⟩ := gotNothing_fresh start (s.resetAllIncrData.remoteRequests.map Prod.fst)
  unfold cleanup
  dsimp only
  generalize gotNothing o { s.resetAllIncrData with remoteRequests := [] }
    (s.resetAllIncrData.remoteRequests.map Prod.fst) = s₁ at done tokens ⊢
  refine ⟨?_, .none tokens⟩
  have plain : ∀ task ∈ (s₁.localRequests.map Prod.fst).map Task.gotLocalContents,
      task ≠ .ownerChanged ∧ ¬ task.isTokenReceived ∧ task.completion? = none := by
    intro task member
    obtain ⟨target, _, rfl⟩ := List.mem_map.mp member
    exact ⟨by simp, id, rfl⟩
  have due : ((s₁.localRequests.map Prod.fst).map Task.gotLocalContents ++ s₁.stack).filterMap
      Task.completion? = s₁.reads.due := by
    rw [List.filterMap_append, List.filterMap_eq_nil_iff.mpr fun task member =>
      (plain task member).2.2, List.nil_append]
    rfl
  apply done.of_less
  · intro x member
    rcases mem_callbacks.mp member with ⟨r, here, _⟩ | ⟨c, here, same⟩
    · cases here
    · change c ∈ ((s₁.localRequests.map Prod.fst).map Task.gotLocalContents ++ s₁.stack).filterMap
        Task.completion? at here
      rw [due] at here
      exact mem_callbacks.mpr (.inr ⟨c, here, same⟩)
  · intro c member
    change c ∈ ((s₁.localRequests.map Prod.fst).map Task.gotLocalContents ++ s₁.stack).filterMap
      Task.completion? at member
    rw [due] at member
    exact .inl member
  · intro entry member
    cases member
  · exact fun _ member => member
  · rfl
  · rfl
  · exact .inl rfl
  · exact done.ordered.append fun task member => (plain task member).1
  · intro task member token
    rcases List.mem_append.mp member with new | old
    · exact absurd token (plain task new).2.1
    · exact old

/-- What is first on the stack is taken off. -/
theorem popped_fresh (fresh : Fresh o s) {task : Task} {rest : List Task}
    (first : s.stack = task :: rest) (plain : task.completion? = none) :
    Fresh o { s with stack := rest } := by
  have due : rest.filterMap Task.completion? = s.reads.due := by
    change _ = s.stack.filterMap Task.completion?
    rw [first, List.filterMap_cons_none plain]
  apply fresh.of_less
  · intro x member
    rcases mem_callbacks.mp member with pending | ⟨c, here, same⟩
    · exact mem_callbacks.mpr (.inl pending)
    · change c ∈ rest.filterMap Task.completion? at here
      rw [due] at here
      exact mem_callbacks.mpr (.inr ⟨c, here, same⟩)
  · intro c member
    change c ∈ rest.filterMap Task.completion? at member
    rw [due] at member
    exact .inl member
  · exact fresh.filed
  · exact fun _ member => member
  · rfl
  · rfl
  · exact .inl rfl
  · have ordered := fresh.ordered
    rw [first] at ordered
    exact ordered.tail
  · intro task' member _
    rw [first]
    exact List.mem_cons_of_mem _ member

/-- The next task is done. -/
theorem run_does (fresh : Fresh o s) {task : Task} {rest : List Task}
    (first : s.stack = task :: rest) (weOwn : Bool) :
    Does o s (task.run o { s with stack := rest } weOwn) := by
  cases task with
  | complete completion => exact complete_does fresh first weOwn
  | running n => exact ⟨popped_fresh fresh first rfl, .none rfl⟩
  | ownerChanged =>
      have last : rest = [] := by
        have ordered := fresh.ordered
        rw [first] at ordered
        exact ordered
      have does := ownerChanged_does (popped_fresh fresh first rfl) last weOwn
      exact ⟨does.fresh, does.sends⟩
  | tokenReceived targets targetData claim synchronousClient =>
      have popped := popped_fresh fresh first rfl
      have before : ∀ x ∈ Proxy.callbacks { s with stack := rest }, ¬ x.2.Current s.offerEpoch := by
        intro x member
        refine fresh.received ⟨.tokenReceived targets targetData claim synchronousClient,
          by rw [first]; exact List.mem_cons_self, trivial⟩ x ?_
        rcases mem_callbacks.mp member with pending | ⟨c, here, same⟩
        · exact mem_callbacks.mpr (.inl pending)
        · refine mem_callbacks.mpr (.inr ⟨c, ?_, same⟩)
          change c ∈ s.stack.filterMap Task.completion?
          rw [first]
          exact here
      have does := tokenReceived_does popped before targets targetData claim synchronousClient
      exact ⟨does.fresh, does.sends⟩
  | gotContents target contents =>
      have popped := popped_fresh fresh first rfl
      have timely : Timely { s with stack := rest } s.offerEpoch target contents := fun _ => .inl rfl
      have does := gotContents_does popped timely
      exact ⟨does.fresh, does.sends⟩
  | gotLocalContents target =>
      have does := gotLocalContents_does (popped_fresh fresh first rfl)
        (read_nothing o _ _ target "" 8)
      exact ⟨does.fresh, does.sends⟩
  | claim =>
      have popped := popped_fresh fresh first rfl
      exact ⟨⟨popped.sound, popped.within, popped.given, popped.filed, popped.caches, popped.ordered,
        popped.received⟩, .none rfl⟩

theorem Untouched.fresh (same : Untouched s s') (fresh : Fresh o s) : Fresh o s' := by
  have callbacks : s'.callbacks = s.callbacks := by
    unfold Proxy.callbacks
    rw [same.reads]
  have table : s'.localRequests = s.localRequests := congrArg Reads.localRequests same.reads
  apply fresh.of_less
  · rw [callbacks]
    exact fun _ member => member
  · rw [same.reads]
    exact fun _ member => .inl member
  · rw [table]
    exact fresh.filed
  · rw [same.obtained]
    exact fun _ member => member
  · exact same.offerEpoch
  · exact same.targetData
  · exact .inl same.targets
  · rw [same.stack]
    exact fresh.ordered
  · rw [same.stack]
    exact fun _ member _ => member

theorem setLocalClipboardOrigin_untouched (s : Proxy) (identity : String) :
    Untouched s (setLocalClipboardOrigin s identity) := by
  unfold setLocalClipboardOrigin
  split
  · exact ⟨⟨rfl, rfl, rfl, rfl, rfl⟩, rfl, rfl, rfl, rfl⟩
  · exact ⟨⟨rfl, rfl, rfl, rfl, rfl⟩, rfl, rfl, rfl, rfl⟩

theorem doSelectionNotifyEvent_does (fresh : Fresh o s) (idle : s.stack = []) (owner timestamp : Nat) :
    Does o s (doSelectionNotifyEvent s owner timestamp) := by
  have owned : Fresh o { s with owned := decide (owner ≠ 0 ∧ owner = s.xid) } :=
    ⟨fresh.sound, fresh.within, fresh.given, fresh.filed, fresh.caches, fresh.ordered, fresh.received⟩
  unfold doSelectionNotifyEvent
  dsimp only
  split
  · exact ⟨owned, .none rfl⟩
  · split
    · exact ⟨invalidate_fresh owned idle rfl, .none rfl⟩
    · split
      · exact ⟨owned, .none rfl⟩
      · have same := setLocalClipboardOrigin_untouched
          { s with owned := decide (owner ≠ 0 ∧ owner = s.xid) }
          ("x11:" ++ String.ofList (Nat.toDigits 16 owner))
        have named := same.fresh owned
        have stack := same.stack.trans idle
        refine ⟨?_, .none same.tokens⟩
        generalize setLocalClipboardOrigin _ _ = s₁ at named stack ⊢
        have known : Fresh o { s₁ with offerOwnerXid := owner, offerSelectionTimestamp := timestamp } :=
          ⟨named.sound, named.within, named.given, named.filed, named.caches, named.ordered,
            named.received⟩
        exact invalidate_fresh known stack rfl

/-- While an offer goes on, the targets that the peer replies with are those it was asked for in the
epoch of the offer. -/
def Prompt (s : Proxy) : Action → Prop
  | .gotContents asked target contents => Timely s asked target contents
  | _ => True

/-- One action of a run. -/
theorem step_does (fresh : Fresh o s) {a : Action} (prompt : Prompt s a) (taken : step o s a s') :
    Does o s s' := by
  cases a with
  | proceed weOwn =>
      obtain ⟨task, rest, first, rfl⟩ := taken
      exact run_does fresh first weOwn
  | getContents target n weOwn =>
      obtain ⟨_, rfl⟩ := taken
      have never : ∀ epoch, ¬ (Callback.caller n).Current epoch := by
        rintro epoch ⟨offer, own, _⟩
        cases own
      have begun : Begun o s target (.caller n) := by
        constructor
        · trivial
        · intro offer own
          cases own
        · exact fun current => absurd current (never _)
        · exact fun current => absurd current (never _)
        · exact fun current => absurd current (never _)
      obtain ⟨after, tokens, _⟩ := getContents_fresh fresh weOwn begun
      exact ⟨after, .none tokens⟩
  | gotToken targets targetData claim synchronousClient =>
      obtain ⟨_, rfl⟩ := taken
      unfold gotToken
      split
      · exact .nothing fresh
      · exact ⟨invalidate_fresh fresh (fresh.ordered.push (by simp)) rfl, .none rfl⟩
  | gotContents asked target contents =>
      obtain ⟨_, rfl⟩ := taken
      exact gotContents_does fresh prompt
  | cleanup =>
      obtain ⟨_, rfl⟩ := taken
      exact cleanup_does fresh
  | claim weOwn | setEnabled enabled | setDirection canSend canReceive | setWantTargets wantTargets
  | setGreedyClient greedy | setPreferredTargets preferredTargets =>
      obtain ⟨_, rfl⟩ := taken
      exact ⟨⟨fresh.sound, fresh.within, fresh.given, fresh.filed, fresh.caches, fresh.ordered,
        fresh.received⟩, .none rfl⟩
  | raised =>
      obtain ⟨_, rfl⟩ := taken
      exact ⟨raise_fresh fresh, .none rfl⟩
  | selectionRequest event =>
      obtain ⟨idle, rfl⟩ := taken
      have same := doSelectionRequestEvent_untouched (o := o) idle event
      exact ⟨same.fresh fresh, .none same.tokens⟩
  | selectionNotify owner timestamp =>
      obtain ⟨idle, rfl⟩ := taken
      exact doSelectionNotifyEvent_does fresh idle owner timestamp
  | selectionClear =>
      obtain ⟨idle, rfl⟩ := taken
      unfold doSelectionClearEvent
      split
      · exact .nothing fresh
      · have left : Fresh o { s with owned := false } :=
          ⟨fresh.sound, fresh.within, fresh.given, fresh.filed, fresh.caches, fresh.ordered,
            fresh.received⟩
        exact ⟨invalidate_fresh left idle rfl, .none rfl⟩
  | propertyNotify atom property =>
      obtain ⟨_, rfl⟩ := taken
      exact doPropertyNotify_does fresh atom property
  | timeout source timer =>
      obtain ⟨_, _, rfl⟩ := taken
      have expired : Fresh o { s with timers := s.timers.remove source } :=
        ⟨fresh.sound, fresh.within, fresh.given, fresh.filed, fresh.caches, fresh.ordered,
          fresh.received⟩
      cases timer with
      | getContents target requestId =>
          have does := timeoutGetContents_does expired target requestId
          exact ⟨does.fresh, does.sends⟩
      | incrData atom =>
          exact ⟨⟨fresh.sound, fresh.within, fresh.given, fresh.filed, fresh.caches, fresh.ordered,
            fresh.received⟩, .none rfl⟩

theorem initial_fresh (first : initial s) : Fresh o s := by
  obtain ⟨xid, selection, originNamespace, rfl⟩ := first
  have none : (newProxy xid selection originNamespace).callbacks = [] := rfl
  constructor
  · rw [none]
    exact fun x member => by cases member
  · rw [none]
    exact fun x member => by cases member
  · exact fun c member => by cases member
  · exact fun entry member => by cases member
  · exact fun _ => ⟨rfl, .inl rfl⟩
  · trivial
  · rw [none]
    exact fun _ x member => by cases member

/-- In every run whose offers are not disturbed by late replies, a token is sent while a local
application owns the selection, and its origin, its targets and its data were all obtained in the
epoch it is sent in. -/
theorem tokens_current (run : Reachable initial (fun s a s' => Prompt s a ∧ step o s a s') s)
    {a : Action} (prompt : Prompt s a) (taken : step o s a s') :
    ∃ new, s'.tokens = s.tokens ++ new ∧ ∀ token, some token ∈ new →
      token.epoch = s'.offerEpoch ∧ s'.owned = false ∧
      .origin s'.offerEpoch token.origin ∈ s'.obtained ∧
      TargetsObtained o s'.obtained s'.offerEpoch token.targets ∧
      ∀ target contents, token.targetData = some (target, contents) →
        Genuine o s'.obtained s'.offerEpoch target contents := by
  have fresh : Fresh o s := by
    refine run.invariant (fun _ => initial_fresh) ?_
    intro s a s' kept taken
    exact (step_does kept taken.1 taken.2).fresh
  obtain ⟨new, sent, own⟩ := (step_does fresh prompt taken).sends
  refine ⟨new, sent, ?_⟩
  intro token member
  obtain ⟨epoch, owned, sound⟩ := own token member
  unfold Token.Sound at sound
  rw [epoch] at sound
  exact ⟨epoch, owned, sound⟩

/-- An X server with two atoms. -/
def textOutside : Outside :=
  { bareOutside with atomName := fun atom => if atom = 5 then "UTF8_STRING" else "image/png" }

def sendingProxy : Proxy := { clipboardProxy with enabled := true, canSend := true, wantTargets := true }

/-- An application takes the selection. -/
def changedProxy : Proxy := doSelectionNotifyEvent sendingProxy 7 1

/-- Its targets are read. -/
def readingProxy : Proxy := Task.run textOutside { changedProxy with stack := [] } false .ownerChanged

/-- It has answered. -/
def answeredProxy : Proxy :=
  doPropertyNotify textOutside readingProxy ⟨1, "TARGETS"⟩ (some ⟨"ATOM", 32, packLong 5⟩)

/-- The token is sent. -/
theorem tokens_current_targets :
    ∃ s' : Proxy, s'.tokens.length = 1 ∧
      ∃ new, s'.tokens = answeredProxy.tokens ++ new ∧ ∀ token, some token ∈ new →
        token.epoch = s'.offerEpoch ∧ s'.owned = false ∧
        .origin s'.offerEpoch token.origin ∈ s'.obtained ∧
        TargetsObtained textOutside s'.obtained s'.offerEpoch token.targets ∧
        ∀ target contents, token.targetData = some (target, contents) →
          Genuine textOutside s'.obtained s'.offerEpoch target contents := by
  have first : initial clipboardProxy := ⟨1, "CLIPBOARD", "origin", rfl⟩
  have sending : Reachable initial (fun s a s' => Prompt s a ∧ step textOutside s a s') sendingProxy :=
    .next (.next (.next (.start first) (a := .setEnabled true) ⟨trivial, .inl rfl, rfl⟩)
      (a := .setDirection true false) ⟨trivial, .inl rfl, rfl⟩)
      (a := .setWantTargets true) ⟨trivial, .inl rfl, rfl⟩
  have changed : Reachable initial (fun s a s' => Prompt s a ∧ step textOutside s a s') changedProxy :=
    .next sending (a := .selectionNotify 7 1) ⟨trivial, rfl, rfl⟩
  have reading : Reachable initial (fun s a s' => Prompt s a ∧ step textOutside s a s') readingProxy :=
    .next changed (a := .proceed false) ⟨trivial, .ownerChanged, [], rfl, rfl⟩
  have answered : Reachable initial (fun s a s' => Prompt s a ∧ step textOutside s a s') answeredProxy :=
    .next reading (a := .propertyNotify ⟨1, "TARGETS"⟩ (some ⟨"ATOM", 32, packLong 5⟩))
      ⟨trivial, rfl, rfl⟩
  refine ⟨_, ?_, tokens_current answered (a := .proceed false) trivial ⟨_, [], rfl, rfl⟩⟩
  decide

/-! ### A late reply -/

/-- The peer only replies to what it was asked for. -/
def Solicited (s : Proxy) : Action → Prop
  | .gotContents asked target _ => (asked, target) ∈ s.requested
  | _ => True

def greedyProxy : Proxy :=
  { clipboardProxy with enabled := true, canSend := true, canReceive := true, greedyClient := true }

/-- The peer claims the selection, without saying which targets it has. -/
def tokenProxy : Proxy := gotToken greedyProxy [] [] true false

def ownedProxy : Proxy :=
  claim { (tokenReceived textOutside { tokenProxy with stack := [] } [] [] true false) with stack := [] }
    true

/-- An application asks for them, and so the peer is asked. -/
def askedProxy : Proxy :=
  doSelectionRequestEvent textOutside ownedProxy ⟨8, "TARGETS", "PROPERTY", 1, false⟩

/-- An application takes the selection. -/
def replacedProxy : Proxy := doSelectionNotifyEvent askedProxy 7 1

/-- Its targets are read, -/
def targetsProxy : Proxy := Task.run textOutside { replacedProxy with stack := [] } false .ownerChanged

def foundProxy : Proxy :=
  doPropertyNotify textOutside targetsProxy ⟨2, "TARGETS"⟩ (some ⟨"ATOM", 32, packLong 5⟩)

/-- and then its text. -/
def textProxy : Proxy :=
  (foundProxy.stack.headD .claim).run textOutside { foundProxy with stack := [] } false

/-- The peer's reply arrives, -/
def lateProxy : Proxy := gotContents textOutside textProxy 1 "TARGETS" ⟨"ATOM", 32, .bytes (packLong 6)⟩

/-- the text is not read in time, -/
def expiredProxy : Proxy :=
  Timer.run { lateProxy with timers := lateProxy.timers.remove 2 } (.getContents "UTF8_STRING" 1)

/-- and the targets of the peer are announced. -/
def announcedProxy : Proxy :=
  (expiredProxy.stack.headD .claim).run textOutside { expiredProxy with stack := [] } false

/-- The state arises in a run whose replies are solicited. -/
def Arises (s : Proxy) : Prop :=
  Reachable initial (fun s a s' => Solicited s a ∧ step textOutside s a s') s

theorem askedProxy_arises : Arises askedProxy := by
  have first : initial clipboardProxy := ⟨1, "CLIPBOARD", "origin", rfl⟩
  have greedy : Arises greedyProxy :=
    .next (.next (.next (.start first) (a := .setEnabled true) ⟨trivial, .inl rfl, rfl⟩)
      (a := .setDirection true true) ⟨trivial, .inl rfl, rfl⟩)
      (a := .setGreedyClient true) ⟨trivial, .inl rfl, rfl⟩
  have token : Arises tokenProxy :=
    .next greedy (a := .gotToken [] [] true false) ⟨trivial, .inl rfl, rfl⟩
  have received : Arises (tokenReceived textOutside { tokenProxy with stack := [] } [] [] true false) :=
    .next token (a := .proceed false) ⟨trivial, .tokenReceived [] [] true false, [], rfl, rfl⟩
  have owned : Arises ownedProxy :=
    .next received (a := .proceed true) ⟨trivial, .claim, [], rfl, rfl⟩
  exact .next owned (a := .selectionRequest ⟨8, "TARGETS", "PROPERTY", 1, false⟩) ⟨trivial, rfl, rfl⟩

theorem expiredProxy_arises : Arises expiredProxy := by
  have replaced : Arises replacedProxy :=
    .next askedProxy_arises (a := .selectionNotify 7 1) ⟨trivial, rfl, rfl⟩
  have targets : Arises targetsProxy :=
    .next replaced (a := .proceed false) ⟨trivial, .ownerChanged, [], rfl, rfl⟩
  have found : Arises foundProxy :=
    .next targets (a := .propertyNotify ⟨2, "TARGETS"⟩ (some ⟨"ATOM", 32, packLong 5⟩))
      ⟨trivial, rfl, rfl⟩
  have text : Arises textProxy := .next found (a := .proceed false) ⟨trivial, _, [], rfl, rfl⟩
  have late : Arises lateProxy :=
    .next text (a := .gotContents 1 "TARGETS" ⟨"ATOM", 32, .bytes (packLong 6)⟩)
      ⟨List.mem_singleton_self _, .inl rfl, rfl⟩
  exact .next late (a := .timeout 2 (.getContents "UTF8_STRING" 1))
    ⟨trivial, rfl, List.mem_singleton_self _, rfl⟩

theorem not_tokens_current :
    ¬ ∀ o s a s', Reachable initial (fun s a s' => Solicited s a ∧ step o s a s') s → Solicited s a →
      step o s a s' → ∃ new, s'.tokens = s.tokens ++ new ∧ ∀ token, some token ∈ new →
        TargetsObtained o s'.obtained s'.offerEpoch token.targets := by
  intro current
  obtain ⟨new, sent, obtained⟩ := current textOutside expiredProxy (.proceed false) announcedProxy
    expiredProxy_arises trivial ⟨_, [], rfl, rfl⟩
  have known : announcedProxy.obtained = [.origin 2 "origin:CLIPBOARD:x11:7",
      .read 2 "TARGETS" "ATOM" 32 (packLong 5), .remoteTargets 1 ["image/png"]] := rfl
  have targets := obtained ⟨2, ["image/png"], none, "origin:CLIPBOARD:x11:7", 2⟩ (by
    have own : new = announcedProxy.tokens := sent.symm
    rw [own]
    exact List.mem_singleton_self _)
  rcases targets with none | ⟨dtype, dformat, data, read, atoms⟩ | remote
  · cases none
  · rw [known] at read
    simp only [List.mem_cons, reduceCtorEq, List.not_mem_nil, false_or, or_false] at read
    cases read
    exact absurd atoms (by decide)
  · rw [known] at remote
    simp only [List.mem_cons, reduceCtorEq, List.not_mem_nil, false_or, or_false] at remote
    cases remote

end Catlink.X11.Selection
