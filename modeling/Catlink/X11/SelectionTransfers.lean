import Catlink.X11.SelectionTokens
import Mathlib.Logic.Function.Basic

/-! What the owners of a selection answer, in one piece or incrementally, and what the reads are
given of it. -/

namespace Catlink.X11.Selection

open MainLoop Clipboard Runs

/-! ### Replies -/

/-- A property that is not the header of an incremental transfer. -/
structure Piece extends Property where
  typed : dtype ≠ "INCR"

/-- A part of an incremental transfer. -/
structure Chunk extends Piece where
  filled : data ≠ []

/-- What an owner answers to a conversion. -/
inductive Reply
  | plain (piece : Piece)
  | incremental (size : Nat) (chunks : List Chunk) (ending : Piece) (ended : ending.data = [])

/-- The complete data. -/
def Reply.data : Reply → Bytes
  | .plain piece => piece.data
  | .incremental _ chunks _ _ => (chunks.map fun chunk => chunk.data).flatten

/-- What is put into the property, one after the other. -/
def Reply.pieces : Reply → List Property
  | .plain piece => [piece.toProperty]
  | .incremental size chunks ending _ =>
      ⟨"INCR", 32, packLong size⟩ ::
        (chunks.map (fun chunk => chunk.toProperty) ++ [ending.toProperty])

/-! ### Sessions -/

/-- A proxy and the owners that answer its conversions. -/
structure Session where
  proxy : Proxy
  /-- how many pieces of the reply to a conversion have arrived -/
  arrived : Nat → Nat := fun _ => 0
  /-- the conversion whose transfer a property had the header of -/
  started : Atom → Nat := fun _ => 0

inductive Move
  /-- anything but the arrival of a piece -/
  | act (a : Action)
  /-- the next piece of the reply to a conversion -/
  | arrive (conversion : Nat)

variable (replies : Nat → Reply)

/-- The property that a conversion puts its reply into, and the next piece of it. -/
def Session.Next (s : Session) (conversion : Nat) (atom : Atom) (p : Property) : Prop :=
  s.proxy.conversions[conversion]? = some atom ∧
    (replies conversion).pieces[s.arrived conversion]? = some p

/-- A piece has arrived. A property that is not read is not deleted, and its owner goes no
further. -/
def Session.arrive (o : Outside) (s : Session) (conversion : Nat) (atom : Atom) (p : Property) :
    Session where
  proxy := doPropertyNotify o s.proxy atom (some p)
  arrived :=
    if s.proxy.enabled = false then s.arrived
    else Function.update s.arrived conversion (s.arrived conversion + 1)
  started :=
    if p.dtype = "INCR" ∧ Dict.get s.proxy.incrData atom = none
    then Function.update s.started atom conversion else s.started

/-- The property changes only as the owners answer; it can be gone when it is read. -/
def Action.Foreign : Action → Prop
  | .propertyNotify _ (some _) => False
  | _ => True

def Session.step (o : Outside) (s : Session) (m : Move) (s' : Session) : Prop :=
  match m with
  | .act a => a.Foreign ∧ ∃ proxy, Selection.step o s.proxy a proxy ∧ s' = { s with proxy := proxy }
  | .arrive conversion =>
      s.proxy.stack = [] ∧ ∃ atom p, s.Next replies conversion atom p ∧
        s' = s.arrive o conversion atom p

def Session.initial (s : Session) : Prop := ∃ proxy, Selection.initial proxy ∧ s = { proxy := proxy }

/-- The contents are empty, or they are all the data of the reply to one conversion of the
target. -/
def Whole (o : Outside) (s : Session) (target : String) (contents : Contents) : Prop :=
  contents.data = .bytes [] ∨
    ∃ (conversion : Nat) (atom : Atom) (data : Bytes),
      s.proxy.conversions[conversion]? = some atom ∧ atom.target = target ∧
        filterData o contents.dtype (replies conversion).data = some data ∧
        contents.data = .bytes data

/-- A piece comes where it is expected: the transfer that goes on in its property is its own, or
ends because of another type; without one it is the first of its reply, or nobody waits for it. -/
def Session.Expected (s : Session) (conversion : Nat) (atom : Atom) (p : Property) : Prop :=
  match Dict.get s.proxy.incrData atom with
  | some state =>
      s.started atom = conversion ∨
        (state.dtype ≠ "" ∧ (state.dtype, state.dformat) ≠ (p.dtype, p.dformat))
  | none => s.arrived conversion = 0 ∨ Dict.get s.proxy.localRequests atom.target = none

/-- The pieces that are read come where they are expected. -/
def Move.Clean (s : Session) : Move → Prop
  | .act _ => True
  | .arrive conversion => ∀ atom p, s.Next replies conversion atom p →
      s.proxy.enabled = true → atom.epoch = s.proxy.offerEpoch → s.Expected conversion atom p

/-! ### What the other steps give -/

/-- The callbacks that were called or are about to be. -/
def Proxy.given (s : Proxy) : List Completion := s.completed ++ s.reads.due

variable {replies : Nat → Reply} {o : Outside} {s s' : Proxy}

theorem mem_given {completion : Completion} :
    completion ∈ s.given ↔ completion ∈ s.completed ∨ completion ∈ s.reads.due :=
  List.mem_append

/-- No transfer begins or goes on, and those who waited are given nothing. -/
structure Steady (s s' : Proxy) : Prop where
  given : ∀ completion ∈ s'.given, completion ∈ s.given ∨ completion.timer = none ∨
    completion.contents.data = .bytes []
  transfers : ∀ atom state, Dict.get s'.incrData atom = some state →
    Dict.get s.incrData atom = some state ∧ s'.offerEpoch = s.offerEpoch
  conversions : s.conversions <+: s'.conversions
  filed : Filed s.localRequests → Filed s'.localRequests

theorem Steady.refl (s : Proxy) : Steady s s :=
  ⟨fun _ member => .inl member, fun _ _ found => ⟨found, rfl⟩, List.prefix_rfl, id⟩

theorem Steady.trans {s₁ s₂ s₃ : Proxy} (one : Steady s₁ s₂) (two : Steady s₂ s₃) : Steady s₁ s₃ where
  given := by
    intro completion member
    rcases two.given completion member with old | new
    · exact one.given completion old
    · exact .inr new
  transfers := by
    intro atom state found
    obtain ⟨between, later⟩ := two.transfers atom state found
    obtain ⟨before, sooner⟩ := one.transfers atom state between
    exact ⟨before, later.trans sooner⟩
  conversions := one.conversions.trans two.conversions
  filed := fun filed => two.filed (one.filed filed)

/-- A step that calls nobody. -/
theorem Steady.of_less (completed : s'.completed = s.completed)
    (due : ∀ completion ∈ s'.reads.due, completion ∈ s.reads.due)
    (transfers : ∀ atom state, Dict.get s'.incrData atom = some state →
      Dict.get s.incrData atom = some state)
    (offerEpoch : s'.offerEpoch = s.offerEpoch) (conversions : s'.conversions = s.conversions)
    (filed : Filed s.localRequests → Filed s'.localRequests) : Steady s s' where
  given completion member := by
    rcases mem_given.mp member with done | still
    · rw [completed] at done
      exact .inl (mem_given.mpr (.inl done))
    · exact .inl (mem_given.mpr (.inr (due completion still)))
  transfers atom state found := ⟨transfers atom state found, offerEpoch⟩
  conversions := ⟨[], by rw [List.append_nil, conversions]⟩
  filed := filed

theorem Steady.of_reads (reads : s'.reads = s.reads) (offerEpoch : s'.offerEpoch = s.offerEpoch)
    (conversions : s'.conversions = s.conversions) : Steady s s' := by
  have transfers : s'.incrData = s.incrData := congrArg Reads.incrData reads
  have requests : s'.localRequests = s.localRequests := congrArg Reads.localRequests reads
  refine .of_less (congrArg Reads.completed reads) ?_ ?_ offerEpoch conversions (requests ▸ id)
  · rw [reads]
    exact fun _ member => member
  · rw [transfers]
    exact fun _ _ found => found

/-- More callbacks are about to be called. -/
theorem Steady.of_due (new : List Completion) (completed : s'.completed = s.completed)
    (due : s'.reads.due = new ++ s.reads.due)
    (given : ∀ completion ∈ new, completion.timer = none ∨ completion.contents.data = .bytes [])
    (transfers : ∀ atom state, Dict.get s'.incrData atom = some state →
      Dict.get s.incrData atom = some state ∧ s'.offerEpoch = s.offerEpoch)
    (conversions : s.conversions <+: s'.conversions)
    (filed : Filed s.localRequests → Filed s'.localRequests) : Steady s s' where
  given completion member := by
    rw [mem_given, completed, due, List.mem_append] at member
    rcases member with done | here | still
    · exact .inl (mem_given.mpr (.inl done))
    · exact .inr (given completion here)
    · exact .inl (mem_given.mpr (.inr still))
  transfers := transfers
  conversions := conversions
  filed := filed

theorem getContents_steady (s : Proxy) (weOwn : Bool) (target : String) (callback : Callback) :
    Steady s (getContents o s weOwn target callback) := by
  unfold getContents
  split
  · next contents _ =>
      exact .of_due [⟨s.calls, target, callback, contents, none⟩] rfl rfl (by simp)
        (fun _ _ found => ⟨found, rfl⟩) List.prefix_rfl id
  · split
    · exact .of_due [⟨s.calls, target, callback, ⟨"", 0, .bytes []⟩, none⟩] rfl rfl (by simp)
        (fun _ _ found => ⟨found, rfl⟩) List.prefix_rfl id
    · refine .of_due [] rfl rfl (by simp) (fun _ _ found => ⟨found, rfl⟩) ?_ ?_
      · dsimp only
        split
        · exact List.prefix_append _ _
        · exact List.prefix_rfl
      · exact fun filed => filed.appendTo ⟨target, s.localRequestCounter, s.timers.next, s.calls, callback⟩

theorem Quiet.steady (quiet : Quiet s s') : Steady s s' := .of_reads quiet.reads quiet.offerEpoch quiet.conversions

theorem Chains.steady (chains : Chains o s s') : Steady s s' := by
  rcases chains with quiet | ⟨before, weOwn, target, callback, quiet, rfl⟩
  · exact quiet.steady
  · exact quiet.steady.trans (getContents_steady before weOwn target callback)

theorem Answers.steady (same : Answers s s') : Steady s s' := .of_reads same.reads same.offerEpoch same.conversions

/-- Those who waited are given nothing. -/
theorem empty_given (requests : List LocalRequest) (give : LocalRequest → Contents)
    (empty : ∀ r ∈ requests, (give r).data = .bytes []) :
    ∀ completion ∈ (requests.map fun r => r.complete (give r)).filterMap Task.completion?,
      completion.timer = none ∨ completion.contents.data = .bytes [] := by
  intro completion member
  obtain ⟨task, here, same⟩ := List.mem_filterMap.mp member
  obtain ⟨r, within, rfl⟩ := List.mem_map.mp here
  cases same
  exact .inr (empty r within)

theorem emptyContents_data (target : String) : (emptyContents target).data = .bytes [] := by
  unfold emptyContents
  split <;> rfl

theorem invalidateLocalReads_steady (s : Proxy) : Steady s (invalidateLocalReads s) := by
  refine .of_due _ rfl ?_ (empty_given (s.localRequests.flatMap Prod.snd)
    (fun r => emptyContents r.target) fun r _ => emptyContents_data r.target) ?_ List.prefix_rfl
    fun _ => List.forall_mem_nil _
  · change List.filterMap Task.completion? (_ ++ _) = _
    rw [List.filterMap_append]
    rfl
  · intro atom state found
    cases found

theorem timeoutGetContents_steady (s : Proxy) (target : String) (requestId : Nat) :
    Steady s (timeoutGetContents s target requestId) := by
  unfold timeoutGetContents
  split
  · exact .refl s
  · next requests found =>
    split
    · exact .refl s
    · next r _ =>
        refine .of_due [⟨r.call, r.target, r.callback, emptyContents target, some r.timer⟩] rfl rfl ?_
          (fun _ _ found => ⟨found, rfl⟩) List.prefix_rfl ?_
        · intro completion member
          rw [List.mem_singleton.mp member]
          exact .inr (emptyContents_data target)
        · exact fun filed => filed.timeout found fun r' within => (List.mem_filter.mp within).1

theorem gotLocalContents_steady (s : Proxy) (target dtype : String) (dformat : Nat) :
    Steady s (gotLocalContents o s target dtype dformat []) := by
  unfold gotLocalContents
  rw [filterData_nil]
  dsimp only
  split
  · exact .refl s
  · next requests rest popped =>
      refine .of_due _ rfl ?_ (empty_given requests (fun _ => ⟨dtype, dformat, .bytes []⟩)
        fun r _ => rfl) (fun _ _ found => ⟨found, rfl⟩) List.prefix_rfl fun filed => filed.pop popped
      change List.filterMap Task.completion? (_ ++ _) = _
      rw [List.filterMap_append]
      rfl

theorem incrDataTimeout_steady (s : Proxy) (atom : Atom) : Steady s (incrDataTimeout s atom) :=
  .of_less rfl (fun _ member => member) (fun _ _ found => Dict.get_of_erase found) rfl rfl id

theorem raise_steady (s : Proxy) : Steady s s.raise :=
  .of_less rfl (fun _ member => by cases member) (fun _ _ found => found) rfl rfl id

/-- Something else is left to do. -/
theorem push_steady (s : Proxy) {task : Task} (plain : task.completion? = none) :
    Steady s (s.push task) := by
  refine .of_less rfl ?_ (fun _ _ found => found) rfl rfl id
  intro completion member
  change completion ∈ (task :: s.stack).filterMap Task.completion? at member
  rw [List.filterMap_cons_none plain] at member
  exact member

theorem popAndRespond_steady (s : Proxy) (target : String) (contents : Contents) :
    Steady s (popAndRespond o s target contents) := by
  unfold popAndRespond
  split
  · exact .refl s
  · next pending rest _ =>
      obtain ⟨new, all | some⟩ := respondAll_shape (o := o) (s := { s with remoteRequests := rest })
        target contents.dtype contents.dformat contents.data pending
      · rw [all]
        exact .of_reads rfl rfl rfl
      · rw [some]
        have answered : Steady s (Proxy.answers { s with remoteRequests := rest } new) :=
          .of_reads rfl rfl rfl
        exact answered.trans (raise_steady _)

theorem gotContents_steady (s : Proxy) (asked : Nat) (target : String) (contents : Contents) :
    Steady s (gotContents o s asked target contents) := by
  unfold gotContents
  split
  · split
    · exact raise_steady s
    · next targets _ =>
        have noted : Steady s ((s.setTargets targets).note (.remoteTargets asked targets)) :=
          .of_reads rfl rfl rfl
        exact noted.trans (popAndRespond_steady _ target contents)
  · exact popAndRespond_steady s target contents

theorem gotNothing_steady (s : Proxy) (rr : List String) : Steady s (gotNothing o s rr) := by
  induction rr generalizing s with
  | nil => exact .refl s
  | cons target rr ih => exact (gotContents_steady s _ target {}).trans (ih _)

theorem tokenReceived_steady (s : Proxy) (targets : List String)
    (targetData : List (String × Contents)) (claim synchronousClient : Bool) :
    Steady s (tokenReceived o s targets targetData claim synchronousClient) := by
  unfold tokenReceived
  dsimp only
  split
  · exact .of_reads rfl rfl rfl
  · split
    · exact .of_reads rfl rfl rfl
    · refine .of_less rfl ?_ (fun _ _ found => found) rfl rfl id
      intro completion member
      obtain ⟨task, here, same⟩ := List.mem_filterMap.mp member
      rcases List.mem_append.mp here with new | old
      · rcases mem_claimTasks new with rfl | ⟨_, _, rfl, _⟩
        · cases same
        · cases same
      · exact List.mem_filterMap.mpr ⟨task, old, same⟩

theorem cleanup_steady (s : Proxy) : Steady s (cleanup o s) := by
  have reset : Steady s { s.resetAllIncrData with remoteRequests := [] } := by
    refine .of_less rfl (fun _ member => member) ?_ rfl rfl id
    intro atom state found
    cases found
  refine (reset.trans (gotNothing_steady (o := o) _ (s.remoteRequests.map Prod.fst))).trans ?_
  refine .of_less rfl ?_ (fun _ _ found => found) rfl rfl fun _ => List.forall_mem_nil _
  intro completion member
  obtain ⟨task, here, same⟩ := List.mem_filterMap.mp member
  rcases List.mem_append.mp here with new | old
  · obtain ⟨target, _, rfl⟩ := List.mem_map.mp new
    cases same
  · exact List.mem_filterMap.mpr ⟨task, old, same⟩

theorem complete_steady {completion : Completion} {rest : List Task}
    (first : s.stack = .complete completion :: rest) (weOwn : Bool) :
    Steady s (complete o { s with stack := rest } weOwn completion) := by
  have due : s.reads.due = completion :: rest.filterMap Task.completion? := by
    change s.stack.filterMap Task.completion? = _
    rw [first]
    rfl
  have called : Steady s { s with
      stack := rest
      timers := completion.timer.elim s.timers s.timers.remove
      completed := s.completed ++ [completion] } := by
    refine ⟨?_, fun _ _ found => ⟨found, rfl⟩, List.prefix_rfl, id⟩
    intro completion' member
    left
    rw [mem_given, due]
    rcases mem_given.mp member with done | still
    · rcases List.mem_append.mp done with before | now
      · exact .inl before
      · exact .inr (List.mem_cons.mpr (.inl (List.mem_singleton.mp now)))
    · exact .inr (List.mem_cons_of_mem _ still)
  unfold complete
  dsimp only
  refine called.trans ?_
  generalize ({ s with
      stack := rest
      timers := completion.timer.elim s.timers s.timers.remove
      completed := s.completed ++ [completion] } : Proxy) = now
  split
  · exact push_steady now rfl
  · exact (gotTargets_chains now weOwn _ _).steady
  · exact (gotFiles_chains now weOwn _ _ _ _).steady
  · exact (gotChosenTarget_quiet now _ _ _ _ _).steady

theorem run_steady {task : Task} {rest : List Task} (first : s.stack = task :: rest) (weOwn : Bool) :
    Steady s (task.run o { s with stack := rest } weOwn) := by
  have popped : Steady s { s with stack := rest } := by
    refine .of_less rfl ?_ (fun _ _ found => found) rfl rfl id
    intro completion member
    obtain ⟨task', here, same⟩ := List.mem_filterMap.mp member
    refine List.mem_filterMap.mpr ⟨task', ?_, same⟩
    rw [first]
    exact List.mem_cons_of_mem _ here
  cases task with
  | complete completion => exact complete_steady first weOwn
  | running n => exact popped
  | ownerChanged => exact popped.trans (ownerChanged_chains _ weOwn).steady
  | tokenReceived targets targetData claim synchronousClient =>
      exact popped.trans (tokenReceived_steady _ targets targetData claim synchronousClient)
  | gotContents target contents => exact popped.trans (gotContents_steady _ _ target contents)
  | gotLocalContents target => exact popped.trans (gotLocalContents_steady (o := o) _ target "" 8)
  | claim => exact popped.trans (.of_reads rfl rfl rfl)

theorem doOwnerChanged_steady (s : Proxy) : Steady s (doOwnerChanged s) :=
  (push_steady s rfl).trans (invalidateLocalReads_steady _)

theorem doSelectionNotifyEvent_steady (s : Proxy) (owner timestamp : Nat) :
    Steady s (doSelectionNotifyEvent s owner timestamp) := by
  unfold doSelectionNotifyEvent
  dsimp only
  have owned : Steady s { s with owned := decide (owner ≠ 0 ∧ owner = s.xid) } := .of_reads rfl rfl rfl
  split
  · exact owned
  · split
    · exact owned.trans (doOwnerChanged_steady _)
    · split
      · exact owned
      · refine Steady.trans ?_ (doOwnerChanged_steady _)
        unfold setLocalClipboardOrigin
        split <;> exact .of_reads rfl rfl rfl

theorem timeout_steady (s : Proxy) (source : Nat) (timer : Timer) :
    Steady s (timer.run { s with timers := s.timers.remove source }) := by
  have removed : Steady s { s with timers := s.timers.remove source } :=
    .of_less rfl (fun _ member => member) (fun _ _ found => found) rfl rfl id
  cases timer with
  | getContents target requestId => exact removed.trans (timeoutGetContents_steady _ target requestId)
  | incrData atom => exact removed.trans (incrDataTimeout_steady _ atom)

/-- Without a property to read, no transfer goes on. -/
theorem step_steady {a : Action} (foreign : a.Foreign) (taken : step o s a s') : Steady s s' := by
  cases a with
  | proceed weOwn =>
      obtain ⟨task, rest, first, rfl⟩ := taken
      exact run_steady first weOwn
  | getContents target n weOwn =>
      obtain ⟨_, rfl⟩ := taken
      exact getContents_steady s weOwn target (.caller n)
  | gotToken targets targetData claim synchronousClient =>
      obtain ⟨_, rfl⟩ := taken
      unfold gotToken
      split
      · exact .refl s
      · exact (push_steady s rfl).trans (invalidateLocalReads_steady _)
  | gotContents asked target contents =>
      obtain ⟨_, rfl⟩ := taken
      exact gotContents_steady s asked target contents
  | cleanup =>
      obtain ⟨_, rfl⟩ := taken
      exact cleanup_steady s
  | claim weOwn | setEnabled enabled | setDirection canSend canReceive | setWantTargets wantTargets
  | setGreedyClient greedy | setPreferredTargets preferredTargets =>
      obtain ⟨_, rfl⟩ := taken
      exact .of_reads rfl rfl rfl
  | raised =>
      obtain ⟨_, rfl⟩ := taken
      exact raise_steady s
  | selectionRequest event =>
      obtain ⟨idle, rfl⟩ := taken
      exact (doSelectionRequestEvent_untouched idle event).toAnswers.steady
  | selectionNotify owner timestamp =>
      obtain ⟨_, rfl⟩ := taken
      exact doSelectionNotifyEvent_steady s owner timestamp
  | selectionClear =>
      obtain ⟨_, rfl⟩ := taken
      unfold doSelectionClearEvent
      split
      · exact .refl s
      · have owned : Steady s { s with owned := false } := .of_reads rfl rfl rfl
        exact owned.trans (doOwnerChanged_steady _)
  | propertyNotify atom property =>
      obtain ⟨idle, rfl⟩ := taken
      cases property with
      | some p => exact absurd foreign id
      | none =>
          unfold doPropertyNotify
          split
          · exact .refl s
          · split <;> exact .refl s
  | timeout source timer =>
      obtain ⟨_, _, rfl⟩ := taken
      exact timeout_steady s source timer

/-! ### Pieces of a reply -/

/-- Only the first piece is a header. -/
theorem pieces_header {reply : Reply} {n : Nat} {p : Property} (found : reply.pieces[n]? = some p)
    (header : p.dtype = "INCR") :
    n = 0 ∧ ∃ size chunks ending ended, reply = .incremental size chunks ending ended := by
  cases reply with
  | plain piece =>
      have member := List.mem_of_getElem? found
      rw [Reply.pieces, List.mem_singleton] at member
      rw [member] at header
      exact absurd header piece.typed
  | incremental size chunks ending ended =>
      refine ⟨?_, size, chunks, ending, ended, rfl⟩
      cases n with
      | zero => rfl
      | succ n =>
          rw [Reply.pieces, List.getElem?_cons_succ] at found
          rcases List.mem_append.mp (List.mem_of_getElem? found) with part | last
          · obtain ⟨chunk, _, rfl⟩ := List.mem_map.mp part
            exact absurd header chunk.typed
          · rw [List.mem_singleton.mp last] at header
            exact absurd header ending.typed

/-- A first piece that is not a header is all there is. -/
theorem pieces_plain {reply : Reply} {p : Property} (found : reply.pieces[0]? = some p)
    (plain : p.dtype ≠ "INCR") : reply.data = p.data := by
  cases reply with
  | plain piece =>
      rw [Reply.pieces, List.getElem?_cons_zero] at found
      cases found
      rfl
  | incremental size chunks ending ended =>
      rw [Reply.pieces, List.getElem?_cons_zero] at found
      cases found
      exact absurd rfl plain

/-- What follows the header: the chunks, and the piece that ends them. -/
theorem pieces_part {size : Nat} {chunks : List Chunk} {ending : Piece} {ended : ending.data = []}
    {n : Nat} {p : Property}
    (found : (Reply.incremental size chunks ending ended).pieces[n + 1]? = some p) :
    (chunks.map fun chunk => chunk.data)[n]? = some p.data ∧ p.data ≠ [] ∨
      n = chunks.length ∧ p.data = [] := by
  rw [Reply.pieces, List.getElem?_cons_succ] at found
  rcases Nat.lt_or_ge n chunks.length with part | last
  · left
    rw [List.getElem?_append_left (by rw [List.length_map]; exact part), List.getElem?_map,
      List.getElem?_eq_getElem part] at found
    cases found
    rw [List.getElem?_map, List.getElem?_eq_getElem part]
    exact ⟨rfl, chunks[n].filled⟩
  · right
    rw [List.getElem?_append_right (by rw [List.length_map]; exact last), List.length_map] at found
    have only : n - chunks.length = 0 := by
      have below := (List.getElem?_eq_some_iff.mp found).1
      rw [List.length_singleton] at below
      omega
    rw [only, List.getElem?_cons_zero] at found
    cases found
    exact ⟨by omega, ended⟩

theorem prefix_getElem? {α : Type} {before all : List α} (start : before <+: all) {n : Nat} {x : α}
    (known : before[n]? = some x) : all[n]? = some x := by
  obtain ⟨later, rfl⟩ := start
  rw [List.getElem?_append_left (List.getElem?_eq_some_iff.mp known).1]
  exact known

/-- The next element extends a prefix. -/
theorem prefix_extend {α : Type} {before all : List α} {x : α} (start : before <+: all)
    (next : all[before.length]? = some x) : before ++ [x] <+: all := by
  have taken := List.prefix_iff_eq_take.mp start
  rw [List.prefix_iff_eq_take, List.length_append, List.length_singleton, List.take_add_one, next,
    ← taken]
  rfl

/-! ### What a session keeps -/

/-- The transfer of a property: the first chunks of the reply whose header it had. -/
structure Transfers (replies : Nat → Reply) (s : Session) (atom : Atom) (state : IncrementalData) :
    Prop where
  epoch : atom.epoch = s.proxy.offerEpoch
  conversion : s.proxy.conversions[s.started atom]? = some atom
  arrived : s.arrived (s.started atom) = state.chunks.length + 1
  chunks : ∃ size chunks ending ended, replies (s.started atom) = .incremental size chunks ending ended ∧
    state.chunks <+: chunks.map fun chunk => chunk.data

structure Unmixed (o : Outside) (replies : Nat → Reply) (s : Session) : Prop where
  filed : Filed s.proxy.localRequests
  given : ∀ completion ∈ s.proxy.given, completion.timer ≠ none →
    Whole replies o s completion.target completion.contents
  transfers : ∀ atom state, Dict.get s.proxy.incrData atom = some state →
    Transfers replies s atom state

variable {session session' : Session}

theorem Whole.mono (more : session.proxy.conversions <+: session'.proxy.conversions) {target : String}
    {contents : Contents} (complete : Whole replies o session target contents) :
    Whole replies o session' target contents := by
  rcases complete with empty | ⟨conversion, atom, data, known, rest⟩
  · exact .inl empty
  · exact .inr ⟨conversion, atom, data, prefix_getElem? more known, rest⟩

theorem act_unmixed (unmixed : Unmixed o replies session) {a : Action} (foreign : a.Foreign)
    {proxy : Proxy} (taken : step o session.proxy a proxy) :
    Unmixed o replies { session with proxy := proxy } := by
  have steady := step_steady foreign taken
  constructor
  · exact steady.filed unmixed.filed
  · intro completion member waited
    rcases steady.given completion member with old | atOnce | empty
    · exact (unmixed.given completion old waited).mono steady.conversions
    · exact absurd atOnce waited
    · exact .inl empty
  · intro atom state found
    obtain ⟨before, epoch⟩ := steady.transfers atom state found
    have transfers := unmixed.transfers atom state before
    exact ⟨transfers.epoch.trans epoch.symm, prefix_getElem? steady.conversions transfers.conversion,
      transfers.arrived, transfers.chunks⟩

/-- What the arrival of a piece leaves as it is. -/
structure Around (session session' : Session) (conversion : Nat) (atom : Atom) : Prop where
  conversions : session'.proxy.conversions = session.proxy.conversions
  offerEpoch : session'.proxy.offerEpoch = session.proxy.offerEpoch
  arrived : ∀ other, other ≠ conversion → session'.arrived other = session.arrived other
  started : ∀ other, other ≠ atom → session'.started other = session.started other
  transfers : ∀ other, other ≠ atom →
    Dict.get session'.proxy.incrData other = Dict.get session.proxy.incrData other

/-- The transfers of other properties do not see it. -/
theorem Around.unmixed {conversion : Nat} {atom : Atom}
    (around : Around session session' conversion atom) (unmixed : Unmixed o replies session)
    (filed : Filed session'.proxy.localRequests)
    (known : session.proxy.conversions[conversion]? = some atom)
    (given : ∀ completion ∈ session'.proxy.given, completion ∈ session.proxy.given ∨
      Whole replies o session completion.target completion.contents)
    (own : ∀ state, Dict.get session'.proxy.incrData atom = some state →
      Transfers replies session' atom state) : Unmixed o replies session' := by
  have more : session.proxy.conversions <+: session'.proxy.conversions :=
    ⟨[], by rw [List.append_nil, around.conversions]⟩
  constructor
  · exact filed
  · intro completion member waited
    rcases given completion member with old | new
    · exact (unmixed.given completion old waited).mono more
    · exact new.mono more
  · intro other state found
    by_cases same : other = atom
    · rw [same] at found ⊢
      exact own state found
    · rw [around.transfers other same] at found
      obtain ⟨epoch, conversion', arrived, chunks⟩ := unmixed.transfers other state found
      have apart : session.started other ≠ conversion := by
        intro here
        rw [here, known, Option.some.injEq] at conversion'
        exact same conversion'.symm
      rw [← around.started other same] at conversion' arrived chunks apart
      constructor
      · rw [around.offerEpoch]
        exact epoch
      · rw [around.conversions]
        exact conversion'
      · rw [around.arrived _ apart]
        exact arrived
      · exact chunks

/-- Those who wait for the target may be given the data, and nobody else anything. -/
structure Gives (o : Outside) (s s' : Proxy) (target dtype : String) (data : Bytes) : Prop where
  given : ∀ completion ∈ s'.given, completion ∈ s.given ∨
    (Dict.get s.localRequests target ≠ none ∧ completion.target = target ∧
      completion.contents.dtype = dtype ∧
      ∃ filtered, filterData o dtype data = some filtered ∧
        completion.contents.data = .bytes filtered)
  transfers : s'.incrData = s.incrData
  conversions : s'.conversions = s.conversions
  offerEpoch : s'.offerEpoch = s.offerEpoch
  filed : Filed s'.localRequests

theorem raise_gives (filed : Filed s.localRequests) (target dtype : String) (data : Bytes) :
    Gives o s s.raise target dtype data := by
  refine ⟨?_, rfl, rfl, rfl, filed⟩
  intro completion member
  rcases mem_given.mp member with done | none
  · exact .inl (mem_given.mpr (.inl done))
  · cases none

theorem gotLocalContents_gives (filed : Filed s.localRequests) (target dtype : String) (dformat : Nat)
    (data : Bytes) : Gives o s (gotLocalContents o s target dtype dformat data) target dtype data := by
  unfold gotLocalContents
  split
  · exact raise_gives filed target dtype data
  · next filtered kept =>
      split
      · exact ⟨fun _ member => .inl member, rfl, rfl, rfl, filed⟩
      · next requests rest popped =>
          refine ⟨?_, rfl, rfl, rfl, filed.pop popped⟩
          intro completion member
          have here : (target, requests) ∈ s.localRequests :=
            (Dict.pop_perm popped).mem_iff.mpr List.mem_cons_self
          rcases mem_given.mp member with done | still
          · exact .inl (mem_given.mpr (.inl done))
          · obtain ⟨task, within, called⟩ := List.mem_filterMap.mp still
            rcases List.mem_append.mp within with new | old
            · obtain ⟨r, waiting, rfl⟩ := List.mem_map.mp new
              cases called
              refine .inr ⟨?_, filed _ here r waiting, rfl, filtered, kept, rfl⟩
              intro absent
              exact Dict.get_none absent _ here rfl
            · exact .inl (mem_given.mpr (.inr (List.mem_filterMap.mpr ⟨task, old, called⟩)))

theorem gotProperty_gives (filed : Filed s.localRequests) (atom : Atom) (p : Property) :
    Gives o s (gotProperty o s atom p) atom.target p.dtype p.data := by
  unfold gotProperty
  dsimp only
  split
  · split
    · have gives := raise_gives (o := o)
        (s := s.note (.read atom.epoch atom.target p.dtype p.dformat p.data)) filed atom.target p.dtype
        p.data
      exact ⟨gives.given, gives.transfers, gives.conversions, gives.offerEpoch, gives.filed⟩
    · next targets _ =>
        have gives := gotLocalContents_gives (o := o) (s := (s.note
          (.read atom.epoch atom.target p.dtype p.dformat p.data)).setTargets targets) filed
          atom.target p.dtype p.dformat p.data
        exact ⟨gives.given, gives.transfers, gives.conversions, gives.offerEpoch, gives.filed⟩
  · have gives := gotLocalContents_gives (o := o) (s := s.note
      (.read atom.epoch atom.target p.dtype p.dformat p.data)) filed atom.target p.dtype p.dformat p.data
    exact ⟨gives.given, gives.transfers, gives.conversions, gives.offerEpoch, gives.filed⟩

/-! ### The arrival of a piece -/

variable {conversion : Nat} {atom : Atom} {p : Property}

theorem arrive_around
    (conversions : (doPropertyNotify o session.proxy atom (some p)).conversions =
      session.proxy.conversions)
    (offerEpoch : (doPropertyNotify o session.proxy atom (some p)).offerEpoch =
      session.proxy.offerEpoch)
    (transfers : ∀ other, other ≠ atom →
      Dict.get (doPropertyNotify o session.proxy atom (some p)).incrData other =
        Dict.get session.proxy.incrData other) :
    Around session (session.arrive o conversion atom p) conversion atom := by
  refine ⟨conversions, offerEpoch, ?_, ?_, transfers⟩
  · intro other apart
    unfold Session.arrive
    dsimp only
    split
    · rfl
    · exact Function.update_of_ne apart _ _
  · intro other apart
    unfold Session.arrive
    dsimp only
    split
    · exact Function.update_of_ne apart _ _
    · rfl

/-- A transfer that goes on keeps the conversion it was started by. -/
theorem arrive_started {state : IncrementalData}
    (found : Dict.get session.proxy.incrData atom = some state) :
    (session.arrive o conversion atom p).started = session.started := by
  unfold Session.arrive
  rw [found]
  exact if_neg fun both => absurd both.2 (Option.some_ne_none _)

theorem arrive_arrived (enabled : session.proxy.enabled = true) :
    (session.arrive o conversion atom p).arrived conversion = session.arrived conversion + 1 := by
  unfold Session.arrive
  dsimp only
  rw [if_neg (by rw [enabled]; decide)]
  exact Function.update_self _ _ _

/-- The property is not read, or it is of an epoch that is over. -/
theorem unread_unmixed (unmixed : Unmixed o replies session)
    (known : session.proxy.conversions[conversion]? = some atom)
    (unread : session.proxy.enabled = false ∨ atom.epoch ≠ session.proxy.offerEpoch) :
    Unmixed o replies (session.arrive o conversion atom p) := by
  have same : doPropertyNotify o session.proxy atom (some p) = session.proxy := by
    unfold doPropertyNotify
    split
    · rfl
    · next enabled =>
        rcases unread with disabled | past
        · exact absurd disabled enabled
        · rw [if_pos past]
  have around : Around session (session.arrive o conversion atom p) conversion atom :=
    arrive_around (by rw [same]) (by rw [same]) fun other _ => by rw [same]
  refine around.unmixed unmixed ?_ known ?_ ?_
  · change Filed (doPropertyNotify o session.proxy atom (some p)).localRequests
    rw [same]
    exact unmixed.filed
  · change ∀ completion ∈ (doPropertyNotify o session.proxy atom (some p)).given, _
    rw [same]
    exact fun completion member => .inl member
  · intro state found
    change Dict.get (doPropertyNotify o session.proxy atom (some p)).incrData atom = _ at found
    rw [same] at found
    have transfers := unmixed.transfers atom state found
    rcases unread with disabled | past
    · have arrived : (session.arrive o conversion atom p).arrived = session.arrived :=
        if_pos disabled
      constructor
      · rw [around.offerEpoch]
        exact transfers.epoch
      · rw [around.conversions, arrive_started found]
        exact transfers.conversion
      · rw [arrived, arrive_started found]
        exact transfers.arrived
      · rw [arrive_started found]
        exact transfers.chunks
    · exact absurd transfers.epoch past

/-- What is given to those who wait for the target is complete, and no transfer is left. -/
theorem given_unmixed (unmixed : Unmixed o replies session)
    (known : session.proxy.conversions[conversion]? = some atom) {dtype : String} {data : Bytes}
    (before : Proxy) (cleared : before.given = session.proxy.given)
    (requests : before.localRequests = session.proxy.localRequests)
    (conversions : before.conversions = session.proxy.conversions)
    (offerEpoch : before.offerEpoch = session.proxy.offerEpoch)
    (others : ∀ other, other ≠ atom →
      Dict.get before.incrData other = Dict.get session.proxy.incrData other)
    (ended : Dict.get before.incrData atom = none)
    (gives : Gives o before (doPropertyNotify o session.proxy atom (some p)) atom.target dtype data)
    (complete : Dict.get session.proxy.localRequests atom.target ≠ none → data = [] ∨
      ∃ conversion, session.proxy.conversions[conversion]? = some atom ∧
        (replies conversion).data = data) :
    Unmixed o replies (session.arrive o conversion atom p) := by
  have around : Around session (session.arrive o conversion atom p) conversion atom := by
    apply arrive_around
    · exact gives.conversions.trans conversions
    · exact gives.offerEpoch.trans offerEpoch
    · intro other apart
      rw [gives.transfers]
      exact others other apart
  refine around.unmixed unmixed gives.filed known ?_ ?_
  · intro completion member
    rcases gives.given completion member with old | ⟨waiting, target, dtype', filtered, kept, given⟩
    · rw [cleared] at old
      exact .inl old
    · right
      rw [requests] at waiting
      rcases complete waiting with empty | ⟨conversion', known', whole⟩
      · left
        rw [empty, filterData_nil, Option.some.injEq] at kept
        rw [given, kept]
      · right
        refine ⟨conversion', atom, filtered, known', target.symm, ?_, given⟩
        rw [whole, dtype']
        exact kept
  · intro state found
    change Dict.get (doPropertyNotify o session.proxy atom (some p)).incrData atom = _ at found
    rw [gives.transfers, ended] at found
    cases found

theorem rescheduleIncrDataTimer_get (s : Proxy) (atom other : Atom) (state : IncrementalData) :
    ∃ timer, Dict.get (rescheduleIncrDataTimer s atom state).incrData other =
      if atom = other then some { state with timer := timer } else Dict.get s.incrData other := by
  unfold rescheduleIncrDataTimer
  exact ⟨_, Dict.get_set _ _ _ _⟩

/-- The transfer of the property begins or goes on. -/
theorem kept_unmixed (unmixed : Unmixed o replies session)
    (known : session.proxy.conversions[conversion]? = some atom)
    (epoch : atom.epoch = session.proxy.offerEpoch) {state : IncrementalData}
    (reads : doPropertyNotify o session.proxy atom (some p) =
      rescheduleIncrDataTimer session.proxy atom state)
    (started : (session.arrive o conversion atom p).started atom = conversion)
    (arrived : (session.arrive o conversion atom p).arrived conversion = state.chunks.length + 1)
    (chunks : ∃ size chunks ending ended,
      replies conversion = .incremental size chunks ending ended ∧
        state.chunks <+: chunks.map fun chunk => chunk.data) :
    Unmixed o replies (session.arrive o conversion atom p) := by
  have filed : Filed (doPropertyNotify o session.proxy atom (some p)).localRequests := by
    rw [reads]
    exact unmixed.filed
  have around : Around session (session.arrive o conversion atom p) conversion atom := by
    apply arrive_around
    · rw [reads]
      rfl
    · rw [reads]
      rfl
    · intro other apart
      obtain ⟨timer, found⟩ := rescheduleIncrDataTimer_get session.proxy atom other state
      rw [reads, found, if_neg apart.symm]
  refine around.unmixed unmixed filed known ?_ ?_
  · change ∀ completion ∈ (doPropertyNotify o session.proxy atom (some p)).given, _
    rw [reads]
    exact fun completion member => .inl member
  · intro state' found
    obtain ⟨timer, after⟩ := rescheduleIncrDataTimer_get session.proxy atom atom state
    change Dict.get (doPropertyNotify o session.proxy atom (some p)).incrData atom = _ at found
    rw [reads, after, if_pos rfl] at found
    cases found
    constructor
    · rw [around.offerEpoch]
      exact epoch
    · rw [around.conversions, started]
      exact known
    · rw [started]
      exact arrived
    · rw [started]
      exact chunks

theorem unpackLongs_packLong_single (n : Nat) : ∃ size, unpackLongs (packLong n) = some [size] :=
  ⟨_, rfl⟩

theorem doPropertyNotify_header (o : Outside) {s : Proxy} {atom : Atom} {data : Bytes} {size : Nat}
    (enabled : s.enabled = true) (epoch : atom.epoch = s.offerEpoch)
    (absent : Dict.get s.incrData atom = none) (unpacked : unpackLongs data = some [size]) :
    doPropertyNotify o s atom (some ⟨"INCR", 32, data⟩) =
      rescheduleIncrDataTimer s atom { size := size } := by
  unfold doPropertyNotify
  rw [if_neg (by rw [enabled]; decide), if_neg (not_not.mpr epoch)]
  simp only [absent, unpacked, if_true]

theorem doPropertyNotify_whole (o : Outside) {s : Proxy} {atom : Atom} {p : Property}
    (enabled : s.enabled = true) (epoch : atom.epoch = s.offerEpoch)
    (absent : Dict.get s.incrData atom = none) (whole : p.dtype ≠ "INCR") :
    doPropertyNotify o s atom (some p) = gotProperty o s atom p := by
  unfold doPropertyNotify
  rw [if_neg (by rw [enabled]; decide), if_neg (not_not.mpr epoch)]
  simp only [absent]
  rw [if_neg whole]

/-- A piece without a transfer: the header of one, or a reply in one piece. -/
theorem first_unmixed (unmixed : Unmixed o replies session)
    (next : session.Next replies conversion atom p) (enabled : session.proxy.enabled = true)
    (epoch : atom.epoch = session.proxy.offerEpoch)
    (absent : Dict.get session.proxy.incrData atom = none)
    (expected : session.arrived conversion = 0 ∨
      Dict.get session.proxy.localRequests atom.target = none) :
    Unmixed o replies (session.arrive o conversion atom p) := by
  obtain ⟨known, found⟩ := next
  by_cases header : p.dtype = "INCR"
  · obtain ⟨first, size, chunks, ending, ended, reply⟩ := pieces_header found header
    rw [first, reply, Reply.pieces, List.getElem?_cons_zero, Option.some.injEq] at found
    obtain ⟨size', unpacked⟩ := unpackLongs_packLong_single size
    have reads := doPropertyNotify_header o enabled epoch absent unpacked
    rw [found] at reads
    refine kept_unmixed unmixed known epoch reads ?_ ?_
      ⟨size, chunks, ending, ended, reply, List.nil_prefix⟩
    · unfold Session.arrive
      dsimp only
      rw [if_pos ⟨header, absent⟩]
      exact Function.update_self _ _ _
    · rw [arrive_arrived enabled, first]
      rfl
  · have reads := doPropertyNotify_whole o enabled epoch absent header
    have gives := gotProperty_gives (o := o) unmixed.filed atom p
    rw [← reads] at gives
    refine given_unmixed unmixed known session.proxy rfl rfl rfl rfl (fun _ _ => rfl) absent gives
      ?_
    intro waiting
    rcases expected with first | nobody
    · rw [first] at found
      exact .inr ⟨conversion, known, pieces_plain found header⟩
    · exact absurd nobody waiting

/-- A piece of the transfer that goes on, or one that ends it with another type. -/
theorem part_unmixed (unmixed : Unmixed o replies session)
    (next : session.Next replies conversion atom p) (enabled : session.proxy.enabled = true)
    (epoch : atom.epoch = session.proxy.offerEpoch) {state : IncrementalData}
    (present : Dict.get session.proxy.incrData atom = some state)
    (expected : session.started atom = conversion ∨
      (state.dtype ≠ "" ∧ (state.dtype, state.dformat) ≠ (p.dtype, p.dformat))) :
    Unmixed o replies (session.arrive o conversion atom p) := by
  obtain ⟨known, found⟩ := next
  have reads : doPropertyNotify o session.proxy atom (some p) =
      gotIncremental o session.proxy atom state p := by
    unfold doPropertyNotify
    rw [if_neg (by rw [enabled]; decide), if_neg (not_not.mpr epoch)]
    dsimp only
    rw [present]
  have others (other : Atom) (apart : other ≠ atom) :
      Dict.get (session.proxy.resetIncrData atom).incrData other =
        Dict.get session.proxy.incrData other :=
    (Dict.get_erase _ _ _).trans (if_neg apart.symm)
  have ended : Dict.get (session.proxy.resetIncrData atom).incrData atom = none :=
    (Dict.get_erase _ _ _).trans (if_pos rfl)
  unfold gotIncremental at reads
  dsimp only at reads
  by_cases retyped : ((state.typed p).dtype, (state.typed p).dformat) ≠ (p.dtype, p.dformat)
  · rw [if_pos retyped] at reads
    have gives := gotLocalContents_gives (o := o) (s := session.proxy.resetIncrData atom)
      unmixed.filed atom.target "" 0 []
    rw [← reads] at gives
    exact given_unmixed unmixed known (session.proxy.resetIncrData atom) rfl rfl rfl rfl others
      ended gives fun _ => .inl rfl
  · rw [if_neg retyped] at reads
    have own : session.started atom = conversion := by
      rcases expected with own | ⟨typed, other⟩
      · exact own
      · rw [IncrementalData.typed, if_neg typed] at retyped
        exact absurd other retyped
    obtain ⟨_, _, arrived, size, chunks, ending, ended', reply, start⟩ :=
      unmixed.transfers atom state present
    rw [own] at arrived reply
    rw [arrived, reply] at found
    rcases pieces_part found with ⟨here, filled⟩ | ⟨last, empty⟩
    · rw [if_pos filled] at reads
      refine kept_unmixed unmixed known epoch reads ?_ ?_
        ⟨size, chunks, ending, ended', reply, ?_⟩
      · rw [arrive_started present]
        exact own
      · rw [arrive_arrived enabled, arrived, IncrementalData.typed_chunks, List.length_append]
        rfl
      · rw [IncrementalData.typed_chunks]
        exact prefix_extend start here
    · rw [if_neg (not_not.mpr empty)] at reads
      have gives := gotLocalContents_gives (o := o) (s := (session.proxy.resetIncrData atom).note
        (.read atom.epoch atom.target p.dtype p.dformat (state.typed p).chunks.flatten))
        unmixed.filed atom.target p.dtype p.dformat (state.typed p).chunks.flatten
      rw [← reads] at gives
      refine given_unmixed unmixed known ((session.proxy.resetIncrData atom).note
        (.read atom.epoch atom.target p.dtype p.dformat (state.typed p).chunks.flatten)) rfl rfl rfl rfl
        others ended gives ?_
      intro _
      right
      refine ⟨conversion, known, ?_⟩
      have all : state.chunks = chunks.map fun chunk => chunk.data :=
        start.eq_of_length (by rw [List.length_map]; exact last)
      rw [reply, IncrementalData.typed_chunks, all]
      rfl

theorem arrive_unmixed (unmixed : Unmixed o replies session)
    (next : session.Next replies conversion atom p)
    (clean : session.proxy.enabled = true → atom.epoch = session.proxy.offerEpoch →
      session.Expected conversion atom p) :
    Unmixed o replies (session.arrive o conversion atom p) := by
  by_cases enabled : session.proxy.enabled = true
  · by_cases epoch : atom.epoch = session.proxy.offerEpoch
    · have expected := clean enabled epoch
      unfold Session.Expected at expected
      split at expected
      · next state present =>
          exact part_unmixed unmixed next enabled epoch present expected
      · next absent => exact first_unmixed unmixed next enabled epoch absent expected
    · exact unread_unmixed unmixed next.1 (.inr epoch)
  · exact unread_unmixed unmixed next.1 (.inl (Bool.eq_false_iff.mpr enabled))

/-- One step of a session whose pieces come where they are expected. -/
theorem step_unmixed (unmixed : Unmixed o replies session) {m : Move} (clean : m.Clean replies session)
    (taken : session.step replies o m session') : Unmixed o replies session' := by
  cases m with
  | act a =>
      obtain ⟨foreign, proxy, taken, rfl⟩ := taken
      exact act_unmixed unmixed foreign taken
  | arrive conversion =>
      obtain ⟨-, atom, p, next, rfl⟩ := taken
      exact arrive_unmixed unmixed next (clean atom p next)

theorem initial_unmixed (first : session.initial) : Unmixed o replies session := by
  obtain ⟨proxy, new, rfl⟩ := first
  obtain ⟨xid, selection, originNamespace, rfl⟩ := new
  constructor
  · exact List.forall_mem_nil _
  · intro completion member
    cases member
  · intro atom state found
    cases found

/-- A step in which a piece, if one is read, comes where it is expected. -/
def Session.cleanStep (replies : Nat → Reply) (o : Outside) (before : Session) (m : Move)
    (after : Session) : Prop :=
  m.Clean replies before ∧ before.step replies o m after

/-- While every piece that is read comes where it is expected, a callback that waited for the reply
to a conversion is given all the data of one, or nothing. -/
theorem transfers_unmixed
    (run : Reachable Session.initial (Session.cleanStep replies o) session)
    {completion : Completion} (called : completion ∈ session.proxy.completed)
    (waited : completion.timer ≠ none) :
    Whole replies o session completion.target completion.contents := by
  have unmixed : Unmixed o replies session := by
    refine run.invariant (fun _ first => initial_unmixed first) ?_
    rintro before m after kept ⟨clean, taken⟩
    exact step_unmixed kept clean taken
  exact unmixed.given completion (mem_given.mpr (.inl called)) waited

/-- The next piece arrives where it is expected. -/
theorem arrive_reachable (reached : Reachable Session.initial (Session.cleanStep replies o) session)
    (idle : session.proxy.stack = []) (next : session.Next replies conversion atom p)
    (expected : session.Expected conversion atom p) :
    Reachable Session.initial (Session.cleanStep replies o) (session.arrive o conversion atom p) := by
  refine .next reached (a := .arrive conversion) ⟨?_, idle, atom, p, next, rfl⟩
  rintro atom' p' ⟨known, found⟩ _ _
  rw [next.1, Option.some.injEq] at known
  rw [next.2, Option.some.injEq] at found
  rw [← known, ← found]
  exact expected

/-- Conversion 0 is answered incrementally, the others in one piece. -/
def mixedReplies : Nat → Reply
  | 0 => .incremental 1 [⟨⟨⟨"UTF8_STRING", 8, [97]⟩, by decide⟩, by decide⟩]
      ⟨⟨"UTF8_STRING", 8, []⟩, by decide⟩ rfl
  | _ => .plain ⟨⟨"UTF8_STRING", 8, [98]⟩, by decide⟩

def textAtom : Atom := ⟨0, "UTF8_STRING"⟩

/-- The first read, after the header of its reply. -/
def headerSession : Session :=
  Session.arrive bareOutside { proxy := readProxy } 0 textAtom ⟨"INCR", 32, packLong 1⟩

/-- The only chunk has arrived. -/
def chunkSession : Session := headerSession.arrive bareOutside 0 textAtom ⟨"UTF8_STRING", 8, [97]⟩

/-- The callback of a read is called. -/
def Session.call (session : Session) (completion : Completion) : Session :=
  { session with
    proxy := Task.run bareOutside { session.proxy with stack := [] } false (.complete completion) }

/-- All has arrived. -/
def endedSession : Session := chunkSession.arrive bareOutside 0 textAtom ⟨"UTF8_STRING", 8, []⟩

def textCompletion : Completion :=
  ⟨0, "UTF8_STRING", .caller 0, ⟨"UTF8_STRING", 8, .bytes [97]⟩, some 1⟩

/-- The read is given the chunk. -/
theorem transfers_unmixed_incremental :
    textCompletion ∈ (endedSession.call textCompletion).proxy.completed ∧
      Whole mixedReplies bareOutside (endedSession.call textCompletion) "UTF8_STRING"
        textCompletion.contents := by
  have first : Session.initial { proxy := clipboardProxy } :=
    ⟨clipboardProxy, ⟨1, "CLIPBOARD", "origin", rfl⟩, rfl⟩
  have enabled : Reachable Session.initial (Session.cleanStep mixedReplies bareOutside)
      { proxy := enabledProxy } :=
    .next (.start first) (a := .act (.setEnabled true)) ⟨trivial, trivial, _, ⟨.inl rfl, rfl⟩, rfl⟩
  have read : Reachable Session.initial (Session.cleanStep mixedReplies bareOutside)
      { proxy := readProxy } :=
    .next enabled (a := .act (.getContents "UTF8_STRING" 0 false))
      ⟨trivial, trivial, _, ⟨.inl rfl, rfl⟩, rfl⟩
  have header : Reachable _ _ headerSession := arrive_reachable read rfl ⟨rfl, rfl⟩ (.inl rfl)
  have chunk : Reachable _ _ chunkSession := arrive_reachable header rfl ⟨rfl, rfl⟩ (.inl rfl)
  have ended : Reachable _ _ endedSession := arrive_reachable chunk rfl ⟨rfl, rfl⟩ (.inl rfl)
  have called : Reachable Session.initial (Session.cleanStep mixedReplies bareOutside)
      (endedSession.call textCompletion) :=
    .next ended (a := .act (.proceed false)) ⟨trivial, trivial, _, ⟨_, [], rfl, rfl⟩, rfl⟩
  have given : textCompletion ∈ (endedSession.call textCompletion).proxy.completed :=
    List.mem_singleton_self _
  exact ⟨given, transfers_unmixed called given (Option.some_ne_none _)⟩

/-- After the chunk the read times out, and its callback returns. -/
def abandonedProxy : Proxy :=
  { (complete bareOutside { timeoutGetContents
      { chunkSession.proxy with timers := chunkSession.proxy.timers.remove 1 } "UTF8_STRING" 0
      with stack := [] } false
      ⟨0, "UTF8_STRING", .caller 0, ⟨"", 0, .bytes []⟩, some 1⟩) with stack := [] }

/-- The target is read again. -/
def againSession : Session :=
  { chunkSession with
    proxy := getContents bareOutside abandonedProxy false "UTF8_STRING" (.caller 1) }

/-- The reply in one piece, and then the end of the transfer. -/
def mixedSession : Session :=
  (againSession.arrive bareOutside 1 textAtom ⟨"UTF8_STRING", 8, [98]⟩).arrive bareOutside 0 textAtom
    ⟨"UTF8_STRING", 8, []⟩

/-- A read that times out leaves its transfer: the reply to the next is appended to it. -/
theorem not_transfers_unmixed :
    ¬ ∀ replies o session, Reachable Session.initial (Session.step replies o) session →
      ∀ completion ∈ session.proxy.completed, completion.timer ≠ none →
        Whole replies o session completion.target completion.contents := by
  intro unmixed
  have first : Session.initial { proxy := clipboardProxy } :=
    ⟨clipboardProxy, ⟨1, "CLIPBOARD", "origin", rfl⟩, rfl⟩
  have enabled : Reachable Session.initial (Session.step mixedReplies bareOutside)
      { proxy := enabledProxy } :=
    .next (.start first) (a := .act (.setEnabled true)) ⟨trivial, _, ⟨.inl rfl, rfl⟩, rfl⟩
  have read : Reachable Session.initial (Session.step mixedReplies bareOutside)
      { proxy := readProxy } :=
    .next enabled (a := .act (.getContents "UTF8_STRING" 0 false)) ⟨trivial, _, ⟨.inl rfl, rfl⟩, rfl⟩
  have header : Reachable Session.initial (Session.step mixedReplies bareOutside) headerSession :=
    .next read (a := .arrive 0) ⟨rfl, textAtom, _, ⟨rfl, rfl⟩, rfl⟩
  have chunk : Reachable Session.initial (Session.step mixedReplies bareOutside) chunkSession :=
    .next header (a := .arrive 0) ⟨rfl, textAtom, _, ⟨rfl, rfl⟩, rfl⟩
  have expired := Reachable.next chunk (a := Move.act (.timeout 1 (.getContents "UTF8_STRING" 0)))
    ⟨trivial, _, ⟨rfl, List.mem_cons_self, rfl⟩, rfl⟩
  have called := Reachable.next expired (a := Move.act (.proceed false)) ⟨trivial, _, ⟨_, [], rfl, rfl⟩, rfl⟩
  have returned : Reachable Session.initial (Session.step mixedReplies bareOutside)
      { chunkSession with proxy := abandonedProxy } :=
    .next called (a := .act (.proceed false)) ⟨trivial, _, ⟨_, [], rfl, rfl⟩, rfl⟩
  have again : Reachable Session.initial (Session.step mixedReplies bareOutside) againSession :=
    .next returned (a := .act (.getContents "UTF8_STRING" 1 false)) ⟨trivial, _, ⟨.inl rfl, rfl⟩, rfl⟩
  have plain := Reachable.next again (a := Move.arrive 1) ⟨rfl, textAtom, _, ⟨rfl, rfl⟩, rfl⟩
  have mixed : Reachable Session.initial (Session.step mixedReplies bareOutside) mixedSession :=
    .next plain (a := .arrive 0) ⟨rfl, textAtom, _, ⟨rfl, rfl⟩, rfl⟩
  have given : Reachable Session.initial (Session.step mixedReplies bareOutside)
      (mixedSession.call
        ⟨1, "UTF8_STRING", .caller 1, ⟨"UTF8_STRING", 8, .bytes [97, 98]⟩, some 4⟩) :=
    .next mixed (a := .act (.proceed false)) ⟨trivial, _, ⟨_, [], rfl, rfl⟩, rfl⟩
  have whole := unmixed _ _ _ given _ (List.mem_append_right _ (List.mem_singleton_self _))
    (Option.some_ne_none _)
  rcases whole with empty | ⟨conversion, atom, data, known, _, filtered, both⟩
  · cases empty
  · cases both
    have below : conversion < 2 := (List.getElem?_eq_some_iff.mp known).1
    match conversion, below with
    | 0, _ => cases filtered
    | 1, _ => cases filtered

end Catlink.X11.Selection
