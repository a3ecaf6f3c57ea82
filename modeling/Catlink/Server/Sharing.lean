import Catlink.Lib.Dict
import Mathlib.Data.Finset.Basic

/-! Who is disconnected when a client joins a session, and which projections are fenced off. -/

namespace Catlink.Sharing

def willShareWith (serverSharing : Option Bool)
    (newClientShare existingClientShare sameClient : Bool) : Bool :=
  if sameClient then false
  else if serverSharing = some true then true
  else if serverSharing = some false then false
  else newClientShare && existingClientShare

/-! ### The owner of the projection -/

structure ProjectionOwnership where
  ownerUuid : String
  /-- the oldest first -/
  retiredUuids : List String
  retiredUuidSet : Finset String
  retiredUuidsLimit : Nat

namespace ProjectionOwnership

/-- `CatlinkProjectionOwnership(retired_uuids_limit)` -/
def new (retiredUuidsLimit : Int) : ProjectionOwnership := ⟨"", [], ∅, retiredUuidsLimit.toNat⟩

def isRetired (o : ProjectionOwnership) (candidateUuid : String) : Bool :=
  candidateUuid ≠ "" && candidateUuid ∈ o.retiredUuidSet

/-- `while len(self.retired_uuids) > self.retired_uuids_limit` -/
def expire (limit : Nat) : List String → Finset String → List String × Finset String
  | [], uuids => ([], uuids)
  | expired :: rest, uuids =>
      if limit < rest.length + 1 then expire limit rest (uuids.erase expired)
      else (expired :: rest, uuids)

/-- The previous owner, when there is another one now. -/
def accept (o : ProjectionOwnership) (candidateUuid : String) : String × ProjectionOwnership :=
  if candidateUuid = "" ∨ candidateUuid = o.ownerUuid then ("", o)
  else if o.ownerUuid ≠ "" ∧ o.retiredUuidsLimit ≠ 0 then
    let kept := expire o.retiredUuidsLimit (o.retiredUuids ++ [o.ownerUuid])
      (insert o.ownerUuid o.retiredUuidSet)
    (o.ownerUuid, ⟨candidateUuid, kept.1, kept.2, o.retiredUuidsLimit⟩)
  else (o.ownerUuid, { o with ownerUuid := candidateUuid })

end ProjectionOwnership

/-! ### The clients of a server -/

structure Source where
  uuid : String
  uiClient : Bool
  share : Bool
  lock : Bool

inductive ConnectionMessage
  | serverShutdown
  | newClient
  | sessionBusy
  | projectionSuperseded
  deriving DecidableEq

/-- A call of `disconnect_client`. -/
structure Disconnect where
  proto : Nat
  reason : ConnectionMessage
  extra : String
  deriving DecidableEq

structure ServerBase where
  /-- each client decides when it is `None` -/
  sharing : Option Bool
  lock : Option Bool
  exitWithClient : Bool
  /-- `_server_sources` -/
  sources : List (Nat × Source)
  distinct : (sources.map Prod.fst).Nodup
  ownership : ProjectionOwnership

/-- The arguments of `handle_sharing`, from the hello packet. -/
structure Connection where
  proto : Nat
  uiClient : Bool
  share : Bool
  uuid : String
  catlinkClientUuid : String

structure Verdict where
  accepted : Bool
  shareCount : Nat
  disconnects : List Disconnect
  ownership : ProjectionOwnership

/-- What the loop over the sources does with one of them. -/
inductive Fate
  | disconnected (extra : String)
  | shares
  /-- the client or the new connection has no UI -/
  | apart

section HandleSharing

variable (s : ServerBase) (c : Connection)

def existingSources : List Source := (s.sources.filter fun entry => entry.1 ≠ c.proto).map Prod.snd

/-- `bool(uuid and ss.uuid == uuid)` -/
def sameClient (ss : Source) : Bool := c.uuid ≠ "" && ss.uuid = c.uuid

def isExistingClient : Bool := (existingSources s c).any (sameClient c)

def willShare : Bool :=
  (existingSources s c).any fun ss =>
    c.uiClient && ss.uiClient && willShareWith s.sharing c.share ss.share (sameClient c ss)

def catlinkFencing : Bool := c.uiClient && !willShare s c

/-- The connection is of a projection that is superseded. -/
def superseded : Bool := catlinkFencing s c && s.ownership.isRetired c.catlinkClientUuid

/-- Why the session cannot be stolen or shared. -/
def lockRefusal : Option String :=
  if existingSources s c ≠ [] ∧ isExistingClient s c = false then
    if s.sharing = some true ∨
        (s.sharing = none ∧ c.share = true ∧ (existingSources s c).all Source.share = true) then none
    else if s.lock = some true then some "this session is locked"
    else if s.lock ≠ some false ∧ (existingSources s c).any Source.lock = true then
      some "a client has locked this session"
    else none
  else none

def fate (ss : Source) : Fate :=
  if sameClient c ss = true ∧ c.uiClient = true ∧ ss.uiClient = true then
    .disconnected "new connection from the same uuid"
  else if c.uiClient = true ∧ ss.uiClient = true then
    if s.sharing = some true then .shares
    else if s.sharing = some false then .disconnected "this session does not allow sharing"
    else if c.share = false then .disconnected "the new client does not wish to share"
    else if ss.share = false then .disconnected "this client had not enabled sharing"
    else .shares
  else .apart

/-- The clients that the loop disconnects. -/
def evictions : List Disconnect :=
  s.sources.filterMap fun entry =>
    match fate s c entry.2 with
    | .disconnected extra => some ⟨entry.1, .newClient, extra⟩
    | _ => none

def shareCount : Nat :=
  s.sources.countP fun entry =>
    match fate s c entry.2 with
    | .shares => true
    | _ => false

def handleSharing : Verdict :=
  if superseded s c = true then
    ⟨false, 0, [⟨c.proto, .projectionSuperseded, "a newer projection owns this session"⟩], s.ownership⟩
  else
    match lockRefusal s c with
    | some extra => ⟨false, 0, [⟨c.proto, .sessionBusy, extra⟩], s.ownership⟩
    | none =>
        if evictions s c ≠ [] ∧ shareCount s c = 0 ∧ s.exitWithClient = true then
          ⟨false, shareCount s c,
            evictions s c ++ [⟨c.proto, .serverShutdown, "last client has exited"⟩], s.ownership⟩
        else if catlinkFencing s c = true ∧ shareCount s c = 0 ∧ c.catlinkClientUuid ≠ "" then
          ⟨true, shareCount s c, evictions s c, (s.ownership.accept c.catlinkClientUuid).2⟩
        else ⟨true, shareCount s c, evictions s c, s.ownership⟩

end HandleSharing

/-! ### Locked sessions -/

variable {s : ServerBase} {c : Connection}

/-- The lock protects this client from the connection. -/
def Protected (s : ServerBase) (c : Connection) (ss : Source) : Prop :=
  ss.uuid ≠ c.uuid ∧ (s.lock = some true ∨ ss.lock = true)

/-- There is a protected client that the connection would not share the session with. -/
def Forbidden (s : ServerBase) (c : Connection) : Prop :=
  ∃ entry ∈ s.sources, Protected s c entry.2 ∧
    willShareWith s.sharing c.share entry.2.share false = false

/-- No client that the lock protects has to go. -/
structure LockSafe (s : ServerBase) (c : Connection) : Prop where
  holder : ∀ entry ∈ s.sources, entry.2.uuid ≠ c.uuid → entry.2.lock = true →
    ∀ d ∈ (handleSharing s c).disconnects, d.proto ≠ entry.1
  locked : s.lock = some true → ∀ entry ∈ s.sources, entry.2.uuid ≠ c.uuid →
    ∀ d ∈ (handleSharing s c).disconnects, d.proto ≠ entry.1
  refused : Forbidden s c → (handleSharing s c).accepted = false ∧
    ∀ d ∈ (handleSharing s c).disconnects, d.proto = c.proto

theorem mem_existingSources (new : Dict.get s.sources c.proto = none) {ss : Source} :
    ss ∈ existingSources s c ↔ ∃ entry ∈ s.sources, entry.2 = ss := by
  simp only [existingSources, List.mem_map, List.mem_filter, decide_eq_true_eq]
  constructor
  · rintro ⟨entry, ⟨member, _⟩, same⟩
    exact ⟨entry, member, same⟩
  · rintro ⟨entry, member, same⟩
    exact ⟨entry, ⟨member, Dict.get_none new entry member⟩, same⟩

/-- Whoever is disconnected, and is not the same client, would not have shared. -/
theorem fate_unwilling {ss : Source} {extra : String} (other : sameClient c ss = false)
    (gone : fate s c ss = .disconnected extra) : willShareWith s.sharing c.share ss.share false = false := by
  unfold fate at gone
  rw [if_neg (by simp [other])] at gone
  unfold willShareWith
  rw [if_neg Bool.false_ne_true]
  split at gone
  · split at gone
    · cases gone
    · next unshared =>
        rw [if_neg unshared]
        split at gone
        · next never => rw [if_pos never]
        · next never =>
            rw [if_neg never]
            split at gone
            · next alone => rw [alone, Bool.false_and]
            · split at gone
              · next alone => rw [alone, Bool.and_false]
              · cases gone
  · cases gone

theorem mem_evictions {d : Disconnect} (member : d ∈ evictions s c) :
    ∃ entry ∈ s.sources, entry.1 = d.proto ∧ ∃ extra, fate s c entry.2 = .disconnected extra := by
  obtain ⟨entry, known, evicted⟩ := List.mem_filterMap.mp member
  split at evicted
  · next extra gone =>
      cases evicted
      exact ⟨entry, known, rfl, extra, gone⟩
  · cases evicted

/-- The lock is what refuses a forbidden connection, unless its uuid is known. -/
theorem forbidden_lockRefusal (enabled : s.lock ≠ some false)
    (new : Dict.get s.sources c.proto = none) (unknown : isExistingClient s c = false)
    (forbidden : Forbidden s c) : ∃ extra, lockRefusal s c = some extra := by
  obtain ⟨entry, member, ⟨_, locks⟩, unwilling⟩ := forbidden
  have existing : entry.2 ∈ existingSources s c := (mem_existingSources new).mpr ⟨entry, member, rfl⟩
  unfold willShareWith at unwilling
  rw [if_neg Bool.false_ne_true] at unwilling
  unfold lockRefusal
  rw [if_pos ⟨List.ne_nil_of_mem existing, unknown⟩, if_neg]
  · split
    · exact ⟨_, rfl⟩
    · next unlocked =>
        have held : (existingSources s c).any Source.lock = true :=
          List.any_eq_true.mpr ⟨entry.2, existing, locks.resolve_left unlocked⟩
        rw [if_pos ⟨enabled, held⟩]
        exact ⟨_, rfl⟩
  · rintro (always | ⟨asked, share, all⟩)
    · rw [if_pos always] at unwilling
      cases unwilling
    · rw [asked, if_neg (by decide), if_neg (by decide), share,
        List.all_eq_true.mp all entry.2 existing] at unwilling
      cases unwilling

/-- A connection that the loop sees is either not forbidden or one of a known uuid. -/
theorem loop_safe (unforbidden : ¬ Forbidden s c) {entry : Nat × Source} (member : entry ∈ s.sources)
    (guarded : Protected s c entry.2) {d : Disconnect} (evicted : d ∈ evictions s c) :
    d.proto ≠ entry.1 := by
  intro same
  obtain ⟨entry', member', proto, extra, gone⟩ := mem_evictions evicted
  have one : entry' = entry := List.inj_on_of_nodup_map s.distinct member' member (proto.trans same)
  rw [one] at gone
  have other : sameClient c entry.2 = false := by simp [sameClient, guarded.1]
  exact unforbidden ⟨entry, member, guarded, fate_unwilling other gone⟩

/-- Only the new connection is disconnected, or what the loop evicts is. -/
theorem mem_disconnects {d : Disconnect} (member : d ∈ (handleSharing s c).disconnects) :
    d.proto = c.proto ∨ (superseded s c = false ∧ lockRefusal s c = none ∧ d ∈ evictions s c) := by
  unfold handleSharing at member
  split at member
  · rw [List.mem_singleton.mp member]
    exact .inl rfl
  · next current =>
      rw [Bool.not_eq_true] at current
      split at member
      · rw [List.mem_singleton.mp member]
        exact .inl rfl
      · next free =>
          split at member
          · rcases List.mem_append.mp member with evicted | shutdown
            · exact .inr ⟨current, free, evicted⟩
            · rw [List.mem_singleton.mp shutdown]
              exact .inl rfl
          · split at member
            · exact .inr ⟨current, free, member⟩
            · exact .inr ⟨current, free, member⟩

/-- Who is not refused for the lock, and does not know of it, has no lock to respect. -/
theorem unrefused_unforbidden (enabled : s.lock ≠ some false)
    (new : Dict.get s.sources c.proto = none) (free : lockRefusal s c = none)
    (unknown : isExistingClient s c = false) : ¬ Forbidden s c := by
  intro forbidden
  obtain ⟨extra, refused⟩ := forbidden_lockRefusal enabled new unknown forbidden
  rw [free] at refused
  cases refused

/-- A session that is locked is safe from a new connection exactly when its uuid is not one of the
clients', or it is of a superseded projection, or no protected client stands in its way. -/
theorem session_lock_safe (enabled : s.lock ≠ some false)
    (new : Dict.get s.sources c.proto = none) :
    LockSafe s c ↔ superseded s c = true ∨ isExistingClient s c = false ∨ ¬ Forbidden s c := by
  constructor
  · intro safe
    by_contra exposed
    rw [not_or, not_or, not_not, Bool.not_eq_true, Bool.not_eq_false] at exposed
    obtain ⟨current, known, forbidden⟩ := exposed
    have free : lockRefusal s c = none := by simp [lockRefusal, known]
    obtain ⟨refused, alone⟩ := safe.refused forbidden
    have none : evictions s c = [] := by
      rw [List.eq_nil_iff_forall_not_mem]
      intro d evicted
      have there : d ∈ (handleSharing s c).disconnects := by
        unfold handleSharing
        rw [if_neg (by simp [current]), free]
        dsimp only
        split
        · exact List.mem_append_left _ evicted
        · split
          · exact evicted
          · exact evicted
      obtain ⟨entry, member, proto, _⟩ := mem_evictions evicted
      exact Dict.get_none new entry member (proto.trans (alone d there))
    unfold handleSharing at refused
    rw [if_neg (by simp [current]), free] at refused
    dsimp only at refused
    rw [if_neg (by simp [none])] at refused
    split at refused
    · cases refused
    · cases refused
  · intro condition
    have unevicted {entry : Nat × Source} (member : entry ∈ s.sources)
        (guarded : Protected s c entry.2) :
        ∀ d ∈ (handleSharing s c).disconnects, d.proto ≠ entry.1 := by
      intro d gone
      rcases mem_disconnects gone with own | ⟨current, free, evicted⟩
      · rw [own]
        exact (Dict.get_none new entry member).symm
      · apply loop_safe _ member guarded evicted
        rcases condition with fenced | unknown | unforbidden
        · rw [current] at fenced
          cases fenced
        · exact unrefused_unforbidden enabled new free unknown
        · exact unforbidden
    constructor
    · intro entry member other lock
      exact unevicted member ⟨other, .inr lock⟩
    · intro locked entry member other
      exact unevicted member ⟨other, .inl locked⟩
    · intro forbidden
      by_cases fenced : superseded s c = true
      · unfold handleSharing
        rw [if_pos fenced]
        exact ⟨rfl, fun d member => by rw [List.mem_singleton.mp member]⟩
      · rcases condition with fenced' | unknown | unforbidden
        · exact absurd fenced' fenced
        · obtain ⟨extra, refused⟩ := forbidden_lockRefusal enabled new unknown forbidden
          unfold handleSharing
          rw [if_neg fenced, refused]
          exact ⟨rfl, fun d member => by rw [List.mem_singleton.mp member]⟩
        · exact absurd forbidden unforbidden

/-- Two clients that do not share; the second one has locked the session. -/
def lockedSession : ServerBase where
  sharing := none
  lock := none
  exitWithClient := false
  sources := [(1, ⟨"first", true, false, false⟩), (2, ⟨"second", true, false, true⟩)]
  distinct := by decide
  ownership := .new 64

theorem session_lock_safe_stranger : LockSafe lockedSession ⟨3, true, false, "third", ""⟩ :=
  (session_lock_safe (by decide) rfl).mpr (.inr (.inl (by decide)))

/-- The first client connects again, and the one that holds the lock has to go. -/
theorem not_session_lock_safe : ¬ ∀ (s : ServerBase) (c : Connection), c.uiClient = true →
    s.lock ≠ some false → Dict.get s.sources c.proto = none → LockSafe s c := by
  intro safe
  have reconnected := safe lockedSession ⟨3, true, false, "first", ""⟩ rfl (by decide) rfl
  exact reconnected.holder (2, ⟨"second", true, false, true⟩) (.tail _ (.head _)) (by decide) rfl
    ⟨2, .newClient, "the new client does not wish to share"⟩ (by decide) rfl

end Catlink.Sharing
