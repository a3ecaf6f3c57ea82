import Catlink.Lib.Runs
import Catlink.Server.Sharing

/-! A projection that is superseded does not get the session back. -/

namespace Catlink.Sharing

open Runs

namespace ProjectionOwnership

/-- The oldest ones expire, as many as there are too many. -/
theorem expire_eq (limit : Nat) {uuids : List String} (distinct : uuids.Nodup) :
    expire limit uuids uuids.toFinset =
      (uuids.drop (uuids.length - limit), (uuids.drop (uuids.length - limit)).toFinset) := by
  induction uuids with
  | nil => simp [expire]
  | cons expired rest ih =>
      obtain ⟨new, distinct⟩ := List.nodup_cons.mp distinct
      rw [expire, List.length_cons]
      split
      · next many =>
          have erased : (expired :: rest).toFinset.erase expired = rest.toFinset := by
            rw [List.toFinset_cons]
            exact Finset.erase_insert (fun member => new (List.mem_toFinset.mp member))
          rw [erased, ih distinct, show rest.length + 1 - limit = rest.length - limit + 1 by omega,
            List.drop_succ_cons]
      · next few => rw [show rest.length + 1 - limit = 0 by omega, List.drop_zero]

/-- The changes that count after one more. -/
theorem drop_concat (former : List String) {limit : Nat} (previous : String) (room : limit ≠ 0) :
    (former ++ [previous]).drop ((former ++ [previous]).length - limit) =
      (former.drop (former.length - limit) ++ [previous]).drop
        ((former.drop (former.length - limit) ++ [previous]).length - limit) := by
  simp only [List.length_append, List.length_drop, List.length_singleton]
  by_cases few : former.length < limit
  · rw [show former.length - limit = 0 by omega, List.drop_zero, Nat.sub_zero]
  · rw [show former.length - (former.length - limit) + 1 - limit = 1 by omega,
      show former.length + 1 - limit = former.length - limit + 1 by omega,
      List.drop_append_of_le_length (by omega),
      List.drop_append_of_le_length (by rw [List.length_drop]; omega), List.drop_drop]

/-- Those that stopped being the owner within the last `limit` changes, out of all of them, the
latest last. -/
def recent (o : ProjectionOwnership) (former : List String) : List String :=
  former.drop (former.length - o.retiredUuidsLimit)

/-- Another owner is a change; there is none before the first one. -/
def formerWith (o o' : ProjectionOwnership) (former : List String) : List String :=
  if o.ownerUuid ≠ "" ∧ o'.ownerUuid ≠ o.ownerUuid then former ++ [o.ownerUuid] else former

/-- What is retired is what the last changes left. -/
structure Retires (o : ProjectionOwnership) (former : List String) : Prop where
  recent : o.retiredUuids = o.recent former
  queue : o.retiredUuidSet = o.retiredUuids.toFinset
  distinct : o.retiredUuids.Nodup
  owner : o.ownerUuid ∉ o.retiredUuids
  named : ∀ uuid ∈ former, uuid ≠ ""

variable {o : ProjectionOwnership} {former : List String}

theorem Retires.isRetired (retires : o.Retires former) {uuid : String}
    (member : uuid ∈ o.recent former) : o.isRetired uuid = true := by
  have known : uuid ∈ o.retiredUuidSet := by
    rw [retires.queue, List.mem_toFinset, retires.recent]
    exact member
  simp [ProjectionOwnership.isRetired, known, retires.named uuid (List.mem_of_mem_drop member)]

/-- A projection that is not retired may become the owner. -/
theorem accept_retires (retires : o.Retires former) {uuid : String} (free : o.isRetired uuid = false) :
    (o.accept uuid).2.Retires (o.formerWith (o.accept uuid).2 former) := by
  unfold accept
  split
  · simpa [formerWith] using retires
  · next changed =>
      rw [not_or] at changed
      have unretired : uuid ∉ o.retiredUuids := by
        intro member
        rw [retires.recent] at member
        rw [retires.isRetired member] at free
        cases free
      split
      · next owned =>
          have distinct : (o.retiredUuids ++ [o.ownerUuid]).Nodup := by
            rw [← List.concat_eq_append]
            exact List.Nodup.concat retires.owner retires.distinct
          have inserted : insert o.ownerUuid o.retiredUuidSet =
              (o.retiredUuids ++ [o.ownerUuid]).toFinset := by
            ext uuid
            rw [Finset.mem_insert, retires.queue, List.mem_toFinset, List.mem_toFinset, List.mem_append,
              List.mem_singleton]
            exact or_comm
          rw [inserted, expire_eq _ distinct]
          dsimp only
          rw [formerWith, if_pos ⟨owned.1, changed.2⟩]
          constructor
          · rw [ProjectionOwnership.recent, drop_concat former _ owned.2, retires.recent]
            rfl
          · rfl
          · exact distinct.sublist (List.drop_sublist _ _)
          · intro member
            rcases List.mem_append.mp (List.mem_of_mem_drop member) with old | previous
            · exact unretired old
            · exact changed.2 (List.mem_singleton.mp previous)
          · intro uuid' member
            rcases List.mem_append.mp member with old | previous
            · exact retires.named uuid' old
            · rw [List.mem_singleton.mp previous]
              exact owned.1
      · next unowned =>
          dsimp only
          have empty : o.ownerUuid ≠ "" → o.retiredUuidsLimit = 0 := by
            intro owned
            by_contra room
            exact unowned ⟨owned, room⟩
          constructor
          · rw [retires.recent, formerWith]
            split
            · next left => simp [ProjectionOwnership.recent, empty left.1]
            · rfl
          · exact retires.queue
          · exact retires.distinct
          · exact unretired
          · intro uuid' member
            rw [formerWith] at member
            split at member
            · next left =>
                rcases List.mem_append.mp member with old | previous
                · exact retires.named uuid' old
                · rw [List.mem_singleton.mp previous]
                  exact left.1
            · exact retires.named uuid' member

theorem accept_owner {uuid : String} (other : (o.accept uuid).2.ownerUuid ≠ o.ownerUuid) :
    (o.accept uuid).2.ownerUuid = uuid := by
  unfold accept at other ⊢
  split
  · next same =>
      rw [if_pos same] at other
      exact absurd rfl other
  · split
    · rfl
    · rfl

end ProjectionOwnership

/-! ### Runs of a server -/

/-- A server, and those that stopped being the owner of the projection, the latest last. -/
structure Session where
  server : ServerBase
  former : List String

inductive Action
  /-- `hello_oked`; `parse_hello` may fail after the connection is accepted -/
  | connect (c : Connection) (lock parsed : Bool)
  /-- the connection is lost, or it was disconnected -/
  | disconnected (proto : Nat)
  /-- the settings of the server -/
  | configure (sharing lock : Option Bool) (exitWithClient : Bool)
  /-- `_process_sharing_toggle` and `_process_lock_toggle` -/
  | toggle (proto : Nat) (share lock : Bool)

namespace ServerBase

def withSource (s : ServerBase) (proto : Nat) (ss : Source) : ServerBase :=
  { s with sources := Dict.set s.sources proto ss, distinct := Dict.set_distinct s.distinct proto ss }

def withoutSource (s : ServerBase) (proto : Nat) : ServerBase :=
  { s with sources := Dict.erase s.sources proto, distinct := Dict.erase_distinct s.distinct proto }

end ServerBase

namespace Session

def initial (retiredUuidsLimit : Int) (s : Session) : Prop :=
  s.former = [] ∧ s.server.ownership = .new retiredUuidsLimit

def owned (s : Session) (ownership : ProjectionOwnership) : Session where
  server := { s.server with ownership := ownership }
  former := s.server.ownership.formerWith ownership s.former

def act (s : Session) : Action → Session
  | .connect c lock parsed =>
      match Dict.get s.server.sources c.proto with
      | some _ => s
      | none =>
          let verdict := handleSharing s.server c
          let s := s.owned verdict.ownership
          if verdict.accepted = true ∧ parsed = true then
            { s with server := s.server.withSource c.proto ⟨c.uuid, c.uiClient, c.share, lock⟩ }
          else s
  | .disconnected proto => { s with server := s.server.withoutSource proto }
  | .configure sharing lock exitWithClient =>
      { s with
        server := { s.server with sharing := sharing, lock := lock, exitWithClient := exitWithClient } }
  | .toggle proto share lock =>
      match Dict.get s.server.sources proto with
      | some ss => { s with server := s.server.withSource proto { ss with share := share, lock := lock } }
      | none => s

def step (s : Session) (a : Action) (s' : Session) : Prop := s' = s.act a

/-- Those that stopped being the owner within the last `limit` changes. -/
def recent (s : Session) : List String := s.server.ownership.recent s.former

end Session

/-! ### The fence -/

variable {s : Session}

/-- The owner changes to a projection that is not retired, or it does not. -/
theorem handleSharing_ownership (server : ServerBase) (c : Connection) :
    (handleSharing server c).ownership = server.ownership ∨
      server.ownership.isRetired c.catlinkClientUuid = false ∧
        (handleSharing server c).ownership = (server.ownership.accept c.catlinkClientUuid).2 := by
  unfold handleSharing
  split
  · exact .inl rfl
  · next current =>
      split
      · exact .inl rfl
      · split
        · exact .inl rfl
        · split
          · next fencing =>
              refine .inr ⟨?_, rfl⟩
              simpa [superseded, fencing.1] using current
          · exact .inl rfl

theorem owned_self : s.owned s.server.ownership = s := by
  simp [Session.owned, ProjectionOwnership.formerWith]

/-- A step changes the ownership as a connection does, or not at all. -/
theorem act_ownership (a : Action) :
    ((s.act a).server.ownership = s.server.ownership ∧ (s.act a).former = s.former) ∨
      ∃ uuid, s.server.ownership.isRetired uuid = false ∧
        (s.act a).server.ownership = (s.server.ownership.accept uuid).2 ∧
        (s.act a).former =
          s.server.ownership.formerWith (s.server.ownership.accept uuid).2 s.former := by
  cases a with
  | connect c lock parsed =>
      simp only [Session.act]
      split
      · exact .inl ⟨rfl, rfl⟩
      · have owned : ((s.owned (handleSharing s.server c).ownership).server.ownership =
            s.server.ownership ∧ (s.owned (handleSharing s.server c).ownership).former = s.former) ∨
            ∃ uuid, s.server.ownership.isRetired uuid = false ∧
              (s.owned (handleSharing s.server c).ownership).server.ownership =
                (s.server.ownership.accept uuid).2 ∧
              (s.owned (handleSharing s.server c).ownership).former =
                s.server.ownership.formerWith (s.server.ownership.accept uuid).2 s.former := by
          rcases handleSharing_ownership s.server c with same | ⟨free, accepted⟩
          · rw [same, owned_self]
            exact .inl ⟨rfl, rfl⟩
          · rw [accepted]
            exact .inr ⟨c.catlinkClientUuid, free, rfl, rfl⟩
        split
        · exact owned
        · exact owned
  | disconnected proto => exact .inl ⟨rfl, rfl⟩
  | configure sharing lock exitWithClient => exact .inl ⟨rfl, rfl⟩
  | toggle proto share lock =>
      simp only [Session.act]
      split
      · exact .inl ⟨rfl, rfl⟩
      · exact .inl ⟨rfl, rfl⟩

theorem step_retires (retires : s.server.ownership.Retires s.former) (a : Action) :
    (s.act a).server.ownership.Retires (s.act a).former := by
  rcases act_ownership (s := s) a with ⟨same, former⟩ | ⟨uuid, free, accepted, former⟩
  · rw [same, former]
    exact retires
  · rw [accepted, former]
    exact ProjectionOwnership.accept_retires retires free

theorem reachable_retires {limit : Int}
    (reachable : Reachable (Session.initial limit) Session.step s) :
    s.server.ownership.Retires s.former := by
  apply reachable.invariant
  · rintro s ⟨former, new⟩
    rw [former, new]
    constructor
    · simp [ProjectionOwnership.new, ProjectionOwnership.recent]
    · rfl
    · exact List.nodup_nil
    · exact List.not_mem_nil
    · intro uuid member
      cases member
  · rintro s a s' retires rfl
    exact step_retires retires a

/-- The limit stays. -/
theorem reachable_limit {limit : Int} (reachable : Reachable (Session.initial limit) Session.step s) :
    s.server.ownership.retiredUuidsLimit = limit.toNat := by
  apply reachable.invariant
  · rintro s ⟨_, new⟩
    rw [new]
    rfl
  · rintro s a s' same rfl
    rcases act_ownership (s := s) a with ⟨kept, _⟩ | ⟨uuid, _, accepted, _⟩
    · rw [kept, same]
    · rw [accepted, ← same]
      unfold ProjectionOwnership.accept
      split
      · rfl
      · split
        · rfl
        · rfl

/-- Some client with a UI would share the session with the connection. -/
def WouldShare (server : ServerBase) (c : Connection) : Prop :=
  ∃ entry ∈ server.sources, entry.1 ≠ c.proto ∧ entry.2.uiClient = true ∧
    willShareWith server.sharing c.share entry.2.share (sameClient c entry.2) = true

structure Fenced (limit : Int) (s : Session) : Prop where
  owner : s.server.ownership.ownerUuid ∉ s.server.ownership.retiredUuidSet
  queue : ∀ uuid, uuid ∈ s.server.ownership.retiredUuidSet ↔ uuid ∈ s.server.ownership.retiredUuids
  distinct : s.server.ownership.retiredUuids.Nodup
  bounded : (s.server.ownership.retiredUuids.length : Int) ≤ max 0 limit
  never : ∀ uuid ∈ s.recent, ∀ a, (s.act a).server.ownership.ownerUuid ≠ uuid
  refused : ∀ c : Connection, c.catlinkClientUuid ∈ s.recent → c.uiClient = true →
    ¬ WouldShare s.server c → (handleSharing s.server c).accepted = false ∧
      (handleSharing s.server c).disconnects.map Disconnect.proto = [c.proto]

theorem unshared_fencing {server : ServerBase} {c : Connection} (ui : c.uiClient = true)
    (unshared : ¬ WouldShare server c) : catlinkFencing server c = true := by
  have alone : willShare server c = false := by
    rw [willShare, List.any_eq_false]
    intro ss existing shares
    simp only [existingSources, List.mem_map, List.mem_filter, decide_eq_true_eq] at existing
    obtain ⟨entry, ⟨member, other⟩, rfl⟩ := existing
    simp only [Bool.and_eq_true] at shares
    exact unshared ⟨entry, member, other, shares.1.2, shares.2⟩
  rw [catlinkFencing, ui, alone]
  rfl

/-- The owner is never one of the projections that are retired, they are the ones that the last
changes of the owner left, and none of them becomes the owner again. Their connections are refused
as long as no client would share the session. -/
theorem projection_fence {limit : Int}
    (reachable : Reachable (Session.initial limit) Session.step s) : Fenced limit s := by
  have retires := reachable_retires reachable
  constructor
  · rw [retires.queue, List.mem_toFinset]
    exact retires.owner
  · intro uuid
    rw [retires.queue, List.mem_toFinset]
  · exact retires.distinct
  · rw [retires.recent, ProjectionOwnership.recent, List.length_drop, reachable_limit reachable]
    omega
  · intro uuid member a owner
    have retired := retires.isRetired member
    rcases act_ownership (s := s) a with ⟨same, _⟩ | ⟨uuid', free, accepted, _⟩
    · rw [same] at owner
      apply retires.owner
      rw [owner, retires.recent]
      exact member
    · rw [accepted] at owner
      have other : (s.server.ownership.accept uuid').2.ownerUuid ≠ s.server.ownership.ownerUuid := by
        intro same
        apply retires.owner
        rw [← same, owner, retires.recent]
        exact member
      have one := ProjectionOwnership.accept_owner other
      rw [owner] at one
      rw [← one, retired] at free
      cases free
  · intro c member ui unshared
    have fenced : superseded s.server c = true := by
      rw [superseded, unshared_fencing ui unshared, retires.isRetired member]
      rfl
    unfold handleSharing
    rw [if_pos fenced]
    exact ⟨rfl, rfl⟩

def openSession : Session where
  server := ⟨none, none, false, [], by decide, .new 64⟩
  former := []

/-- A newer projection owns the session. -/
def supersededSession : Session :=
  (openSession.act (.connect ⟨1, true, false, "client", "older"⟩ false true)).act
    (.connect ⟨2, true, false, "other client", "newer"⟩ false true)

theorem supersededSession_reachable :
    Reachable (Session.initial 64) Session.step supersededSession := by
  have opened : Reachable (Session.initial 64) Session.step openSession := .start ⟨rfl, rfl⟩
  have owned := opened.next (a := .connect ⟨1, true, false, "client", "older"⟩ false true) rfl
  exact owned.next (a := .connect ⟨2, true, false, "other client", "newer"⟩ false true) rfl

theorem projection_fence_superseded : Fenced 64 supersededSession :=
  projection_fence supersededSession_reachable

/-- A connection without a UI is let in, whatever its projection. -/
theorem not_projection_fence : ¬ ∀ (limit : Int) (s : Session),
    Reachable (Session.initial limit) Session.step s → ∀ c : Connection,
      c.catlinkClientUuid ∈ s.recent → ¬ WouldShare s.server c →
        (handleSharing s.server c).accepted = false := by
  intro refused
  have accepted := refused 64 supersededSession supersededSession_reachable
    ⟨3, false, false, "third client", "older"⟩ (by decide) (by
      rintro ⟨entry, _, _, _, shares⟩
      have asked : supersededSession.server.sharing = none := by decide
      cases alone : sameClient ⟨3, false, false, "third client", "older"⟩ entry.2 with
      | true => simp [willShareWith, alone] at shares
      | false => simp [willShareWith, alone, asked] at shares)
  exact absurd accepted (by decide)

end Catlink.Sharing
