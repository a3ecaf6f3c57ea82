import Catlink.X11.SelectionTokens

/-! Which tokens carry the same offer-id: what was sent, beside the fields that remember the token
before. -/

namespace Catlink.X11.Selection

open Clipboard Runs

/-! ### What is sent -/

/-- All that decides on the next offer-id. -/
structure OfferFields where
  ownerXid : Nat
  selectionTimestamp : Nat
  id : Nat
  tokenOwnerXid : Nat
  tokenTimestamp : Nat
  lastTargets : List String
  lastContent : Bytes
  lastTarget : String
  lastFiles : List String

def Proxy.offerFields (s : Proxy) : OfferFields where
  ownerXid := s.offerOwnerXid
  selectionTimestamp := s.offerSelectionTimestamp
  id := s.offerId
  tokenOwnerXid := s.offerTokenOwnerXid
  tokenTimestamp := s.offerTokenTimestamp
  lastTargets := s.offerLastTargets
  lastContent := s.offerLastContent
  lastTarget := s.offerLastTarget
  lastFiles := s.offerLastFiles

/-- A token with targets; the owner and the timestamp are those of the owner change recorded last. -/
structure SentToken where
  owner : Nat
  timestamp : Nat
  targets : List String
  target : String
  content : Bytes
  files : List String
  offerId : Nat

inductive Entry
  | remote
  | token (sent : SentToken)

def sentToken (s : Proxy) (otargets : List String) (target : String) (data : PyVal)
    (files : List String) : SentToken where
  owner := s.offerOwnerXid
  timestamp := s.offerSelectionTimestamp
  targets := otargets
  target := target
  content := if target = "" then [] else contentBytes data
  files := files
  offerId := (offerMetadata s otargets target data files).offerId

/-- What a step means for the offers, whatever else it does. -/
inductive OfferStep (o : Outside) : Proxy → List Entry → Proxy → Prop
  | other {s s' : Proxy} (same : s'.offerFields = s.offerFields) : OfferStep o s [] s'
  | owner {s s' : Proxy} (owner timestamp : Nat)
      (changed : s'.offerFields = (doSelectionNotifyEvent s owner timestamp).offerFields) :
      OfferStep o s [] s'
  | remote {s s' : Proxy} (targets : List String) (targetData : List (String × Contents))
      (claim synchronousClient : Bool)
      (reset : s'.offerFields =
        (tokenReceived o s targets targetData claim synchronousClient).offerFields) :
      OfferStep o s [.remote] s'
  | emit {s s' : Proxy} (otargets : List String) (target : String) (data : PyVal)
      (files : List String)
      (noted : s'.offerFields = (offerMetadata s otargets target data files).offerFields) :
      OfferStep o s [.token (sentToken s otargets target data files)] s'

/-- Runs from a proxy that has sent nothing, with the newest entry first. -/
inductive OfferRun (o : Outside) : List Entry → Proxy → Prop
  | start {s : Proxy} (first : initial s) : OfferRun o [] s
  | next {s s' : Proxy} {new history : List Entry} (before : OfferRun o history s)
      (taken : OfferStep o s new s') : OfferRun o (new ++ history) s'

/-! ### Tokens of one copy -/

/-- The last files that were sent with an offer-id, no remote token after them. -/
def lastFiles (id : Nat) : List Entry → List String
  | [] => []
  | .remote :: _ => []
  | .token sent :: history =>
      if sent.offerId ≠ id then [] else if sent.files ≠ [] then sent.files else lastFiles id history

/-- There are more targets now, and all of those before. -/
def Extends (targets more : List String) : Prop :=
  (∀ x ∈ targets, x ∈ more) ∧ ¬ ∀ x ∈ more, x ∈ targets

/-- What two tokens with one offer-id have in common. -/
structure SameCopy (history : List Entry) (first second : SentToken) : Prop where
  owner : second.owner = first.owner
  payload : second.target = first.target → second.content ≠ [] → first.content ≠ [] →
    second.content = first.content
  files : second.files ≠ [] → first.files ≠ [] → second.files = first.files
  event : (second.timestamp = first.timestamp ∧ second.timestamp ≠ 0) ∨ first.targets = [] ∨
    (Extends first.targets second.targets ∧ second.files ≠ [] ∧
      second.files = lastFiles first.offerId (.token first :: history))

def newest? : List Entry → Option SentToken
  | [] => none
  | .remote :: history => newest? history
  | .token sent :: _ => some sent

/-- The fields remember the token before. -/
structure Remembers (history : List Entry) (s : Proxy) : Prop where
  id : ∀ sent, newest? history = some sent → sent.offerId = s.offerId
  token : ∀ sent rest, history = .token sent :: rest →
    s.offerTokenOwnerXid = sent.owner ∧ s.offerTokenTimestamp = sent.timestamp ∧
      s.offerLastTargets = sent.targets ∧
      (sent.content ≠ [] → s.offerLastContent = sent.content ∧ s.offerLastTarget = sent.target) ∧
      (sent.files ≠ [] → s.offerLastFiles = sent.files)
  remote : ∀ rest, history = .remote :: rest → s.offerTokenOwnerXid = 0
  files : s.offerLastFiles ≠ [] → s.offerLastFiles = lastFiles s.offerId history

/-- The fields but for what an owner change sets. -/
theorem Remembers.congr {history : List Entry} {s s' : Proxy} (remembers : Remembers history s)
    (id : s'.offerId = s.offerId) (owner : s'.offerTokenOwnerXid = s.offerTokenOwnerXid)
    (timestamp : s'.offerTokenTimestamp = s.offerTokenTimestamp)
    (targets : s'.offerLastTargets = s.offerLastTargets)
    (content : s'.offerLastContent = s.offerLastContent)
    (target : s'.offerLastTarget = s.offerLastTarget)
    (files : s'.offerLastFiles = s.offerLastFiles) : Remembers history s' := by
  constructor
  · rw [id]
    exact remembers.id
  · rw [owner, timestamp, targets, content, target, files]
    exact remembers.token
  · rw [owner]
    exact remembers.remote
  · rw [files, id]
    exact remembers.files

theorem doSelectionNotifyEvent_fields (s : Proxy) (owner timestamp : Nat) :
    (doSelectionNotifyEvent s owner timestamp).offerFields = s.offerFields ∨
      owner ≠ 0 ∧ (doSelectionNotifyEvent s owner timestamp).offerFields =
        { s.offerFields with ownerXid := owner, selectionTimestamp := timestamp } := by
  unfold doSelectionNotifyEvent
  dsimp only
  split
  · exact .inl rfl
  split
  · exact .inl rfl
  next some =>
    split
    · exact .inl rfl
    · exact .inr ⟨some, rfl⟩

theorem tokenReceived_fields (o : Outside) (s : Proxy) (targets : List String)
    (targetData : List (String × Contents)) (claim synchronousClient : Bool) :
    (tokenReceived o s targets targetData claim synchronousClient).offerFields =
      { s.offerFields with
        lastTargets := [], lastContent := [], lastTarget := "", lastFiles := [], tokenOwnerXid := 0 } := by
  unfold tokenReceived
  dsimp only
  split
  · rfl
  split
  · rfl
  · rfl

/-- Equal fields, one by one. -/
theorem fields_eq {s s' : Proxy} (same : s'.offerFields = s.offerFields) :
    s'.offerOwnerXid = s.offerOwnerXid ∧ s'.offerSelectionTimestamp = s.offerSelectionTimestamp ∧
      s'.offerId = s.offerId ∧ s'.offerTokenOwnerXid = s.offerTokenOwnerXid ∧
      s'.offerTokenTimestamp = s.offerTokenTimestamp ∧ s'.offerLastTargets = s.offerLastTargets ∧
      s'.offerLastContent = s.offerLastContent ∧ s'.offerLastTarget = s.offerLastTarget ∧
      s'.offerLastFiles = s.offerLastFiles := by
  simpa only [Proxy.offerFields, OfferFields.mk.injEq] using same

theorem Remembers.fields {history : List Entry} {s s' : Proxy} (remembers : Remembers history s)
    (same : s'.offerFields = s.offerFields) : Remembers history s' := by
  obtain ⟨-, -, id, owner, timestamp, targets, content, target, files⟩ := fields_eq same
  exact remembers.congr id owner timestamp targets content target files

/-! ### A token is sent -/

/-- The fields after a token, with the decision as a parameter. -/
def noted (s : Proxy) (newOffer : Bool) (sent : SentToken) : OfferFields where
  ownerXid := s.offerOwnerXid
  selectionTimestamp := s.offerSelectionTimestamp
  id := if newOffer then s.offerId + 1 else s.offerId
  tokenOwnerXid := sent.owner
  tokenTimestamp := sent.timestamp
  lastTargets := sent.targets
  lastContent := if newOffer || sent.content ≠ [] then sent.content else s.offerLastContent
  lastTarget := if newOffer || sent.content ≠ [] then sent.target else s.offerLastTarget
  lastFiles := if newOffer || sent.files ≠ [] then sent.files else s.offerLastFiles

/-- No new offer starts with the token. -/
structure GoesOn (s : Proxy) (sent : SentToken) : Prop where
  owner : sent.owner = s.offerTokenOwnerXid
  payload : sent.target = s.offerLastTarget → sent.content ≠ [] → s.offerLastContent ≠ [] →
    sent.content = s.offerLastContent
  files : sent.files ≠ [] → s.offerLastFiles ≠ [] → sent.files = s.offerLastFiles
  event : (sent.timestamp = s.offerTokenTimestamp ∧ sent.timestamp ≠ 0) ∨ s.offerLastTargets = [] ∨
    (Extends s.offerLastTargets sent.targets ∧ sent.files ≠ [] ∧ sent.files = s.offerLastFiles)

theorem offerMetadata_decides (s : Proxy) (otargets : List String) (target : String) (data : PyVal)
    (files : List String) :
    ∃ newOffer : Bool,
      (offerMetadata s otargets target data files).offerFields =
        noted s newOffer (sentToken s otargets target data files) ∧
      (newOffer = false → GoesOn s (sentToken s otargets target data files)) := by
  refine ⟨_, rfl, ?_⟩
  intro goesOn
  simp only [Bool.or_eq_false_iff, Bool.and_eq_false_iff, decide_eq_false_iff_not, ne_eq,
    not_not, Bool.not_eq_false'] at goesOn
  obtain ⟨⟨⟨owner, event⟩, content⟩, sameFiles⟩ := goesOn
  constructor
  · exact owner
  · intro same some before
    rcases content with ((other | none) | nothing) | equal
    · have different : target ≠ s.offerLastTarget := by simpa using other
      exact absurd same different
    · exact absurd none some
    · exact absurd nothing before
    · exact equal
  · intro some before
    rcases sameFiles with (none | nothing) | equal
    · exact absurd none some
    · exact absurd nothing before
    · exact equal
  · rcases event with (first | continuation) | sameEvent
    · exact .inr (.inl first)
    · simp only [Bool.and_eq_true, decide_eq_true_eq, List.all_eq_true, List.contains_iff_mem,
        Bool.not_eq_true', beq_iff_eq] at continuation
      obtain ⟨⟨⟨⟨-, all⟩, more⟩, some, equal⟩, -⟩ := continuation
      refine .inr (.inr ⟨⟨all, ?_⟩, some, equal⟩)
      intro every
      have covered : (otargets.all fun x => s.offerLastTargets.contains x) = true := by
        simp only [List.all_eq_true, List.contains_iff_mem]
        exact every
      rw [covered] at more
      cases more
    · simp only [Bool.and_eq_true, decide_eq_true_eq, beq_iff_eq] at sameEvent
      exact .inl ⟨sameEvent.2, sameEvent.1⟩

/-! ### What is remembered -/

theorem initial_remembers {s : Proxy} (first : initial s) : Remembers [] s := by
  obtain ⟨xid, selection, originNamespace, rfl⟩ := first
  constructor
  · intro sent none
    cases none
  · intro sent rest none
    cases none
  · intro rest none
    cases none
  · intro some
    exact absurd rfl some

theorem owner_remembers {history : List Entry} {s s' : Proxy} (remembers : Remembers history s)
    {owner timestamp : Nat}
    (changed : s'.offerFields = (doSelectionNotifyEvent s owner timestamp).offerFields) :
    Remembers history s' := by
  rcases doSelectionNotifyEvent_fields s owner timestamp with same | ⟨-, recorded⟩
  · exact remembers.fields (changed.trans same)
  · have fields := changed.trans recorded
    simp only [Proxy.offerFields, OfferFields.mk.injEq] at fields
    obtain ⟨-, -, id, token, event, targets, content, target, files⟩ := fields
    exact remembers.congr id token event targets content target files

theorem remote_remembers {o : Outside} {history : List Entry} {s s' : Proxy}
    (remembers : Remembers history s) {targets : List String}
    {targetData : List (String × Contents)} {claim synchronousClient : Bool}
    (reset : s'.offerFields =
      (tokenReceived o s targets targetData claim synchronousClient).offerFields) :
    Remembers (.remote :: history) s' := by
  rw [tokenReceived_fields] at reset
  simp only [Proxy.offerFields, OfferFields.mk.injEq] at reset
  obtain ⟨-, -, id, token, -, -, -, -, files⟩ := reset
  constructor
  · intro sent newest
    rw [id]
    exact remembers.id sent newest
  · intro sent rest split
    cases split
  · intro rest split
    exact token
  · intro some
    exact absurd files some

theorem emit_remembers {history : List Entry} {s s' : Proxy} (remembers : Remembers history s)
    {otargets : List String} {target : String} {data : PyVal} {files : List String}
    (noted : s'.offerFields = (offerMetadata s otargets target data files).offerFields) :
    Remembers (.token (sentToken s otargets target data files) :: history) s' := by
  obtain ⟨newOffer, fields, -⟩ := offerMetadata_decides s otargets target data files
  have sentId : (sentToken s otargets target data files).offerId =
      if newOffer then s.offerId + 1 else s.offerId := congrArg OfferFields.id fields
  generalize sentToken s otargets target data files = sent at fields sentId ⊢
  rw [fields] at noted
  simp only [Proxy.offerFields, Selection.noted, OfferFields.mk.injEq] at noted
  obtain ⟨-, -, id, owner, timestamp, targets, content, lastTarget, files⟩ := noted
  constructor
  · intro newest split
    cases split
    exact sentId.trans id.symm
  · intro newest rest split
    cases split
    refine ⟨owner, timestamp, targets, ?_, ?_⟩
    · intro some
      simp only [content, lastTarget, some, decide_not, decide_false, Bool.not_false, Bool.or_true,
        if_true, and_self]
    · intro some
      simp [files, some]
  · intro rest split
    cases split
  · intro some
    have same : sent.offerId = s'.offerId := sentId.trans id.symm
    simp only [lastFiles, same, ne_eq, not_true_eq_false, if_false]
    split
    next nonempty => simp [files, nonempty]
    next empty =>
      rw [files] at some ⊢
      cases newOffer with
      | true =>
          have none : sent.files = [] := by simpa using empty
          simp [none] at some
      | false =>
          have kept : s'.offerId = s.offerId := id
          simp only [empty, decide_false, Bool.or_false, Bool.false_eq_true, if_false, kept]
            at some ⊢
          exact remembers.files some

theorem OfferRun.remembers {o : Outside} {history : List Entry} {s : Proxy}
    (run : OfferRun o history s) : Remembers history s := by
  induction run with
  | start first => exact initial_remembers first
  | next before taken ih =>
      cases taken with
      | other same => exact ih.fields same
      | owner _ _ changed => exact owner_remembers ih changed
      | remote _ _ _ _ reset => exact remote_remembers ih reset
      | emit _ _ _ _ noted => exact emit_remembers ih noted

/-! ### Two tokens, one after the other -/

/-- The run up to a token. -/
theorem OfferRun.up_to_token {o : Outside} {history later earlier : List Entry} {s : Proxy}
    {sent : SentToken} (run : OfferRun o history s) (split : history = later ++ .token sent :: earlier) :
    ∃ s otargets target data files, OfferRun o earlier s ∧
      sent = sentToken s otargets target data files := by
  induction run generalizing later with
  | start first =>
      rcases List.append_eq_nil_iff.mp split.symm with ⟨-, impossible⟩
      cases impossible
  | next before taken ih =>
      cases taken with
      | other _ => exact ih split
      | owner _ _ _ => exact ih split
      | remote targets targetData claim synchronousClient _ =>
          rcases later with _ | ⟨entry, later⟩
          · cases split
          · exact ih (List.cons.inj split).2
      | emit otargets target data files _ =>
          rcases later with _ | ⟨entry, later⟩
          · cases split
            exact ⟨_, otargets, target, data, files, before, rfl⟩
          · exact ih (List.cons.inj split).2

theorem newest?_onlyRemote {between before : List Entry} {first : SentToken}
    (onlyRemote : ∀ entry ∈ between, entry = .remote) :
    newest? (between ++ .token first :: before) = some first := by
  induction between with
  | nil => rfl
  | cons entry between ih =>
      have remote : entry = .remote := onlyRemote entry (by simp)
      subst remote
      exact ih fun entry inside => onlyRemote entry (by simp [inside])

theorem GoesOn.sameCopy {before : List Entry} {s : Proxy} {first second : SentToken}
    (remembers : Remembers (.token first :: before) s) (goesOn : GoesOn s second) :
    SameCopy before first second := by
  obtain ⟨owner, timestamp, targets, content, files⟩ := remembers.token first before rfl
  have id := remembers.id first rfl
  constructor
  · exact goesOn.owner.trans owner
  · intro same some given
    obtain ⟨lastContent, lastTarget⟩ := content given
    rw [← lastContent]
    exact goesOn.payload (same.trans lastTarget.symm) some (by rwa [lastContent])
  · intro some given
    have lastFiles := files given
    rw [← lastFiles]
    exact goesOn.files some (by rwa [lastFiles])
  · rw [← timestamp, ← targets, id]
    rcases goesOn.event with event | none | ⟨expands, some, equal⟩
    · exact .inl event
    · exact .inr (.inl none)
    · have remembered := remembers.files (by rwa [← equal])
      exact .inr (.inr ⟨expands, some, equal.trans remembered⟩)

/-- Of two tokens one after the other, the second has the offer-id of the first or a larger one. It is
that of the first, once an owner is known, only with no remote token between, and with none between
only for the same copy. -/
theorem offer_identity {o : Outside} {history : List Entry} {s : Proxy}
    (run : OfferRun o history s) (later between before : List Entry) (first second : SentToken)
    (split : history = later ++ .token second :: (between ++ .token first :: before))
    (onlyRemote : ∀ entry ∈ between, entry = .remote) :
    first.offerId ≤ second.offerId ∧
      (first.offerId = second.offerId →
        (second.owner ≠ 0 → between = []) ∧ (between = [] → SameCopy before first second)) := by
  obtain ⟨s, otargets, target, data, files, earlier, sent⟩ := run.up_to_token split
  have remembers := earlier.remembers
  have id := remembers.id first (newest?_onlyRemote onlyRemote)
  obtain ⟨newOffer, fields, goesOn⟩ := offerMetadata_decides s otargets target data files
  have sentId : second.offerId = if newOffer then s.offerId + 1 else s.offerId := by
    rw [sent]
    exact congrArg OfferFields.id fields
  rw [← sent] at goesOn
  cases newOffer with
  | true =>
      rw [if_pos rfl] at sentId
      constructor
      · omega
      · intro same
        omega
  | false =>
      rw [if_neg Bool.false_ne_true] at sentId
      constructor
      · omega
      · intro same
        rcases between with _ | ⟨entry, between⟩
        · exact ⟨fun _ => rfl, fun _ => (goesOn rfl).sameCopy remembers⟩
        · have remote : entry = .remote := onlyRemote entry (by simp)
          subst remote
          have reset := remembers.remote _ rfl
          have unknown : second.owner = 0 := (goesOn rfl).owner.trans reset
          exact ⟨fun known => absurd unknown known, fun none => absurd none (List.cons_ne_nil _ _)⟩

section Examples

variable {o : Outside} {history : List Entry} {s : Proxy}

theorem OfferRun.notify (run : OfferRun o history s) (owner timestamp : Nat) :
    OfferRun o history (doSelectionNotifyEvent s owner timestamp) :=
  run.next (.owner owner timestamp rfl)

theorem OfferRun.send (run : OfferRun o history s) (otargets : List String) (files : List String) :
    OfferRun o (.token (sentToken s otargets "" (.bytes []) files) :: history)
      (offerMetadata s otargets "" (.bytes []) files) :=
  run.next (.emit otargets "" (.bytes []) files rfl)

theorem OfferRun.receive (run : OfferRun o history s) :
    OfferRun o (.remote :: history) (tokenReceived o s [] [] false false) :=
  run.next (.remote [] [] false false rfl)

theorem sending_run (o : Outside) : OfferRun o [] sendingProxy := by
  have same : sendingProxy.offerFields = clipboardProxy.offerFields := rfl
  have first : initial clipboardProxy := ⟨1, "CLIPBOARD", "origin", rfl⟩
  exact (OfferRun.start first).next (.other same)

end Examples

/-- An image is copied; its URI is sent first. -/
theorem offer_identity_image :
    (2 : Nat) ≤ 2 ∧ ((2 : Nat) = 2 → ((42 : Nat) ≠ 0 → ([] : List Entry) = []) ∧
      (([] : List Entry) = [] → SameCopy []
        ⟨42, 1, ["text/uri-list"], "", [], ["file:///A.png"], 2⟩
        ⟨42, 2, ["text/uri-list", "image/png"], "", [], ["file:///A.png"], 2⟩)) := by
  have copied := (sending_run bareOutside).notify 42 1
  have first := copied.send ["text/uri-list"] ["file:///A.png"]
  have second := (first.notify 42 2).send ["text/uri-list", "image/png"] ["file:///A.png"]
  refine offer_identity second [] [] [] ⟨42, 1, ["text/uri-list"], "", [], ["file:///A.png"], 2⟩
    ⟨42, 2, ["text/uri-list", "image/png"], "", [], ["file:///A.png"], 2⟩ rfl ?_
  intro entry inside
  cases inside

/-- Some run ends with two tokens that carry one offer-id. -/
def Repeats (o : Outside) (between before : List Entry) (first second : SentToken) : Prop :=
  (∃ s, OfferRun o (.token second :: (between ++ .token first :: before)) s) ∧
    first.offerId = second.offerId

/-- The two tokens are of one event, or the second has more targets and the files of the first. -/
def SameEvent (first second : SentToken) : Prop :=
  (second.timestamp = first.timestamp ∧ second.timestamp ≠ 0) ∨
    (Extends first.targets second.targets ∧ second.files ≠ [] ∧ second.files = first.files)

instance (first second : SentToken) : Decidable (SameEvent first second) :=
  inferInstanceAs (Decidable ((_ ∧ _) ∨ ((_ ∧ ¬ _) ∧ _ ∧ _)))

/-- No target was sent before; or no owner is known, and the peer has taken the selection in
between; or the files came with a token before. -/
theorem not_offer_identity :
    (Repeats bareOutside [] [] ⟨42, 1, [], "", [], [], 2⟩ ⟨42, 2, ["text/plain"], "", [], [], 2⟩ ∧
      ¬ SameEvent ⟨42, 1, [], "", [], [], 2⟩ ⟨42, 2, ["text/plain"], "", [], [], 2⟩) ∧
    Repeats bareOutside [.remote] [] ⟨0, 0, [], "", [], [], 1⟩ ⟨0, 0, [], "", [], [], 1⟩ ∧
    (Repeats bareOutside [] [.token ⟨42, 1, ["text/uri-list"], "", [], ["file:///A.png"], 2⟩]
        ⟨42, 1, ["text/uri-list"], "", [], [], 2⟩
        ⟨42, 2, ["text/uri-list", "image/png"], "", [], ["file:///A.png"], 2⟩ ∧
      ¬ SameEvent ⟨42, 1, ["text/uri-list"], "", [], [], 2⟩
        ⟨42, 2, ["text/uri-list", "image/png"], "", [], ["file:///A.png"], 2⟩) := by
  have start := sending_run bareOutside
  have copied := start.notify 42 1
  refine ⟨⟨⟨?_, rfl⟩, by decide⟩, ⟨?_, rfl⟩, ⟨⟨?_, rfl⟩, by decide⟩⟩
  · have nothing := copied.send [] []
    exact ⟨_, (nothing.notify 42 2).send ["text/plain"] []⟩
  · have unknown := start.send [] []
    exact ⟨_, unknown.receive.send [] []⟩
  · have files := copied.send ["text/uri-list"] ["file:///A.png"]
    have without := files.send ["text/uri-list"] []
    exact ⟨_, (without.notify 42 2).send ["text/uri-list", "image/png"] ["file:///A.png"]⟩

/-! ### The runs of the proxy -/

/-- What a token says of the copy. -/
structure Offered where
  targets : List String
  target : String
  content : Bytes
  offerId : Nat

def Token.offered (token : Token) : Offered :=
  match token.targetData with
  | none => ⟨token.targets, "", [], token.offerId⟩
  | some (target, contents) =>
      ⟨token.targets, target, if target = "" then [] else contentBytes contents.data, token.offerId⟩

def SentToken.offered (sent : SentToken) : Offered :=
  ⟨sent.targets, sent.target, sent.content, sent.offerId⟩

def Entry.offered? : Entry → Option Offered
  | .remote => none
  | .token sent => some sent.offered

def offeredBy (tokens : List (Option Token)) : List Offered :=
  tokens.filterMap fun token => token.map Token.offered

/-- What is remembered of offers is kept, and nothing is sent. -/
structure Silent (s s' : Proxy) : Prop where
  fields : s'.offerFields = s.offerFields
  tokens : s'.tokens = s.tokens

theorem Silent.refl (s : Proxy) : Silent s s := ⟨rfl, rfl⟩

theorem Silent.trans {s₁ s₂ s₃ : Proxy} (one : Silent s₁ s₂) (two : Silent s₂ s₃) : Silent s₁ s₃ where
  fields := two.fields.trans one.fields
  tokens := two.tokens.trans one.tokens

/-- A step of an offer, with the tokens that are sent in it. -/
def Offers (o : Outside) (s s' : Proxy) : Prop :=
  ∃ new more, OfferStep o s new s' ∧ s'.tokens = s.tokens ++ more ∧
    offeredBy more = new.filterMap Entry.offered?

theorem Silent.offers {o : Outside} {s s' : Proxy} (silent : Silent s s') : Offers o s s' := by
  refine ⟨[], [], .other silent.fields, ?_, rfl⟩
  rw [silent.tokens, List.append_nil]

/-- At most one token with targets is sent. -/
inductive Emits (s s' : Proxy) : Prop
  | nothing (fields : s'.offerFields = s.offerFields) (more : List (Option Token))
      (tokens : s'.tokens = s.tokens ++ more) (bare : offeredBy more = [])
  | one (otargets : List String) (target : String) (data : PyVal) (files : List String)
      (token : Token)
      (fields : s'.offerFields = (offerMetadata s otargets target data files).offerFields)
      (tokens : s'.tokens = s.tokens ++ [some token])
      (same : token.offered = (sentToken s otargets target data files).offered)

theorem Silent.emits {s s' : Proxy} (silent : Silent s s') : Emits s s' :=
  .nothing silent.fields [] (by rw [silent.tokens, List.append_nil]) rfl

theorem Emits.offers {o : Outside} {s s' : Proxy} (emits : Emits s s') : Offers o s s' := by
  cases emits with
  | nothing fields more tokens bare => exact ⟨[], more, .other fields, tokens, bare⟩
  | one otargets target data files token fields tokens same =>
      refine ⟨_, _, .emit otargets target data files fields, tokens, ?_⟩
      simp only [offeredBy, List.filterMap_cons, List.filterMap_nil, Option.map_some,
        Entry.offered?, same]

/-- The number of an offer depends on nothing but the fields. -/
theorem offerMetadata_congr {s s' : Proxy} (same : s'.offerFields = s.offerFields)
    (otargets : List String) (target : String) (data : PyVal) (files : List String) :
    (offerMetadata s' otargets target data files).offerFields =
      (offerMetadata s otargets target data files).offerFields := by
  obtain ⟨owner, timestamp, id, token, event, targets, content, lastTarget, lastFiles⟩ :=
    fields_eq same
  simp only [Proxy.offerFields, offerMetadata, owner, timestamp, id, token, event, targets, content,
    lastTarget, lastFiles]

theorem sentToken_congr {s s' : Proxy} (same : s'.offerFields = s.offerFields)
    (otargets : List String) (target : String) (data : PyVal) (files : List String) :
    sentToken s' otargets target data files = sentToken s otargets target data files := by
  have id := congrArg OfferFields.id (offerMetadata_congr same otargets target data files)
  have owner := congrArg OfferFields.ownerXid same
  have timestamp := congrArg OfferFields.selectionTimestamp same
  simp only [Proxy.offerFields] at id owner timestamp
  simp only [sentToken, id, owner, timestamp]

/-- What went before sent nothing. -/
theorem Emits.after {s₀ s s' : Proxy} (silent : Silent s₀ s) (emits : Emits s s') : Emits s₀ s' := by
  cases emits with
  | nothing fields more tokens bare =>
      rw [silent.tokens] at tokens
      exact .nothing (fields.trans silent.fields) more tokens bare
  | one otargets target data files token fields tokens same =>
      rw [silent.tokens] at tokens
      rw [offerMetadata_congr silent.fields] at fields
      rw [sentToken_congr silent.fields] at same
      exact .one otargets target data files token fields tokens same

section Steps

variable {o : Outside} {s s' : Proxy}

theorem getContents_silent (s : Proxy) (weOwn : Bool) (target : String) (callback : Callback) :
    Silent s (getContents o s weOwn target callback) := by
  unfold getContents
  split
  · exact ⟨rfl, rfl⟩
  · split
    · exact ⟨rfl, rfl⟩
    · exact ⟨rfl, rfl⟩

theorem timeoutGetContents_silent (s : Proxy) (target : String) (requestId : Nat) :
    Silent s (timeoutGetContents s target requestId) := by
  unfold timeoutGetContents
  split
  · exact .refl s
  · split
    · exact .refl s
    · exact ⟨rfl, rfl⟩

theorem gotLocalContents_silent (s : Proxy) (target dtype : String) (dformat : Nat) (data : Bytes) :
    Silent s (gotLocalContents o s target dtype dformat data) := by
  unfold gotLocalContents
  split
  · exact ⟨rfl, rfl⟩
  · split
    · exact .refl s
    · exact ⟨rfl, rfl⟩

theorem gotProperty_silent (s : Proxy) (atom : Atom) (p : Property) :
    Silent s (gotProperty o s atom p) := by
  unfold gotProperty
  dsimp only
  have noted : Silent s (s.note (.read atom.epoch atom.target p.dtype p.dformat p.data)) := ⟨rfl, rfl⟩
  split
  · split
    · exact ⟨rfl, rfl⟩
    · next targets _ =>
        have set : Silent s
            ((s.note (.read atom.epoch atom.target p.dtype p.dformat p.data)).setTargets targets) :=
          ⟨rfl, rfl⟩
        exact set.trans (gotLocalContents_silent _ _ _ _ _)
  · exact noted.trans (gotLocalContents_silent _ _ _ _ _)

theorem gotIncremental_silent (s : Proxy) (atom : Atom) (state : IncrementalData) (p : Property) :
    Silent s (gotIncremental o s atom state p) := by
  have reset : Silent s (s.resetIncrData atom) := ⟨rfl, rfl⟩
  unfold gotIncremental
  dsimp only
  split
  · exact reset.trans (gotLocalContents_silent _ _ _ _ _)
  · split
    · exact ⟨rfl, rfl⟩
    · generalize (state.typed p).chunks.flatten = data
      have noted : Silent s
          ((s.resetIncrData atom).note (.read atom.epoch atom.target p.dtype p.dformat data)) :=
        ⟨rfl, rfl⟩
      exact noted.trans (gotLocalContents_silent _ _ _ _ _)

theorem doPropertyNotify_silent (s : Proxy) (atom : Atom) (property : Option Property) :
    Silent s (doPropertyNotify o s atom property) := by
  unfold doPropertyNotify
  split
  · exact .refl s
  split
  · exact .refl s
  split
  · exact .refl s
  next p =>
    split
    · exact gotIncremental_silent s atom _ p
    · split
      · split
        · exact ⟨rfl, rfl⟩
        · exact ⟨rfl, rfl⟩
      · exact gotProperty_silent s atom p

theorem popAndRespond_silent (s : Proxy) (target : String) (contents : Contents) :
    Silent s (popAndRespond o s target contents) := by
  unfold popAndRespond
  split
  · exact .refl s
  · next pending rest _ =>
      obtain ⟨new, all | some⟩ := respondAll_shape (o := o) (s := { s with remoteRequests := rest })
        target contents.dtype contents.dformat contents.data pending
      · rw [all]
        exact ⟨rfl, rfl⟩
      · rw [some]
        exact ⟨rfl, rfl⟩

theorem gotContents_silent (s : Proxy) (asked : Nat) (target : String) (contents : Contents) :
    Silent s (gotContents o s asked target contents) := by
  unfold gotContents
  split
  · split
    · exact ⟨rfl, rfl⟩
    · next targets _ =>
        have noted : Silent s ((s.setTargets targets).note (.remoteTargets asked targets)) :=
          ⟨rfl, rfl⟩
        exact noted.trans (popAndRespond_silent _ target contents)
  · exact popAndRespond_silent s target contents

theorem gotNothing_silent (s : Proxy) (rr : List String) : Silent s (gotNothing o s rr) := by
  induction rr generalizing s with
  | nil => exact .refl s
  | cons target rr ih => exact (gotContents_silent s _ target {}).trans (ih _)

theorem cleanup_silent (s : Proxy) : Silent s (cleanup o s) := by
  have reset : Silent s { s.resetAllIncrData with remoteRequests := [] } := ⟨rfl, rfl⟩
  have answered := reset.trans (gotNothing_silent (o := o) _ (s.remoteRequests.map Prod.fst))
  exact answered.trans ⟨rfl, rfl⟩

theorem doSelectionRequestEvent_silent (idle : s.stack = []) (event : SelectionRequest) :
    Silent s (doSelectionRequestEvent o s event) := by
  rcases doSelectionRequestEvent_shape (o := o) idle event with
    ⟨new, _, same⟩ | ⟨_, target, same | same⟩
  · rw [same]
    exact ⟨rfl, rfl⟩
  · rw [same]
    exact ⟨rfl, rfl⟩
  · rw [same]
    exact ⟨rfl, rfl⟩

/-! #### A token -/

theorem sendTokenWithTargets_emits (s : Proxy) (offer : Offer) (files : List String) :
    Emits s (sendTokenWithTargets s offer files) := by
  unfold sendTokenWithTargets
  split
  · exact .one s.targets "" (.bytes []) files _ rfl rfl rfl
  · exact (Silent.refl s).emits

theorem gotChosenTarget_emits (s : Proxy) (offer : Offer) (otargets : List String) (target : String)
    (files : List String) (contents : Contents) :
    Emits s (gotChosenTarget s offer otargets target files contents) := by
  unfold gotChosenTarget
  split
  · split
    · exact .one otargets target contents.data files _ rfl rfl rfl
    · exact sendTokenWithTargets_emits s offer files
  · exact (Silent.refl s).emits

theorem gotFiles_emits (s : Proxy) (weOwn : Bool) (offer : Offer) (otargets : List String)
    (target : String) (contents : Contents) :
    Emits s (gotFiles o s weOwn offer otargets target contents) := by
  unfold gotFiles
  split
  · dsimp only
    split
    · exact gotChosenTarget_emits s offer otargets target _ contents
    · exact (getContents_silent s weOwn target _).emits
  · exact (Silent.refl s).emits

theorem withTargets_emits (s : Proxy) (weOwn : Bool) (offer : Offer) (otargets : List String) :
    Emits s (withTargets o s weOwn offer otargets) := by
  unfold withTargets
  split
  · split
    · exact sendTokenWithTargets_emits s offer []
    · split
      · exact sendTokenWithTargets_emits s offer []
      · split
        · exact (getContents_silent s weOwn _ _).emits
        · exact (getContents_silent s weOwn _ _).emits
  · exact (Silent.refl s).emits

theorem gotTargets_emits (s : Proxy) (weOwn : Bool) (offer : Offer) (contents : Contents) :
    Emits s (gotTargets o s weOwn offer contents) := by
  unfold gotTargets
  split
  · split
    · exact sendTokenWithTargets_emits s offer []
    · dsimp only
      generalize (xatomsToStrings o (memoryviewToBytes o contents.data)).getD [] = targets
      have set : Silent s (s.setTargets targets) := ⟨rfl, rfl⟩
      exact (withTargets_emits _ weOwn offer targets).after set
  · exact (Silent.refl s).emits

theorem setLocalClipboardOrigin_silent (s : Proxy) (identity : String) :
    Silent s (setLocalClipboardOrigin s identity) := by
  unfold setLocalClipboardOrigin
  split
  · exact ⟨rfl, rfl⟩
  · exact ⟨rfl, rfl⟩

theorem getClipboardTokenMetadata_silent (s : Proxy) : Silent s (getClipboardTokenMetadata s) := by
  unfold getClipboardTokenMetadata
  split
  · exact setLocalClipboardOrigin_silent s ""
  · exact .refl s

theorem scheduleEmitToken_emits (s : Proxy) (weOwn : Bool) : Emits s (scheduleEmitToken o s weOwn) := by
  have named := getClipboardTokenMetadata_silent s
  unfold scheduleEmitToken
  dsimp only
  generalize getClipboardTokenMetadata s = s₁ at named ⊢
  have noted : Silent s (s₁.note (.origin s₁.offerEpoch s₁.clipboardOrigin)) :=
    named.trans ⟨rfl, rfl⟩
  refine Emits.after noted ?_
  split
  · exact .nothing rfl [none] rfl rfl
  · split
    · exact withTargets_emits _ weOwn _ _
    · exact (getContents_silent _ weOwn _ _).emits

theorem ownerChanged_emits (s : Proxy) (weOwn : Bool) : Emits s (ownerChanged o s weOwn) := by
  have forgotten : Silent s (Proxy.setTargets { s with targetData := [] } []) := ⟨rfl, rfl⟩
  unfold ownerChanged
  dsimp only
  refine Emits.after forgotten ?_
  split
  · exact (Silent.refl _).emits
  · split
    · exact scheduleEmitToken_emits _ weOwn
    · exact (Silent.refl _).emits

theorem complete_emits (s : Proxy) (weOwn : Bool) (completion : Completion) :
    Emits s (complete o s weOwn completion) := by
  unfold complete
  dsimp only
  have called : Silent s { s with
      timers := completion.timer.elim s.timers s.timers.remove
      completed := s.completed ++ [completion] } := ⟨rfl, rfl⟩
  refine Emits.after called ?_
  split
  · exact Silent.emits ⟨rfl, rfl⟩
  · exact gotTargets_emits _ weOwn _ _
  · exact gotFiles_emits _ weOwn _ _ _ _
  · exact gotChosenTarget_emits _ _ _ _ _ _

theorem tokenReceived_tokens (s : Proxy) (targets : List String)
    (targetData : List (String × Contents)) (claim synchronousClient : Bool) :
    (tokenReceived o s targets targetData claim synchronousClient).tokens = s.tokens := by
  unfold tokenReceived
  dsimp only
  split
  · rfl
  split
  · rfl
  · rfl

theorem doSelectionNotifyEvent_tokens (s : Proxy) (owner timestamp : Nat) :
    (doSelectionNotifyEvent s owner timestamp).tokens = s.tokens := by
  unfold doSelectionNotifyEvent
  dsimp only
  split
  · rfl
  split
  · rfl
  split
  · rfl
  · exact (setLocalClipboardOrigin_silent _ _).tokens

theorem run_offers {task : Task} {rest : List Task} (weOwn : Bool) :
    Offers o s (task.run o { s with stack := rest } weOwn) := by
  have popped : Silent s { s with stack := rest } := ⟨rfl, rfl⟩
  cases task with
  | complete completion => exact ((complete_emits _ weOwn completion).after popped).offers
  | running n => exact popped.offers
  | ownerChanged => exact ((ownerChanged_emits _ weOwn).after popped).offers
  | tokenReceived targets targetData claim synchronousClient =>
      refine ⟨[.remote], [], .remote targets targetData claim synchronousClient ?_, ?_, rfl⟩
      · exact (tokenReceived_fields o _ targets targetData claim synchronousClient).trans
          (tokenReceived_fields o s targets targetData claim synchronousClient).symm
      · exact (tokenReceived_tokens _ targets targetData claim synchronousClient).trans
          (List.append_nil _).symm
  | gotContents target contents => exact (popped.trans (gotContents_silent _ _ target contents)).offers
  | gotLocalContents target =>
      have silent := gotLocalContents_silent (o := o) { s with stack := rest } target "" 8 []
      exact (popped.trans silent).offers
  | claim => exact Silent.offers ⟨rfl, rfl⟩

/-- One action of a run. -/
theorem step_offers {a : Action} (taken : step o s a s') : Offers o s s' := by
  cases a with
  | proceed weOwn =>
      obtain ⟨task, rest, first, rfl⟩ := taken
      exact run_offers weOwn
  | getContents target n weOwn =>
      obtain ⟨-, rfl⟩ := taken
      exact (getContents_silent s weOwn target (.caller n)).offers
  | gotToken targets targetData claim synchronousClient =>
      obtain ⟨-, rfl⟩ := taken
      unfold gotToken
      split
      · exact (Silent.refl s).offers
      · exact Silent.offers ⟨rfl, rfl⟩
  | gotContents asked target contents =>
      obtain ⟨-, rfl⟩ := taken
      exact (gotContents_silent s asked target contents).offers
  | cleanup =>
      obtain ⟨-, rfl⟩ := taken
      exact (cleanup_silent s).offers
  | claim weOwn | setEnabled enabled | setDirection canSend canReceive | setWantTargets wantTargets
  | setGreedyClient greedy | setPreferredTargets preferredTargets =>
      obtain ⟨-, rfl⟩ := taken
      exact Silent.offers ⟨rfl, rfl⟩
  | raised =>
      obtain ⟨-, rfl⟩ := taken
      exact Silent.offers ⟨rfl, rfl⟩
  | selectionRequest event =>
      obtain ⟨idle, rfl⟩ := taken
      exact (doSelectionRequestEvent_silent idle event).offers
  | selectionNotify owner timestamp =>
      obtain ⟨-, rfl⟩ := taken
      exact ⟨[], [], .owner owner timestamp rfl,
        (doSelectionNotifyEvent_tokens s owner timestamp).trans (List.append_nil _).symm, rfl⟩
  | selectionClear =>
      obtain ⟨-, rfl⟩ := taken
      unfold doSelectionClearEvent
      split
      · exact (Silent.refl s).offers
      · exact Silent.offers ⟨rfl, rfl⟩
  | propertyNotify atom property =>
      obtain ⟨-, rfl⟩ := taken
      exact (doPropertyNotify_silent s atom property).offers
  | timeout source timer =>
      obtain ⟨-, -, rfl⟩ := taken
      have removed : Silent s { s with timers := s.timers.remove source } := ⟨rfl, rfl⟩
      cases timer with
      | getContents target requestId =>
          exact (removed.trans (timeoutGetContents_silent _ target requestId)).offers
      | incrData atom => exact Silent.offers ⟨rfl, rfl⟩

end Steps

/-- Every run of the proxy is one of the offers it makes, with the tokens it has sent. -/
theorem reachable_offers {o : Outside} {s : Proxy} (reached : Reachable initial (step o) s) :
    ∃ history, OfferRun o history s ∧
      offeredBy s.tokens = history.reverse.filterMap Entry.offered? := by
  induction reached with
  | start first =>
      refine ⟨[], .start first, ?_⟩
      obtain ⟨xid, selection, originNamespace, rfl⟩ := first
      rfl
  | next before taken ih =>
      obtain ⟨history, run, sent⟩ := ih
      obtain ⟨new, more, offer, tokens, same⟩ := step_offers taken
      refine ⟨new ++ history, run.next offer, ?_⟩
      have order : new.reverse = new := by
        cases offer with
        | other _ | owner _ _ _ => rfl
        | remote _ _ _ _ _ => rfl
        | emit _ _ _ _ _ => rfl
      rw [tokens, List.reverse_append, order, List.filterMap_append, ← sent, ← same, offeredBy,
        List.filterMap_append]
      rfl

end Catlink.X11.Selection
