import Catlink.Clipboard.Bridge

/-! Generations of the clipboard bridge: what may change, and for which offer. -/

namespace Catlink.Clipboard.CatlinkBridge

open UriText Runs

/-! ### What the fields that guard an offer depend on -/

/-- The fields that tell which offer is current, and who is waited for. -/
structure Core where
  generation : Nat
  active : Bool
  sourceOfferId : Int
  offerFingerprint : Option Fingerprint
  requestGenerations : List (Nat × Key)
  clipboardRequestCounter : Nat
  reading : Option (Key × Bytes)
  responses : List (Key × (String × Bytes))

def Bridge.core (s : Bridge) : Core :=
  ⟨s.generation, s.active, s.sourceOfferId, s.offerFingerprint, s.requestGenerations,
    s.clipboardRequestCounter, s.reading, s.responses⟩

/-- The guards and the inline data stay as they are. -/
structure Kept (s s' : Bridge) : Prop where
  core : s'.core = s.core
  inline : s'.inline = s.inline

theorem Kept.refl (s : Bridge) : Kept s s := ⟨rfl, rfl⟩

theorem Kept.trans {s middle s' : Bridge} (first : Kept s middle) (second : Kept middle s') :
    Kept s s' :=
  ⟨second.core.trans first.core, second.inline.trans first.inline⟩

theorem Kept.generation {s s' : Bridge} (kept : Kept s s') : s'.generation = s.generation :=
  congrArg Core.generation kept.core

theorem send_kept (raises : Message → Bool) (s : Bridge) (message : Message) :
    Kept s (send raises s message).1 := by
  unfold send
  split
  · exact .refl s
  · split
    · exact .refl s
    · exact ⟨rfl, rfl⟩

theorem startThread_kept (s : Bridge) (worker : Worker) : Kept s (startThread s worker) := ⟨rfl, rfl⟩

theorem receiveImage_kept (raises : Message → Bool) (s : Bridge) (target dtype : String)
    (data : Data) : Kept s (receiveImage raises s target dtype data).1 := by
  unfold receiveImage
  dsimp only
  split
  · exact ⟨rfl, rfl⟩
  · split
    · exact ⟨(send_kept raises _ _).core, (send_kept raises _ _).inline⟩
    · exact ⟨(send_kept raises _ _).core, (send_kept raises _ _).inline⟩

/-! ### Tokens -/

/-- The guards stay, and what is new in the inline data was given with the token. -/
structure Fed (items : List (String × Value)) (s s' : Bridge) : Prop where
  core : s'.core = s.core
  inline : ∀ e ∈ s'.inline, e ∈ s.inline ∨ (e.1.1 = s.generation ∧ (e.1.2, e.2) ∈ items)

theorem Kept.fed {s s' : Bridge} (kept : Kept s s') (items : List (String × Value)) :
    Fed items s s' :=
  ⟨kept.core, fun e member => .inl (by rwa [kept.inline] at member)⟩

theorem Fed.trans {items : List (String × Value)} {s middle s' : Bridge}
    (first : Fed items s middle) (second : Fed items middle s') : Fed items s s' := by
  have same : middle.generation = s.generation := congrArg Core.generation first.core
  refine ⟨second.core.trans first.core, ?_⟩
  intro e member
  rcases second.inline e member with old | ⟨here, given⟩
  · exact first.inline e old
  · exact .inr ⟨here.trans same, given⟩

theorem tokenInline_fed {items : List (String × Value)} (s : Bridge) {target : String} {value : Value}
    (given : (target, value) ∈ items) : Fed items s (tokenInline s target value) := by
  unfold tokenInline
  split
  · exact (Kept.refl s).fed items
  · refine ⟨rfl, ?_⟩
    intro e member
    rcases Dict.of_mem_set member with rfl | old
    · exact .inr ⟨rfl, given⟩
    · exact .inl old

theorem tokenHtml_kept (s : Bridge) (target : String) (value : Value) :
    Kept s (tokenHtml s target value).1 := by
  unfold tokenHtml
  split
  · split
    · exact .refl s
    · exact startThread_kept s _
  · exact .refl s

theorem tokenUris_kept (s : Bridge) (target : String) (value : Value) :
    Kept s (tokenUris s target value).1 := by
  unfold tokenUris
  split
  · split
    · exact .refl s
    · exact ⟨rfl, rfl⟩
  · exact .refl s

theorem tokenImage_kept (raises : Message → Bool) (s : Bridge) (target : String) (value : Value) :
    Kept s (tokenImage raises s target value).1 := by
  unfold tokenImage
  split
  · exact receiveImage_kept raises s _ _ _
  · exact .refl s

theorem tokenItem_fed {items : List (String × Value)} (raises : Message → Bool) (s : Bridge)
    {target : String} {value : Value} (given : (target, value) ∈ items) :
    Fed items s (tokenItem raises s target value).1 := by
  have inline := tokenInline_fed s given
  have html := (tokenHtml_kept (tokenInline s target value) target value).fed items
  unfold tokenItem
  rcases htmlRun : tokenHtml (tokenInline s target value) target value with ⟨s1, _ | _⟩
  · rw [htmlRun] at html
    exact inline.trans html
  · rw [htmlRun] at html
    have uris := (tokenUris_kept s1 target value).fed items
    dsimp only
    rcases urisRun : tokenUris s1 target value with ⟨s2, _ | _⟩
    · rw [urisRun] at uris
      exact (inline.trans html).trans uris
    · rw [urisRun] at uris
      exact ((inline.trans html).trans uris).trans ((tokenImage_kept raises s2 target value).fed items)

theorem tokenData_fed {items : List (String × Value)} (raises : Message → Bool) (s : Bridge)
    (rest : List (String × Value)) (given : ∀ item ∈ rest, item ∈ items) :
    Fed items s (tokenData raises s rest).1 := by
  induction rest generalizing s with
  | nil => exact (Kept.refl s).fed items
  | cons item rest ih =>
      have first := tokenItem_fed raises s (given item List.mem_cons_self)
      rw [tokenData]
      rcases run : tokenItem raises s item.1 item.2 with ⟨s1, _ | _⟩
      · rw [run] at first
        exact first
      · rw [run] at first
        exact first.trans (ih s1 fun other member => given other (List.mem_cons_of_mem _ member))

/-! ### What a step changes -/

/-- The proxy's offer or claim is there to be retired. -/
def Retires (s : Bridge) (proxy : Proxy) : Prop :=
  accepts s proxy = true ∧ (s.active = true ∨ s.claimedProxy = some proxy)

/-- A token is for the selection of the bridge. -/
def Listens (s : Bridge) (tok : Token) : Prop :=
  accepts s tok.proxy = true ∧ tok.selection = "CLIPBOARD" ∧
    (s.selectionName = "" ∨ s.selectionName = "CLIPBOARD")

/-- A new offer: neither merged into the current one nor a duplicate of it. -/
def NewOffer (s : Bridge) : Action → Prop
  | .token tok _ =>
      Listens s tok ∧ tok.managed ≠ [] ∧ tok.merges s = false ∧ tok.duplicates s = false
  | _ => False

/-- An invalidation that finds something to retire. -/
def Invalidates (s : Bridge) : Action → Prop
  | .invalidateNative proxy _ => Retires s proxy
  | .token tok _ => Listens s tok ∧ tok.managed = [] ∧ Retires s tok.proxy
  | _ => False

/-- A reply has changed no cache, sent nothing and started nothing. -/
structure Untouched (s s' : Bridge) : Prop where
  responses : s'.responses = s.responses
  inline : s'.inline = s.inline
  received : s'.received = s.received
  requested : s'.requested = s.requested
  unavailable : s'.unavailable = s.unavailable
  uriFileOffers : s'.uriFileOffers = s.uriFileOffers
  sent : s'.sent = s.sent
  threads : s'.threads = s.threads

/-- `_request_remote` asks for the canonical target. -/
def canonical (target : String) : String :=
  if target = "application/x-qt-image" then "image/png" else target

/-- The target of a request for remote data. -/
def requestedTarget : Action → Option String
  | .requestRemote _ target _ | .provideTarget _ target _ => some (canonical target)
  | _ => none

/-- All that a step may do to the guards and the inline data. -/
inductive Change (s : Bridge) (a : Action) (s' : Bridge) : Prop
  | kept (kept : Kept s s')
  | retired (core : s'.core = { s.core with
      generation := s.generation + 1, active := false, sourceOfferId := 0
      offerFingerprint := none, responses := [] }) (inline : s'.inline = [])
  | deactivated (core : s'.core = { s.core with active := false }) (inline : s'.inline = s.inline)
  /-- a duplicate or a merged offer -/
  | again (tok : Token) (raises : Message → Bool) (action : a = .token tok raises)
      (known : s.offerFingerprint ≠ none ∨ s.sourceOfferId ≠ 0)
      (core : s'.core = { s.core with active := true })
      (inline : ∀ e ∈ s'.inline,
        e ∈ s.inline ∨ (e.1.1 = s.generation ∧ (e.1.2, e.2) ∈ tok.targetData))
  | opened (tok : Token) (raises : Message → Bool) (action : a = .token tok raises)
      (new : NewOffer s a)
      (core : s'.core = { s.core with
        generation := s.generation + 1, active := true, sourceOfferId := tok.sourceOfferId
        offerFingerprint := some tok.fingerprint, responses := [] })
      (inline : ∀ e ∈ s'.inline, e.1.1 = s.generation + 1 ∧ (e.1.2, e.2) ∈ tok.targetData)
  | ignored (id : Nat)
      (core : s'.core = { s.core with requestGenerations := Dict.erase s.requestGenerations id })
      (inline : s'.inline = s.inline)
  | consumed (reply : Reply) (raises : Message → Bool) (id : Nat) (action : a = .contents reply raises)
      (asked : reply.requestId = some id)
      (registered : Dict.get s.requestGenerations id = some (s.generation, reply.target))
      (active : s.active = true)
      (core : s'.core = { s.core with requestGenerations := Dict.erase s.requestGenerations id })
      (inline : ∀ e ∈ s'.inline,
        e ∈ s.inline ∨ e = ((s.generation, reply.target), ⟨reply.dtype, reply.dformat, reply.data⟩))
  | registered (target : String) (action : requestedTarget a = some target)
      (active : s.active = true)
      (core : s'.core = { s.core with
        clipboardRequestCounter := s.clipboardRequestCounter + 1
        requestGenerations :=
          Dict.set s.requestGenerations s.clipboardRequestCounter (s.generation, target) })
      (inline : s'.inline = s.inline)
  | counted (core : s'.core = { s.core with
      clipboardRequestCounter := s.clipboardRequestCounter + 1 }) (inline : s'.inline = s.inline)
  | tested (key : Key) (data : Bytes) (action : a = .readResponse key data)
      (current : key.1 = s.generation) (active : s.active = true)
      (core : s'.core = { s.core with reading := some (key, data) }) (inline : s'.inline = s.inline)
  | stored (key : Key) (data : Bytes) (pending : s.reading = some (key, data))
      (core : s'.core = { s.core with reading := none, responses := s'.responses })
      (responses : s'.responses = s.responses ∨
        (s'.responses = Dict.set s.responses key (key.2, data) ∧
          (data ≠ [] ∨ Dict.get s.responses key = none)))
      (inline : s'.inline = s.inline)

theorem invalidateNative_cases (raises : Message → Bool) (s : Bridge) (proxy : Proxy) :
    (¬ Retires s proxy ∧ (invalidateNative raises s proxy).1 = s) ∨
    (Retires s proxy ∧ (invalidateNative raises s proxy).1.core = { s.core with
        generation := s.generation + 1, active := false, sourceOfferId := 0
        offerFingerprint := none, responses := [] } ∧
      (invalidateNative raises s proxy).1.inline = []) := by
  unfold invalidateNative Retires
  by_cases nothing : ¬ accepts s proxy = true ∨ ¬ (s.active = true ∨ s.claimedProxy = some proxy)
  · rw [if_pos nothing]
    exact .inl ⟨fun ⟨accepted, owned⟩ => nothing.elim (· accepted) (· owned), rfl⟩
  · rw [if_neg nothing]
    rw [not_or, not_not, not_not] at nothing
    exact .inr ⟨nothing, (send_kept raises _ _).core, (send_kept raises _ _).inline⟩

theorem acceptOffer_cases (raises : Message → Bool) (s : Bridge) (tok : Token) :
    (tok.merges s = true ∧ Fed tok.targetData s (acceptOffer raises s tok).1) ∨
    (tok.merges s = false ∧ (acceptOffer raises s tok).1.core = { s.core with
        generation := s.generation + 1, sourceOfferId := tok.sourceOfferId
        offerFingerprint := some tok.fingerprint, responses := [] } ∧
      ∀ e ∈ (acceptOffer raises s tok).1.inline,
        e.1.1 = s.generation + 1 ∧ (e.1.2, e.2) ∈ tok.targetData) := by
  have given : ∀ item ∈ tok.targetData, item ∈ tok.targetData := fun _ member => member
  unfold acceptOffer
  by_cases merged : tok.merges s = true
  · rw [if_pos merged]
    have merge : Kept s (mergeOffer s tok) := ⟨rfl, rfl⟩
    exact .inl ⟨merged, (merge.fed _).trans (tokenData_fed raises _ _ given)⟩
  · rw [if_neg merged]
    have offered := send_kept raises (newOffer s tok) (.offer (s.generation + 1) tok.targets tok.text)
    have new (s' : Bridge) (fed : Fed tok.targetData (newOffer s tok) s') :
        s'.core = { s.core with
          generation := s.generation + 1, sourceOfferId := tok.sourceOfferId
          offerFingerprint := some tok.fingerprint, responses := [] } ∧
        ∀ e ∈ s'.inline, e.1.1 = s.generation + 1 ∧ (e.1.2, e.2) ∈ tok.targetData := by
      refine ⟨fed.core, ?_⟩
      intro e member
      rcases fed.inline e member with old | fresh
      · exact absurd old List.not_mem_nil
      · exact fresh
    refine .inr ⟨by simpa using merged, ?_⟩
    rcases run : send raises (newOffer s tok) (.offer (s.generation + 1) tok.targets tok.text) with
      ⟨s1, _ | _⟩
    · rw [run] at offered
      exact new s1 (offered.fed _)
    · rw [run] at offered
      exact new _ ((offered.fed _).trans (tokenData_fed raises s1 _ given))

theorem listens_of_guards {s : Bridge} {tok : Token}
    (here : ¬ (¬ accepts s tok.proxy = true ∨ tok.selection ≠ "CLIPBOARD"))
    (selection : ¬ (s.selectionName ≠ "" ∧ tok.selection ≠ s.selectionName)) : Listens s tok := by
  rw [not_or, not_not, not_not] at here
  refine ⟨here.1, here.2, ?_⟩
  by_cases unnamed : s.selectionName = ""
  · exact .inl unnamed
  · rw [not_and, not_not] at selection
    exact .inr ((selection unnamed).symm.trans here.2)

theorem handleToken_change (raises : Message → Bool) (s : Bridge) (tok : Token) :
    Change s (.token tok raises) (handleToken raises s tok).1 := by
  unfold handleToken
  by_cases elsewhere : ¬ accepts s tok.proxy = true ∨ tok.selection ≠ "CLIPBOARD"
  · rw [if_pos elsewhere]
    exact .kept (.refl s)
  · rw [if_neg elsewhere]
    dsimp only
    split
    · exact .kept ⟨rfl, rfl⟩
    · split
      · exact .kept ⟨rfl, rfl⟩
      · next other =>
          have listens : Listens s tok := listens_of_guards elsewhere other
          split
          · -- text only: the current offer is retired
            simp only [outcomeOf]
            rcases invalidateNative_cases raises { s with lastTokenDuplicate := false } tok.proxy with
              ⟨_, same⟩ | ⟨_, core, inline⟩
            · rw [same]
              exact .kept ⟨rfl, rfl⟩
            · exact .retired core inline
          · next managed =>
              split
              · next duplicate =>
                  refine .again tok raises rfl (.inl ?_) rfl fun e member => .inl member
                  simp only [Token.duplicates, Bool.and_eq_true, decide_eq_true_eq] at duplicate
                  rw [← duplicate.2]
                  simp
              · next fresh =>
                  simp only [outcomeOf]
                  rcases acceptOffer_cases raises
                      { s with lastTokenDuplicate := false, active := true } tok with
                    ⟨merged, fed⟩ | ⟨unmerged, core, inline⟩
                  · refine .again tok raises rfl (.inr ?_) fed.core fed.inline
                    simp only [Token.merges, Bool.and_eq_true, decide_eq_true_eq] at merged
                    rw [← merged.1.2]
                    exact merged.1.1
                  · refine .opened tok raises rfl ⟨listens, managed, unmerged, ?_⟩ core inline
                    exact Bool.eq_false_iff.mpr fresh

theorem contentsUnavailable_kept (raises : Message → Bool) (s : Bridge) (reply : Reply) :
    Kept s (contentsUnavailable raises s reply).1 := by
  unfold contentsUnavailable
  split
  · exact startThread_kept s _
  · exact ⟨(send_kept raises _ _).core, (send_kept raises _ _).inline⟩

theorem storeContents_cases (raises : Message → Bool) (s : Bridge) (reply : Reply) :
    (storeContents raises s reply).1.core = s.core ∧
      ∀ e ∈ (storeContents raises s reply).1.inline, e ∈ s.inline ∨
        e = ((s.generation, reply.target), ⟨reply.dtype, reply.dformat, reply.data⟩) := by
  have kept (s' : Bridge) (same : Kept s s') : s'.core = s.core ∧ ∀ e ∈ s'.inline, e ∈ s.inline ∨
      e = ((s.generation, reply.target), ⟨reply.dtype, reply.dformat, reply.data⟩) :=
    ⟨same.core, fun e member => .inl (by rwa [same.inline] at member)⟩
  unfold storeContents
  dsimp only
  split
  · exact kept _ ⟨rfl, rfl⟩
  · split
    · exact kept _ ⟨rfl, rfl⟩
    · split
      · split
        · exact kept _ ⟨rfl, rfl⟩
        · exact kept _ ⟨rfl, rfl⟩
      · split
        · exact kept _ ⟨(receiveImage_kept raises _ _ _ _).core, (receiveImage_kept raises _ _ _ _).inline⟩
        · refine ⟨rfl, ?_⟩
          intro e member
          rcases Dict.of_mem_set member with new | old
          · exact .inr new
          · exact .inl old

/-- A reply is the answer to a request of the current offer. -/
structure Answers (s : Bridge) (reply : Reply) (id : Nat) (s' : Bridge) : Prop where
  asked : reply.requestId = some id
  registered : Dict.get s.requestGenerations id = some (s.generation, reply.target)
  active : s.active = true
  core : s'.core = { s.core with requestGenerations := Dict.erase s.requestGenerations id }
  inline : ∀ e ∈ s'.inline,
    e ∈ s.inline ∨ e = ((s.generation, reply.target), ⟨reply.dtype, reply.dformat, reply.data⟩)

theorem handleContents_cases (raises : Message → Bool) (s : Bridge) (reply : Reply) :
    (handleContents raises s reply).1 = s ∨
    (∃ id, (handleContents raises s reply).1 =
      { s with requestGenerations := Dict.erase s.requestGenerations id }) ∨
    (∃ id, Answers s reply id (handleContents raises s reply).1) := by
  unfold handleContents
  split
  · exact .inl rfl
  · cases asked : reply.requestId with
    | none => exact .inl rfl
    | some id =>
        cases registered : Dict.get s.requestGenerations id with
        | none =>
            simp only [popRequest, registered]
            exact .inr (.inl ⟨id, rfl⟩)
        | some key =>
            obtain ⟨requestGeneration, requestTarget⟩ := key
            simp only [popRequest, registered]
            split
            · exact .inr (.inl ⟨id, rfl⟩)
            · next current =>
                simp only [ne_eq, not_or, not_not] at current
                obtain ⟨rfl, rfl⟩ := current
                split
                · exact .inr (.inl ⟨id, rfl⟩)
                · next wanted =>
                    simp only [not_or, not_not] at wanted
                    split
                    · have kept := contentsUnavailable_kept raises { s with
                        requestGenerations := Dict.erase s.requestGenerations id } reply
                      refine .inr (.inr ⟨id, asked, registered, wanted.1, kept.core, ?_⟩)
                      intro e member
                      exact .inl (by simpa [outcomeOf, kept.inline] using member)
                    · have stored := storeContents_cases raises { s with
                        requestGenerations := Dict.erase s.requestGenerations id } reply
                      exact .inr (.inr ⟨id, asked, registered, wanted.1, stored.1, stored.2⟩)

theorem handleContents_change (raises : Message → Bool) (s : Bridge) (reply : Reply) :
    Change s (.contents reply raises) (handleContents raises s reply).1 := by
  rcases handleContents_cases raises s reply with same | ⟨id, popped⟩ | ⟨id, answers⟩
  · rw [same]
    exact .kept (.refl s)
  · rw [popped]
    exact .ignored id rfl rfl
  · exact .consumed reply raises id rfl answers.asked answers.registered answers.active answers.core
      answers.inline

/-- A reply that touches anything is the answer to a request of the current offer. -/
theorem handleContents_touches {raises : Message → Bool} {s : Bridge} {reply : Reply}
    (touched : ¬ Untouched s (handleContents raises s reply).1) :
    ∃ id, Answers s reply id (handleContents raises s reply).1 := by
  rcases handleContents_cases raises s reply with same | ⟨id, popped⟩ | answered
  · rw [same] at touched
    exact absurd ⟨rfl, rfl, rfl, rfl, rfl, rfl, rfl, rfl⟩ touched
  · rw [popped] at touched
    exact absurd ⟨rfl, rfl, rfl, rfl, rfl, rfl, rfl, rfl⟩ touched
  · exact answered

theorem requestRemoteTarget_cases (s : Bridge) (answers : Bool) (generation : Nat) (target : String) :
    Kept s (requestRemoteTarget s answers generation target) ∨
    (s.active = true ∧ (requestRemoteTarget s answers generation target).core = { s.core with
        clipboardRequestCounter := s.clipboardRequestCounter + 1
        requestGenerations := Dict.set s.requestGenerations s.clipboardRequestCounter
          (s.generation, canonical target) } ∧
      (requestRemoteTarget s answers generation target).inline = s.inline) := by
  unfold requestRemoteTarget
  dsimp only
  rw [← canonical]
  split
  · exact .inl (.refl s)
  · next wanted =>
      simp only [ne_eq, not_or, not_not] at wanted
      obtain ⟨active, rfl, _⟩ := wanted
      split
      · exact .inl ⟨rfl, rfl⟩
      · exact .inr ⟨active, rfl, rfl⟩

theorem storeResponse_change {s : Bridge} (a : Action) {key : Key} {data : Bytes}
    (pending : s.reading = some (key, data)) : Change s a (storeResponse s key data) := by
  unfold storeResponse
  dsimp only
  split
  · next kept => exact .stored key data pending rfl (.inr ⟨rfl, kept⟩) rfl
  · exact .stored key data pending rfl (.inl rfl) rfl

theorem claim_kept (s : Bridge) (proxy : Proxy) (targets : List String) (installed : Option Bool) :
    Kept s (claim s proxy targets installed) := by
  unfold claim
  split
  · exact .refl s
  · dsimp only
    split
    · exact ⟨rfl, rfl⟩
    · split
      · exact ⟨rfl, rfl⟩
      · exact ⟨rfl, rfl⟩

theorem claimMacos_change (s : Bridge) (a : Action) (proxy : Proxy) (targets : List String) :
    Change s a (claimMacos s proxy targets) := by
  unfold claimMacos
  split
  · exact .kept (.refl s)
  · split
    · exact .kept (.refl s)
    · exact .deactivated rfl rfl

theorem sendUriFiles_kept (env : Env) (s : Bridge) (raw : String) (generation : Nat) :
    Kept s (sendUriFiles env s raw generation) := by
  unfold sendUriFiles
  split
  · exact .refl s
  · split
    · exact .refl s
    · exact startThread_kept s _

theorem markFiles_kept (s : Bridge) (paths : List String) (generation : Nat) :
    Kept s (markFiles s paths generation) := by
  unfold markFiles
  dsimp only
  split
  · exact .refl s
  · exact ⟨rfl, rfl⟩

theorem announceFiles_kept (env : Env) (raises : Message → Bool) (s : Bridge)
    (register : String → Option Registration) (paths : List String) (generation : Nat) :
    Kept s (announceFiles env raises s register paths generation) := by
  unfold announceFiles
  split
  · exact send_kept raises s _
  · next files _ =>
      have prepared := send_kept raises s (.prepareFiles generation files)
      rcases run : send raises s (.prepareFiles generation files) with ⟨s1, _ | _⟩
      · rw [run] at prepared
        exact prepared
      · rw [run] at prepared
        dsimp only
        split
        · exact prepared
        · exact prepared.trans (send_kept raises s1 _)

/-- A thread that is taken out of the list for its step. -/
theorem without_kept (s : Bridge) (threads : List Worker) : Kept s { s with threads := threads } :=
  ⟨rfl, rfl⟩

theorem step_change {env : Env} {s s' : Bridge} {a : Action} (taken : step env s a s') :
    Change s a s' := by
  cases a with
  | token tok raises =>
      subst taken
      exact handleToken_change raises s tok
  | contents reply raises =>
      subst taken
      exact handleContents_change raises s reply
  | invalidateNative proxy raises =>
      subst taken
      rcases invalidateNative_cases raises s proxy with ⟨_, same⟩ | ⟨_, core, inline⟩
      · rw [same]
        exact .kept (.refl s)
      · exact .retired core inline
  | claim proxy targets installed =>
      subst taken
      exact .kept (claim_kept s proxy targets installed)
  | claimMacos proxy targets =>
      subst taken
      exact claimMacos_change s _ proxy targets
  | requestRemote proxy target answers =>
      subst taken
      rcases requestRemoteTarget_cases { s with proxy := some proxy } answers s.generation target with
        kept | ⟨active, core, inline⟩
      · exact .kept ⟨kept.core, kept.inline⟩
      · exact .registered (canonical target) rfl active core inline
  | provideTarget generation target answers =>
      subst taken
      rcases requestRemoteTarget_cases s answers generation target with kept | ⟨active, core, inline⟩
      · exact .kept kept
      · exact .registered (canonical target) rfl active core inline
  | dataRequest generation target raises =>
      subst taken
      exact .kept (send_kept raises s _)
  | otherRequest =>
      subst taken
      exact .counted rfl rfl
  | readResponse key data =>
      obtain ⟨_, rfl⟩ := taken
      unfold readResponse
      split
      · exact .kept (.refl s)
      · next current =>
          simp only [ne_eq, not_or, not_not] at current
          exact .tested key data rfl current.1 current.2 rfl rfl
  | storeResponse =>
      obtain ⟨key, data, pending, rfl⟩ := taken
      exact storeResponse_change _ pending
  | sendUriFiles =>
      obtain ⟨_, earlier, worker, later, _, moved⟩ := taken
      cases worker with
      | sendUriFiles raw generation =>
          cases moved
          exact .kept ((without_kept s _).trans (sendUriFiles_kept env _ raw generation))
      | markFiles paths generation => cases moved
      | offerFiles paths generation => cases moved
      | sendHtml data generation target => cases moved
  | markFiles =>
      obtain ⟨earlier, worker, later, _, moved⟩ := taken
      cases worker with
      | sendUriFiles raw generation => cases moved
      | markFiles paths generation =>
          cases moved
          exact .kept ((without_kept s _).trans (markFiles_kept _ paths generation))
      | offerFiles paths generation => cases moved
      | sendHtml data generation target => cases moved
  | offerFiles register raises =>
      obtain ⟨earlier, worker, later, _, moved⟩ := taken
      cases worker with
      | sendUriFiles raw generation => cases moved
      | markFiles paths generation => cases moved
      | offerFiles paths generation =>
          cases moved
          exact .kept ((without_kept s _).trans
            (announceFiles_kept env raises _ register paths generation))
      | sendHtml data generation target => cases moved
  | sendHtml files raises =>
      obtain ⟨earlier, worker, later, _, moved⟩ := taken
      cases worker with
      | sendUriFiles raw generation => cases moved
      | markFiles paths generation => cases moved
      | offerFiles paths generation => cases moved
      | sendHtml data generation target =>
          cases moved
          exact .kept ((without_kept s _).trans (send_kept raises _ _))
  | disconnect =>
      subst taken
      exact .kept ⟨rfl, rfl⟩

theorem listens_guards {s : Bridge} {tok : Token} (listens : Listens s tok) :
    ¬ (¬ accepts s tok.proxy = true ∨ tok.selection ≠ "CLIPBOARD") ∧
      ¬ (tok.proxy.selection ≠ "" ∧ tok.selection ≠ tok.proxy.selection) ∧
      ¬ (s.selectionName ≠ "" ∧ tok.selection ≠ s.selectionName) := by
  obtain ⟨accepted, clipboard, named⟩ := listens
  have selection : tok.proxy.selection = "CLIPBOARD" := by
    simp only [accepts, Bool.and_eq_true, decide_eq_true_eq] at accepted
    exact accepted.2
  refine ⟨by simp [accepted, clipboard], by simp [selection, clipboard], ?_⟩
  rcases named with unnamed | same
  · simp [unnamed]
  · simp [same, clipboard]

theorem newOffer_generation {env : Env} {s s' : Bridge} {a : Action} (new : NewOffer s a)
    (taken : step env s a s') : s'.generation = s.generation + 1 := by
  cases a with
  | token tok raises =>
      obtain ⟨listens, managed, unmerged, fresh⟩ := new
      obtain ⟨here, proxySelection, selection⟩ := listens_guards listens
      subst taken
      unfold handleToken
      rw [if_neg here]
      dsimp only
      rw [if_neg proxySelection, if_neg selection, if_neg managed]
      split
      · next duplicate => exact absurd (fresh.symm.trans duplicate) Bool.false_ne_true
      · rcases acceptOffer_cases raises { s with lastTokenDuplicate := false, active := true } tok with
          ⟨merged, _⟩ | ⟨_, core, _⟩
        · exact absurd (unmerged.symm.trans merged) Bool.false_ne_true
        · exact congrArg Core.generation core
  | _ => exact new.elim

theorem invalidateNative_generation {raises : Message → Bool} {s : Bridge} {proxy : Proxy}
    (retires : Retires s proxy) :
    (invalidateNative raises s proxy).1.generation = s.generation + 1 := by
  rcases invalidateNative_cases raises s proxy with ⟨keeps, _⟩ | ⟨_, core, _⟩
  · exact absurd retires keeps
  · exact congrArg Core.generation core

theorem invalidates_generation {env : Env} {s s' : Bridge} {a : Action} (retires : Invalidates s a)
    (taken : step env s a s') : s'.generation = s.generation + 1 := by
  cases a with
  | token tok raises =>
      obtain ⟨listens, unmanaged, retires⟩ := retires
      obtain ⟨here, proxySelection, selection⟩ := listens_guards listens
      subst taken
      unfold handleToken
      rw [if_neg here]
      dsimp only
      rw [if_neg proxySelection, if_neg selection, if_pos unmanaged]
      have same : Retires { s with lastTokenDuplicate := false } tok.proxy := retires
      exact invalidateNative_generation same
  | invalidateNative proxy raises =>
      subst taken
      exact invalidateNative_generation retires
  | _ => exact retires.elim

/-! ### What was done for an offer -/

/-- What an offer leaves behind, each enough to tell that there is one. -/
def Offering (s : Bridge) : Prop :=
  s.active = true ∨ s.sourceOfferId ≠ 0 ∨ s.offerFingerprint ≠ none

abbrev Log := List (Transition Bridge Action)

/-- A step opens a generation: its token is a new offer. -/
def Opens (t : Transition Bridge Action) (generation : Nat) : Prop :=
  NewOffer t.before t.action ∧ t.after.generation = generation

def Opened (log : Log) (generation : Nat) : Prop := ∃ t ∈ log, Opens t generation

/-- A step gives inline data: with a token, or as the answer to a request for its key. -/
def Gives (t : Transition Bridge Action) (e : Key × Value) : Prop :=
  match t.action with
  | .token tok _ => (e.1.2, e.2) ∈ tok.targetData
  | .contents reply _ =>
      (∃ id, reply.requestId = some id ∧ Dict.get t.before.requestGenerations id = some e.1) ∧
        e.2 = ⟨reply.dtype, reply.dformat, reply.data⟩
  | _ => False

/-- The data was given in the generation of its key, whose offer had been opened. -/
def InlineFor (log : Log) (e : Key × Value) : Prop :=
  ∃ earlier t later, log = earlier ++ t :: later ∧ t.after.generation = e.1.1 ∧ Gives t e ∧
    Opened (earlier ++ [t]) e.1.1

/-- The broker gave the data in the generation of its key, while its offer was open. -/
def ResponseFor (log : Log) (e : Key × (String × Bytes)) : Prop :=
  ∃ earlier t later, log = earlier ++ t :: later ∧ t.action = .readResponse e.1 e.2.2 ∧
    e.2.1 = e.1.2 ∧ t.before.generation = e.1.1 ∧ t.before.active = true ∧ Opened earlier e.1.1

/-- `_request_remote` has registered an id for a generation and a target. -/
def Registered (log : Log) (id : Nat) (key : Key) : Prop :=
  ∃ t ∈ log, requestedTarget t.action = some key.2 ∧ t.before.active = true ∧
    t.before.generation = key.1 ∧ Dict.get t.before.requestGenerations id = none ∧
    Dict.get t.after.requestGenerations id = some key

/-- A reply with this id has touched something. -/
def Consumes (t : Transition Bridge Action) (id : Nat) : Prop :=
  ∃ reply raises, t.action = .contents reply raises ∧ reply.requestId = some id ∧
    ¬ Untouched t.before t.after

section Longer

variable {log : Log} (t : Transition Bridge Action)

theorem Opened.longer {generation : Nat} (opened : Opened log generation) :
    Opened (log ++ [t]) generation := by
  obtain ⟨u, member, opens⟩ := opened
  exact ⟨u, List.mem_append_left _ member, opens⟩

theorem InlineFor.longer {e : Key × Value} (given : InlineFor log e) : InlineFor (log ++ [t]) e := by
  obtain ⟨earlier, u, later, rfl, rest⟩ := given
  exact ⟨earlier, u, later ++ [t], by simp, rest⟩

theorem ResponseFor.longer {e : Key × (String × Bytes)} (given : ResponseFor log e) :
    ResponseFor (log ++ [t]) e := by
  obtain ⟨earlier, u, later, rfl, rest⟩ := given
  exact ⟨earlier, u, later ++ [t], by simp, rest⟩

theorem Registered.longer {id : Nat} {key : Key} (registered : Registered log id key) :
    Registered (log ++ [t]) id key := by
  obtain ⟨u, member, rest⟩ := registered
  exact ⟨u, List.mem_append_left _ member, rest⟩

end Longer

/-! ### What holds after every run -/

structure Sound (log : Log) (s : Bridge) : Prop where
  opened : Offering s → Opened log s.generation
  inline : ∀ e ∈ s.inline, InlineFor log e
  responses : ∀ e ∈ s.responses, ResponseFor log e
  reading : ∀ key data, s.reading = some (key, data) → ResponseFor log (key, (key.2, data))
  registered : ∀ id key, Dict.get s.requestGenerations id = some key →
    id < s.clipboardRequestCounter ∧ Registered log id key
  consumed : ∀ t ∈ log, ∀ id, Consumes t id →
    id < s.clipboardRequestCounter ∧ Dict.get s.requestGenerations id = none

theorem initial_sound {s : Bridge} (start : initial s) : Sound [] s := by
  obtain ⟨enabled, connected, rfl⟩ := start
  constructor <;> simp [Dict.get, Offering]

theorem core_fields {s : Bridge} {c : Core} (same : s.core = c) :
    s.generation = c.generation ∧ s.active = c.active ∧ s.sourceOfferId = c.sourceOfferId ∧
      s.offerFingerprint = c.offerFingerprint ∧ s.requestGenerations = c.requestGenerations ∧
      s.clipboardRequestCounter = c.clipboardRequestCounter ∧ s.reading = c.reading ∧
      s.responses = c.responses := by
  subst same
  exact ⟨rfl, rfl, rfl, rfl, rfl, rfl, rfl, rfl⟩

section Change

variable {s s' : Bridge} {a : Action}

/-- An offer that is there after a step was there before, or is new. -/
theorem Change.offering (change : Change s a s') (offering : Offering s') :
    (Offering s ∧ s'.generation = s.generation) ∨ NewOffer s a := by
  unfold Offering at offering ⊢
  cases change with
  | kept kept =>
      obtain ⟨generation, active, offerId, fingerprint, _⟩ := core_fields kept.core
      rw [active, offerId, fingerprint] at offering
      exact .inl ⟨offering, generation⟩
  | retired core _ =>
      obtain ⟨_, active, offerId, fingerprint, _⟩ := core_fields core
      rw [active, offerId, fingerprint] at offering
      simp at offering
  | deactivated core _ =>
      obtain ⟨generation, active, offerId, fingerprint, _⟩ := core_fields core
      rw [active, offerId, fingerprint] at offering
      rcases offering with never | rest
      · cases never
      · exact .inl ⟨.inr rest, generation⟩
  | again tok raises _ known core _ =>
      obtain ⟨generation, _⟩ := core_fields core
      exact .inl ⟨.inr known.symm, generation⟩
  | opened tok raises action new _ _ => exact .inr new
  | ignored id core _ =>
      obtain ⟨generation, active, offerId, fingerprint, _⟩ := core_fields core
      rw [active, offerId, fingerprint] at offering
      exact .inl ⟨offering, generation⟩
  | consumed reply raises id _ _ _ active core _ =>
      obtain ⟨generation, _⟩ := core_fields core
      exact .inl ⟨.inl active, generation⟩
  | registered target _ active core _ =>
      obtain ⟨generation, _⟩ := core_fields core
      exact .inl ⟨.inl active, generation⟩
  | counted core _ =>
      obtain ⟨generation, active, offerId, fingerprint, _⟩ := core_fields core
      rw [active, offerId, fingerprint] at offering
      exact .inl ⟨offering, generation⟩
  | tested key data _ _ active core _ =>
      obtain ⟨generation, _⟩ := core_fields core
      exact .inl ⟨.inl active, generation⟩
  | stored key data _ core _ _ =>
      obtain ⟨generation, active, offerId, fingerprint, _⟩ := core_fields core
      rw [active, offerId, fingerprint] at offering
      exact .inl ⟨offering, generation⟩

/-- Inline data is old, or given by the step for the offer that is current after it. -/
theorem Change.inline_source (change : Change s a s') {e : Key × Value} (member : e ∈ s'.inline) :
    e ∈ s.inline ∨ (s'.generation = e.1.1 ∧ Gives ⟨s, a, s'⟩ e ∧
      (NewOffer s a ∨ (Offering s ∧ s.generation = e.1.1))) := by
  cases change with
  | kept kept => exact .inl (by rwa [kept.inline] at member)
  | retired _ inline => simp [inline] at member
  | deactivated _ inline => exact .inl (by rwa [inline] at member)
  | again tok raises action known core inline =>
      obtain ⟨generation, _⟩ := core_fields core
      rcases inline e member with old | ⟨here, given⟩
      · exact .inl old
      · refine .inr ⟨generation.trans here.symm, ?_, .inr ⟨.inr known.symm, here.symm⟩⟩
        simpa [Gives, action] using given
  | opened tok raises action new core inline =>
      obtain ⟨generation, _⟩ := core_fields core
      obtain ⟨here, given⟩ := inline e member
      refine .inr ⟨generation.trans here.symm, ?_, .inl new⟩
      simpa [Gives, action] using given
  | ignored id _ inline => exact .inl (by rwa [inline] at member)
  | consumed reply raises id action asked registered active core inline =>
      obtain ⟨generation, _⟩ := core_fields core
      rcases inline e member with old | rfl
      · exact .inl old
      · subst action
        exact .inr ⟨generation, ⟨⟨id, asked, registered⟩, rfl⟩, .inr ⟨.inl active, rfl⟩⟩
  | registered target _ _ _ inline => exact .inl (by rwa [inline] at member)
  | counted _ inline => exact .inl (by rwa [inline] at member)
  | tested key data _ _ _ _ inline => exact .inl (by rwa [inline] at member)
  | stored key data _ _ _ inline => exact .inl (by rwa [inline] at member)

/-- A cached response is old, or the one the reader had let through. -/
theorem Change.response_source (change : Change s a s') {e : Key × (String × Bytes)}
    (member : e ∈ s'.responses) :
    e ∈ s.responses ∨ ∃ key data, s.reading = some (key, data) ∧ e = (key, (key.2, data)) := by
  cases change with
  | kept kept =>
      obtain ⟨_, _, _, _, _, _, _, responses⟩ := core_fields kept.core
      exact .inl (by rwa [responses] at member)
  | retired core _ =>
      obtain ⟨_, _, _, _, _, _, _, responses⟩ := core_fields core
      simp [responses] at member
  | opened tok raises _ _ core _ =>
      obtain ⟨_, _, _, _, _, _, _, responses⟩ := core_fields core
      simp [responses] at member
  | stored key data pending core responses _ =>
      rcases responses with same | ⟨changed, _⟩
      · exact .inl (by rwa [same] at member)
      · rw [changed] at member
        rcases Dict.of_mem_set member with new | old
        · exact .inr ⟨key, data, pending, new⟩
        · exact .inl old
  | deactivated core _ | again _ _ _ _ core _ | ignored _ core _ | consumed _ _ _ _ _ _ _ core _
  | registered _ _ _ core _ | counted core _ | tested _ _ _ _ _ core _ =>
      obtain ⟨_, _, _, _, _, _, _, responses⟩ := core_fields core
      exact .inl (by rwa [responses] at member)

/-- What the reader has let through is old, or was tested by the step. -/
theorem Change.reading_source (change : Change s a s') {key : Key} {data : Bytes}
    (pending : s'.reading = some (key, data)) :
    s.reading = some (key, data) ∨
      (a = .readResponse key data ∧ key.1 = s.generation ∧ s.active = true) := by
  cases change with
  | kept kept =>
      obtain ⟨_, _, _, _, _, _, reading, _⟩ := core_fields kept.core
      exact .inl (reading.symm.trans pending)
  | tested key' data' action current active core _ =>
      obtain ⟨_, _, _, _, _, _, reading, _⟩ := core_fields core
      rw [reading, Option.some.injEq, Prod.mk.injEq] at pending
      obtain ⟨rfl, rfl⟩ := pending
      exact .inr ⟨action, current, active⟩
  | stored key' data' _ core _ _ =>
      obtain ⟨_, _, _, _, _, _, reading, _⟩ := core_fields core
      rw [reading] at pending
      cases pending
  | retired core _ | deactivated core _ | again _ _ _ _ core _ | opened _ _ _ _ core _
  | ignored _ core _ | consumed _ _ _ _ _ _ _ core _ | registered _ _ _ core _ | counted core _ =>
      obtain ⟨_, _, _, _, _, _, reading, _⟩ := core_fields core
      exact .inl (reading.symm.trans pending)

theorem Change.counter_le (change : Change s a s') :
    s.clipboardRequestCounter ≤ s'.clipboardRequestCounter := by
  cases change with
  | kept kept =>
      obtain ⟨_, _, _, _, _, counter, _⟩ := core_fields kept.core
      exact le_of_eq counter.symm
  | registered _ _ _ core _ | counted core _ =>
      obtain ⟨_, _, _, _, _, counter, _⟩ := core_fields core
      rw [counter]
      exact Nat.le_succ _
  | retired core _ | deactivated core _ | again _ _ _ _ core _ | opened _ _ _ _ core _
  | ignored _ core _ | consumed _ _ _ _ _ _ _ core _ | tested _ _ _ _ _ core _
  | stored _ _ _ core _ _ =>
      obtain ⟨_, _, _, _, _, counter, _⟩ := core_fields core
      exact le_of_eq counter.symm

/-- A registered request is old, or the step has made it under a new id. -/
theorem Change.request_source (change : Change s a s') {id : Nat} {key : Key}
    (found : Dict.get s'.requestGenerations id = some key) :
    Dict.get s.requestGenerations id = some key ∨
      (id = s.clipboardRequestCounter ∧ s'.clipboardRequestCounter = id + 1 ∧
        requestedTarget a = some key.2 ∧ s.active = true ∧ s.generation = key.1) := by
  cases change with
  | kept kept =>
      obtain ⟨_, _, _, _, requests, _⟩ := core_fields kept.core
      exact .inl (by rwa [requests] at found)
  | ignored id' core _ | consumed _ _ id' _ _ _ _ core _ =>
      obtain ⟨_, _, _, _, requests, _⟩ := core_fields core
      rw [requests] at found
      exact .inl (Dict.get_of_erase found)
  | registered target action active core _ =>
      obtain ⟨_, _, _, _, requests, counter, _⟩ := core_fields core
      rw [requests, Dict.get_set] at found
      split at found
      · next same =>
          cases found
          exact .inr ⟨same.symm, by rw [counter, same], action, active, rfl⟩
      · exact .inl found
  | retired core _ | deactivated core _ | again _ _ _ _ core _ | opened _ _ _ _ core _
  | counted core _ | tested _ _ _ _ _ core _ | stored _ _ _ core _ _ =>
      obtain ⟨_, _, _, _, requests, _⟩ := core_fields core
      exact .inl (by rwa [requests] at found)

end Change

theorem consumes_answers {env : Env} {s s' : Bridge} {a : Action} (taken : step env s a s') {id : Nat}
    (consumes : Consumes ⟨s, a, s'⟩ id) :
    ∃ reply raises, a = .contents reply raises ∧ Answers s reply id s' := by
  obtain ⟨reply, raises, rfl, asked, touched⟩ := consumes
  cases taken
  obtain ⟨id', answers⟩ := handleContents_touches touched
  have same := answers.asked
  rw [asked, Option.some.injEq] at same
  subst same
  exact ⟨reply, raises, rfl, answers⟩

theorem sound_next {env : Env} {log : Log} {s s' : Bridge} {a : Action} (sound : Sound log s)
    (taken : step env s a s') : Sound (log ++ [⟨s, a, s'⟩]) s' := by
  have change := step_change taken
  have opens (new : NewOffer s a) : Opened (log ++ [⟨s, a, s'⟩]) s'.generation :=
    ⟨⟨s, a, s'⟩, by simp, new, rfl⟩
  constructor
  case opened =>
    intro offering
    rcases change.offering offering with ⟨before, same⟩ | new
    · rw [same]
      exact (sound.opened before).longer _
    · exact opens new
  case inline =>
    intro e member
    rcases change.inline_source member with old | ⟨here, gives, offer⟩
    · exact (sound.inline e old).longer _
    · refine ⟨log, ⟨s, a, s'⟩, [], rfl, here, gives, ?_⟩
      rcases offer with new | ⟨before, same⟩
      · rw [← here]
        exact opens new
      · rw [← same]
        exact (sound.opened before).longer _
  case responses =>
    intro e member
    rcases change.response_source member with old | ⟨key, data, pending, rfl⟩
    · exact (sound.responses e old).longer _
    · exact (sound.reading key data pending).longer _
  case reading =>
    intro key data pending
    rcases change.reading_source pending with old | ⟨rfl, current, active⟩
    · exact (sound.reading key data old).longer _
    · refine ⟨log, ⟨s, _, s'⟩, [], rfl, rfl, rfl, current.symm, active, ?_⟩
      rw [current]
      exact sound.opened (.inl active)
  case registered =>
    intro id key found
    rcases change.request_source found with old | ⟨fresh, counter, action, active, current⟩
    · obtain ⟨bound, registered⟩ := sound.registered id key old
      exact ⟨lt_of_lt_of_le bound change.counter_le, registered.longer _⟩
    · refine ⟨by omega, ⟨s, a, s'⟩, by simp, action, active, current, ?_, found⟩
      -- an id that is taken is below the counter
      cases taken : Dict.get s.requestGenerations id with
      | none => rfl
      | some key' => exact absurd (sound.registered id key' taken).1 (by omega)
  case consumed =>
    intro t member id consumes
    have after (bound : id < s.clipboardRequestCounter)
        (gone : Dict.get s.requestGenerations id = none) :
        id < s'.clipboardRequestCounter ∧ Dict.get s'.requestGenerations id = none := by
      refine ⟨lt_of_lt_of_le bound change.counter_le, ?_⟩
      cases found : Dict.get s'.requestGenerations id with
      | none => rfl
      | some key =>
          rcases change.request_source found with old | ⟨fresh, _⟩
          · rw [gone] at old
            cases old
          · omega
    rcases List.mem_append.mp member with old | new
    · obtain ⟨bound, gone⟩ := sound.consumed t old id consumes
      exact after bound gone
    · rw [List.mem_singleton] at new
      subst new
      obtain ⟨reply, raises, rfl, answers⟩ := consumes_answers taken consumes
      have bound := (sound.registered id _ answers.registered).1
      obtain ⟨_, _, _, _, requests, _⟩ := core_fields answers.core
      refine ⟨lt_of_lt_of_le bound change.counter_le, ?_⟩
      rw [requests, Dict.get_erase, if_pos rfl]

theorem history_sound {env : Env} {log : Log} {s : Bridge} (history : History initial (step env) log s) :
    Sound log s :=
  history.invariant (fun _ start => initial_sound start)
    fun _ _ _ _ sound taken => sound_next sound taken

theorem Change.generation_le {s s' : Bridge} {a : Action} (change : Change s a s') :
    s.generation ≤ s'.generation := by
  cases change with
  | kept kept => exact le_of_eq kept.generation.symm
  | retired core _ | opened _ _ _ _ core _ =>
      obtain ⟨generation, _⟩ := core_fields core
      rw [generation]
      exact Nat.le_succ _
  | deactivated core _ | again _ _ _ _ core _ | ignored _ core _ | consumed _ _ _ _ _ _ _ core _
  | registered _ _ _ core _ | counted core _ | tested _ _ _ _ _ core _ | stored _ _ _ core _ _ =>
      obtain ⟨generation, _⟩ := core_fields core
      exact le_of_eq generation.symm

/-- Within a generation, a response that is cached with data stays cached with data. -/
theorem Change.response_kept {s s' : Bridge} {a : Action} (change : Change s a s')
    (same : s'.generation = s.generation) {key : Key} {response : String × Bytes}
    (cached : Dict.get s.responses key = some response) (some : response.2 ≠ []) :
    ∃ response', Dict.get s'.responses key = Option.some response' ∧ response'.2 ≠ [] := by
  cases change with
  | kept kept =>
      obtain ⟨_, _, _, _, _, _, _, responses⟩ := core_fields kept.core
      exact ⟨response, by rw [responses]; exact cached, some⟩
  | retired core _ | opened _ _ _ _ core _ =>
      obtain ⟨generation, _⟩ := core_fields core
      have next : s'.generation = s.generation + 1 := generation
      omega
  | stored key' data _ _ responses _ =>
      rcases responses with unchanged | ⟨changed, wanted⟩
      · exact ⟨response, by rw [unchanged]; exact cached, some⟩
      · rw [changed, Dict.get_set]
        split
        · next here =>
            subst here
            rcases wanted with full | absent
            · exact ⟨_, rfl, full⟩
            · rw [cached] at absent
              cases absent
        · exact ⟨response, cached, some⟩
  | deactivated core _ | again _ _ _ _ core _ | ignored _ core _ | consumed _ _ _ _ _ _ _ core _
  | registered _ _ _ core _ | counted core _ | tested _ _ _ _ _ core _ =>
      obtain ⟨_, _, _, _, _, _, _, responses⟩ := core_fields core
      exact ⟨response, by rw [responses]; exact cached, some⟩

/-! ### Generation safety -/

structure GenerationSafe (log : Log) (s : Bridge) : Prop where
  /-- the generation grows with every new offer and every invalidation, and never shrinks -/
  generations : ∀ t ∈ log, t.before.generation ≤ t.after.generation ∧
    (NewOffer t.before t.action ∨ Invalidates t.before t.action →
      t.before.generation < t.after.generation)
  /-- a reply that does anything was asked for by the current offer, and is the first one to do so -/
  replies : ∀ earlier t later reply raises, log = earlier ++ t :: later →
    t.action = .contents reply raises → ¬ Untouched t.before t.after →
    ∃ id, reply.requestId = some id ∧ t.before.active = true ∧
      Registered earlier id (t.before.generation, reply.target) ∧ ∀ u ∈ earlier, ¬ Consumes u id
  inline : ∀ e ∈ s.inline, e.1.1 = s.generation → InlineFor log e
  responses : ∀ e ∈ s.responses, e.1.1 = s.generation → ResponseFor log e
  nonempty : ∀ t ∈ log, t.after.generation = t.before.generation →
    ∀ key response, Dict.get t.before.responses key = some response → response.2 ≠ [] →
      ∃ response', Dict.get t.after.responses key = some response' ∧ response'.2 ≠ []

/-- Whatever the order of tokens, replies, invalidations, claims, requests and data-responses, and
wherever the threads stand: every run of the bridge is safe in its generations. -/
theorem bridge_generation_safe (env : Env) (log : Log) (s : Bridge)
    (history : History initial (step env) log s) : GenerationSafe log s := by
  have steps (t : Transition Bridge Action) (member : t ∈ log) :
      step env t.before t.action t.after := by
    obtain ⟨earlier, later, here⟩ := List.append_of_mem member
    exact (history.split here).2
  constructor
  case generations =>
    intro t member
    have taken := steps t member
    refine ⟨(step_change taken).generation_le, ?_⟩
    rintro (new | retires)
    · rw [newOffer_generation new taken]
      exact Nat.lt_succ_self _
    · rw [invalidates_generation retires taken]
      exact Nat.lt_succ_self _
  case replies =>
    intro earlier t later reply raises here action touched
    obtain ⟨before, taken⟩ := history.split here
    have sound := history_sound before
    rw [action] at taken
    have after : t.after = (handleContents raises t.before reply).1 := taken
    rw [after] at touched
    obtain ⟨id, answers⟩ := handleContents_touches touched
    refine ⟨id, answers.asked, answers.active, (sound.registered id _ answers.registered).2, ?_⟩
    intro u member consumes
    have gone := (sound.consumed u member id consumes).2
    rw [answers.registered] at gone
    cases gone
  case inline =>
    intro e member _
    exact (history_sound history).inline e member
  case responses =>
    intro e member _
    exact (history_sound history).responses e member
  case nonempty =>
    intro t member same key response cached some
    exact (step_change (steps t member)).response_kept same cached some

/-! A file is offered, requested and answered. -/

def quietEnv : Env := ⟨true, "", fun _ => false⟩

def deliver (_ : Message) : Bool := false

def clipboardProxy : Proxy := ⟨1, "CLIPBOARD", true⟩

def fileToken : Token := ⟨clipboardProxy, "CLIPBOARD", ["text/uri-list"], [], 1, "peer"⟩

def fileReply : Reply :=
  ⟨clipboardProxy, "CLIPBOARD", "text/uri-list", "text/uri-list", 8, .str "file:///a", some 0⟩

def connectedBridge : Bridge := { enabled := true, connected := true }

def offeredBridge : Bridge := (handleToken deliver connectedBridge fileToken).1

def askedBridge : Bridge := requestRemote offeredBridge true clipboardProxy "text/uri-list"

def answeredBridge : Bridge := (handleContents deliver askedBridge fileReply).1

def fileLog : Log :=
  [⟨connectedBridge, .token fileToken deliver, offeredBridge⟩,
    ⟨offeredBridge, .requestRemote clipboardProxy "text/uri-list" true, askedBridge⟩,
    ⟨askedBridge, .contents fileReply deliver, answeredBridge⟩]

theorem fileLog_history : History initial (step quietEnv) fileLog answeredBridge :=
  .next (.next (.next (.start ⟨true, true, rfl⟩) rfl) rfl) rfl

theorem bridge_generation_safe_file : GenerationSafe fileLog answeredBridge :=
  bridge_generation_safe quietEnv fileLog answeredBridge fileLog_history

/-- The reply has started the thread that announces the file. -/
example : answeredBridge.threads = [.sendUriFiles "file:///a" 1] := by decide

end Catlink.Clipboard.CatlinkBridge
