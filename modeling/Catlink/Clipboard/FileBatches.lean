import Catlink.Clipboard.BridgeGenerations

/-! The files of a clipboard offer: one batch for each generation, from one list of URIs. -/

namespace Catlink.Clipboard.CatlinkBridge

open UriText Runs

/-! ### The paths of a list -/

/-- The absolute path of a line that is the URI of a local file. -/
def localPath (line : List Char) : Option String :=
  let line := strip line
  let (netloc, rawPath) := urlsplit line
  let path := String.ofList (unquoteFrom [] rawPath)
  if "file://".toList.isPrefixOf line ∧ (netloc = [] ∨ netloc = "localhost".toList) ∧
      startsWith path "/" then some path
  else none

/-- The distinct local paths of a text, in the order of their first lines. -/
def pathsOf (raw : String) : List String := ((splitlines raw).filterMap localPath).eraseDups

theorem nodup_eraseDups {α : Type} [DecidableEq α] : ∀ l : List α, l.eraseDups.Nodup
  | [] => List.nodup_nil
  | a :: l => by
      have shorter : (l.filter fun b => !b == a).length < l.length + 1 :=
        Nat.lt_succ_of_le (List.length_filter_le _ l)
      rw [List.eraseDups_cons, List.nodup_cons]
      refine ⟨?_, nodup_eraseDups _⟩
      simp
termination_by l => l.length

theorem pathsOf_nodup (raw : String) : (pathsOf raw).Nodup := nodup_eraseDups _

theorem pathsOf_absolute {raw path : String} (member : path ∈ pathsOf raw) :
    startsWith path "/" = true := by
  rw [pathsOf, List.mem_eraseDups, List.mem_filterMap] at member
  obtain ⟨line, _, here⟩ := member
  unfold localPath at here
  dsimp only at here
  split at here
  · next local_ =>
      cases here
      exact local_.2.2
  · cases here

/-- A line either adds its path at the end, when that is new, or adds nothing. -/
theorem localPaths_cons {refused : List Char → Bool} {line : List Char} {lines : List (List Char)}
    {earlier paths : List String} (found : localPaths refused (line :: lines) earlier = some paths) :
    localPaths refused lines
      (match localPath line with
        | some path => if path ∈ earlier then earlier else earlier ++ [path]
        | none => earlier) = some paths := by
  rw [localPaths] at found
  dsimp only at found
  unfold localPath
  dsimp only
  split at found
  · next other =>
      rw [if_neg (fun both => other both.1)]
      exact found
  · next here =>
      rw [not_not] at here
      split at found
      · cases found
      · split at found
        · next foreign =>
            rw [if_neg (fun both => both.2.1.elim foreign.1 foreign.2)]
            exact found
        · next localHost =>
            have host : (urlsplit (strip line)).1 = [] ∨
                (urlsplit (strip line)).1 = "localhost".toList := by
              rw [not_and_or, not_not, not_not] at localHost
              exact localHost
            split at found
            · next fresh =>
                rw [if_pos ⟨here, host, fresh.1⟩]
                dsimp only
                rw [if_neg fresh.2]
                exact found
            · next old =>
                split
                · next path absolute =>
                    split at absolute
                    · next whole =>
                        cases absolute
                        rw [not_and, not_not] at old
                        rw [if_pos (old whole.2.2)]
                        exact found
                    · cases absolute
                · exact found

/-- The loop over the lines keeps the first of every path. -/
theorem localPaths_firsts {refused : List Char → Bool} {lines : List (List Char)}
    {earlier paths : List String} (found : localPaths refused lines earlier = some paths) :
    paths = earlier ++ ((lines.filterMap localPath).filter (· ∉ earlier)).eraseDups := by
  induction lines generalizing earlier with
  | nil =>
      rw [localPaths, Option.some.injEq] at found
      simp [found]
  | cons line lines ih =>
      have turn := localPaths_cons found
      rw [List.filterMap_cons]
      cases path : localPath line with
      | none =>
          rw [path] at turn
          exact ih turn
      | some p =>
          rw [path] at turn
          dsimp only at turn ⊢
          by_cases old : p ∈ earlier
          · rw [if_pos old] at turn
            rw [ih turn, List.filter_cons_of_neg (by simpa using old)]
          · rw [if_neg old] at turn
            rw [ih turn, List.filter_cons_of_pos (by simpa using old), List.eraseDups_cons,
              List.append_assoc, List.singleton_append, List.filter_filter]
            congr 3
            apply List.filter_congr
            intro other _
            simp only [List.mem_append, List.mem_singleton]
            by_cases seen : other ∈ earlier <;> by_cases same : other = p <;> simp [seen, same]

theorem localPaths_eq {refused : List Char → Bool} {raw : String} {paths : List String}
    (found : localPaths refused (splitlines raw) [] = some paths) : paths = pathsOf raw := by
  simpa [pathsOf] using localPaths_firsts found

/-! ### What a step sends and starts -/

/-- A message that announces the files of a generation. -/
def isBatch (generation : Nat) : Message → Bool
  | .prepareFiles g _ => g = generation
  | _ => false

/-- A thread that is about to announce the files of a generation. -/
def isOffering (generation : Nat) : Worker → Bool
  | .offerFiles _ g => g = generation
  | _ => false

/-- The texts a step reads as a list of URIs: eager data, fetched data, or the text of the offer. -/
def Raws (s : Bridge) : Action → String → Prop
  | .token tok _, raw => ∃ value data, ("text/uri-list", value) ∈ tok.targetData ∧
      value.data.asBytes = some data ∧ raw = decodeReplace data
  | .contents reply _, raw =>
      reply.target = "text/uri-list" ∧ (raw = reply.data.textOrEmpty ∨ raw = s.offerText)
  | _, _ => False

def NoBatch (message : Message) : Prop := ∀ generation, isBatch generation message = false

/-- A thread that a handler may start for a generation. -/
def Starts (raws : String → Prop) (generation : Nat) : Worker → Prop
  | .sendUriFiles raw g => g = generation ∧ raws raw
  | .markFiles _ _ | .offerFiles _ _ => False
  | .sendHtml _ _ _ => True

/-- Messages and threads are added; the generation and its marks stay. -/
structure Grows (raws : String → Prop) (s s' : Bridge) : Prop where
  generation : s'.generation = s.generation
  marks : s'.uriFileOffers = s.uriFileOffers
  sent : ∃ messages, s'.sent = s.sent ++ messages ∧ ∀ m ∈ messages, NoBatch m
  threads : ∃ workers, s'.threads = s.threads ++ workers ∧ ∀ w ∈ workers, Starts raws s.generation w

variable {raws : String → Prop} {renews : Prop}

theorem Grows.quiet {s s' : Bridge} (generation : s'.generation = s.generation)
    (marks : s'.uriFileOffers = s.uriFileOffers) (sent : s'.sent = s.sent)
    (threads : s'.threads = s.threads) : Grows raws s s' :=
  ⟨generation, marks, ⟨[], by simp [sent], by simp⟩, ⟨[], by simp [threads], by simp⟩⟩

theorem Grows.refl (s : Bridge) : Grows raws s s := .quiet rfl rfl rfl rfl

theorem Grows.trans {s middle s' : Bridge} (first : Grows raws s middle)
    (second : Grows raws middle s') : Grows raws s s' := by
  obtain ⟨messages, sent, plain⟩ := first.sent
  obtain ⟨messages', sent', plain'⟩ := second.sent
  obtain ⟨workers, threads, starts⟩ := first.threads
  obtain ⟨workers', threads', starts'⟩ := second.threads
  refine ⟨second.generation.trans first.generation, second.marks.trans first.marks, ?_, ?_⟩
  · refine ⟨messages ++ messages', by rw [sent', sent, List.append_assoc], ?_⟩
    intro m member
    exact (List.mem_append.mp member).elim (plain m) (plain' m)
  · refine ⟨workers ++ workers', by rw [threads', threads, List.append_assoc], ?_⟩
    intro w member
    rw [first.generation] at starts'
    exact (List.mem_append.mp member).elim (starts w) (starts' w)

theorem send_grows (raises : Message → Bool) (s : Bridge) {message : Message}
    (plain : NoBatch message) : Grows raws s (send raises s message).1 := by
  unfold send
  split
  · exact .refl s
  · split
    · exact .refl s
    · exact ⟨rfl, rfl, ⟨[message], rfl, by simpa using plain⟩, ⟨[], by simp, by simp⟩⟩

theorem send_threads (raises : Message → Bool) (s : Bridge) (message : Message) :
    (send raises s message).1.threads = s.threads := by
  unfold send
  split
  · rfl
  · split <;> rfl

theorem startThread_grows (s : Bridge) {worker : Worker} (starts : Starts raws s.generation worker) :
    Grows raws s (startThread s worker) :=
  ⟨rfl, rfl, ⟨[], by simp [startThread], by simp⟩, ⟨[worker], rfl, by simpa using starts⟩⟩

theorem receiveImage_grows (raises : Message → Bool) (s : Bridge) (target dtype : String)
    (data : Data) : Grows raws s (receiveImage raises s target dtype data).1 := by
  unfold receiveImage
  dsimp only
  split
  · exact .quiet rfl rfl rfl rfl
  · split
    · refine Grows.trans ?_ (send_grows raises _ fun _ => rfl)
      exact .quiet rfl rfl rfl rfl
    · refine Grows.trans ?_ (send_grows raises _ fun _ => rfl)
      exact .quiet rfl rfl rfl rfl

theorem tokenInline_grows (s : Bridge) (target : String) (value : Value) :
    Grows raws s (tokenInline s target value) := by
  unfold tokenInline
  split
  · exact .refl s
  · exact .quiet rfl rfl rfl rfl

theorem tokenHtml_grows (s : Bridge) (target : String) (value : Value) :
    Grows raws s (tokenHtml s target value).1 := by
  unfold tokenHtml
  split
  · split
    · exact .refl s
    · exact startThread_grows s trivial
  · exact .refl s

theorem tokenUris_grows (s : Bridge) {target : String} {value : Value}
    (listed : ∀ data, target = "text/uri-list" → value.data.asBytes = some data →
      raws (decodeReplace data)) : Grows raws s (tokenUris s target value).1 := by
  unfold tokenUris
  split
  · next uris =>
      cases raw : value.data.asBytes with
      | none => exact .refl s
      | some data =>
          refine Grows.trans ?_ (startThread_grows _ ⟨rfl, listed data uris raw⟩)
          exact .quiet rfl rfl rfl rfl
  · exact .refl s

theorem tokenImage_grows (raises : Message → Bool) (s : Bridge) (target : String) (value : Value) :
    Grows raws s (tokenImage raises s target value).1 := by
  unfold tokenImage
  split
  · exact receiveImage_grows raises s _ _ _
  · exact .refl s

theorem tokenItem_grows (raises : Message → Bool) (s : Bridge) {target : String} {value : Value}
    (listed : ∀ data, target = "text/uri-list" → value.data.asBytes = some data →
      raws (decodeReplace data)) : Grows raws s (tokenItem raises s target value).1 := by
  have inline : Grows raws s (tokenInline s target value) := tokenInline_grows s target value
  have html : Grows raws (tokenInline s target value)
      (tokenHtml (tokenInline s target value) target value).1 := tokenHtml_grows _ target value
  unfold tokenItem
  rcases htmlRun : tokenHtml (tokenInline s target value) target value with ⟨s1, _ | _⟩
  · rw [htmlRun] at html
    exact inline.trans html
  · rw [htmlRun] at html
    have uris := tokenUris_grows s1 listed
    dsimp only
    rcases urisRun : tokenUris s1 target value with ⟨s2, _ | _⟩
    · rw [urisRun] at uris
      exact (inline.trans html).trans uris
    · rw [urisRun] at uris
      exact ((inline.trans html).trans uris).trans (tokenImage_grows raises s2 target value)

theorem tokenData_grows (raises : Message → Bool) (s : Bridge) (items : List (String × Value))
    (listed : ∀ item ∈ items, ∀ data, item.1 = "text/uri-list" → item.2.data.asBytes = some data →
      raws (decodeReplace data)) : Grows raws s (tokenData raises s items).1 := by
  induction items generalizing s with
  | nil => exact .refl s
  | cons item items ih =>
      have first := tokenItem_grows raises s (listed item List.mem_cons_self)
      rw [tokenData]
      rcases run : tokenItem raises s item.1 item.2 with ⟨s1, _ | _⟩
      · rw [run] at first
        exact first
      · rw [run] at first
        exact first.trans (ih s1 fun other member => listed other (List.mem_cons_of_mem _ member))

/-- Messages and threads are added; the generation may be a new one, and the marks go with a new
offer only. -/
structure Moves (raws : String → Prop) (renews : Prop) (s s' : Bridge) : Prop where
  generation : s'.generation = s.generation ∧ s'.uriFileOffers = s.uriFileOffers ∨
    s'.generation = s.generation + 1 ∧ (s'.uriFileOffers = s.uriFileOffers ∨ renews)
  sent : ∃ messages, s'.sent = s.sent ++ messages ∧ ∀ m ∈ messages, NoBatch m
  threads : ∃ workers, s'.threads = s.threads ++ workers ∧ ∀ w ∈ workers, Starts raws s'.generation w

theorem Grows.moves {s s' : Bridge} (grows : Grows raws s s') : Moves raws renews s s' :=
  ⟨.inl ⟨grows.generation, grows.marks⟩, grows.sent, by rw [grows.generation]; exact grows.threads⟩

theorem Moves.quiet {s s' : Bridge} (generation : s'.generation = s.generation)
    (marks : s'.uriFileOffers = s.uriFileOffers) (sent : s'.sent = s.sent)
    (threads : s'.threads = s.threads) : Moves raws renews s s' :=
  (Grows.quiet generation marks sent threads).moves

/-- A new generation, and what grows in it. -/
theorem Grows.moves_next {s next s' : Bridge} (generation : next.generation = s.generation + 1)
    (marks : next.uriFileOffers = s.uriFileOffers ∨ renews) (sent : next.sent = s.sent)
    (threads : next.threads = s.threads) (grows : Grows raws next s') : Moves raws renews s s' := by
  refine ⟨.inr ⟨grows.generation.trans generation, ?_⟩, ?_, ?_⟩
  · rw [grows.marks]
    exact marks
  · rw [← sent]
    exact grows.sent
  · rw [← threads, grows.generation]
    exact grows.threads

theorem invalidateNative_moves (raises : Message → Bool) (s : Bridge) (proxy : Proxy) :
    Moves raws renews s (invalidateNative raises s proxy).1 := by
  unfold invalidateNative
  split
  · exact (Grows.refl s).moves
  · dsimp only
    refine Grows.moves_next ?_ ?_ ?_ ?_ (send_grows raises _ fun _ => rfl)
    · rfl
    · exact .inl rfl
    · rfl
    · rfl

theorem acceptOffer_moves (raises : Message → Bool) (s : Bridge) (tok : Token) :
    Moves (Raws s (.token tok raises)) (tok.merges s = false) s (acceptOffer raises s tok).1 := by
  have listed : ∀ item ∈ tok.targetData, ∀ data, item.1 = "text/uri-list" →
      item.2.data.asBytes = some data → Raws s (.token tok raises) (decodeReplace data) := by
    intro item member data uris raw
    exact ⟨item.2, data, uris ▸ member, raw, rfl⟩
  unfold acceptOffer
  split
  · have merge : Grows (Raws s (.token tok raises)) s (mergeOffer s tok) := .quiet rfl rfl rfl rfl
    exact (merge.trans (tokenData_grows raises _ _ listed)).moves
  · next unmerged =>
    rw [Bool.not_eq_true] at unmerged
    have offered : Grows (Raws s (.token tok raises)) (newOffer s tok)
        (send raises (newOffer s tok) (.offer (s.generation + 1) tok.targets tok.text)).1 :=
      send_grows raises _ fun _ => rfl
    rcases run : send raises (newOffer s tok) (.offer (s.generation + 1) tok.targets tok.text) with
      ⟨s1, _ | _⟩
    · rw [run] at offered
      refine Grows.moves_next ?_ (.inr unmerged) ?_ ?_ offered
      · rfl
      · rfl
      · rfl
    · rw [run] at offered
      refine Grows.moves_next ?_ (.inr unmerged) ?_ ?_
        (offered.trans (tokenData_grows raises s1 _ listed))
      · rfl
      · rfl
      · rfl

theorem handleToken_moves (raises : Message → Bool) (s : Bridge) (tok : Token) :
    Moves (Raws s (.token tok raises)) (NewOffer s (.token tok raises)) s
      (handleToken raises s tok).1 := by
  unfold handleToken
  split
  · exact (Grows.refl s).moves
  · next here =>
      dsimp only
      split
      · exact .quiet rfl rfl rfl rfl
      · split
        · exact .quiet rfl rfl rfl rfl
        · next selection =>
            split
            · have moves : Moves (Raws s (.token tok raises)) (NewOffer s (.token tok raises))
                  { s with lastTokenDuplicate := false }
                  (invalidateNative raises { s with lastTokenDuplicate := false } tok.proxy).1 :=
                invalidateNative_moves raises _ tok.proxy
              exact ⟨moves.generation, moves.sent, moves.threads⟩
            · next managed =>
                split
                · exact .quiet rfl rfl rfl rfl
                · next fresh =>
                    have moves := acceptOffer_moves raises
                      { s with lastTokenDuplicate := false, active := true } tok
                    refine ⟨?_, moves.sent, moves.threads⟩
                    refine moves.generation.imp_right fun ⟨next, marks⟩ => ⟨next, ?_⟩
                    refine marks.imp_right fun unmerged => ?_
                    exact ⟨listens_of_guards here selection, managed, unmerged,
                      Bool.eq_false_iff.mpr fresh⟩

theorem contentsUnavailable_grows (raises : Message → Bool) (s : Bridge) (reply : Reply) :
    Grows (Raws s (.contents reply raises)) s (contentsUnavailable raises s reply).1 := by
  unfold contentsUnavailable
  split
  · next uris => exact startThread_grows s ⟨rfl, uris.1, .inr rfl⟩
  · dsimp only
    refine Grows.trans ?_ (send_grows raises _ fun _ => rfl)
    exact .quiet rfl rfl rfl rfl

theorem storeContents_grows (raises : Message → Bool) (s : Bridge) (reply : Reply) :
    Grows (Raws s (.contents reply raises)) s (storeContents raises s reply).1 := by
  unfold storeContents
  dsimp only
  split
  · exact .quiet rfl rfl rfl rfl
  · split
    · next uris =>
        refine Grows.trans ?_ (startThread_grows _ ⟨rfl, uris, .inl rfl⟩)
        exact .quiet rfl rfl rfl rfl
    · split
      · split
        · exact .quiet rfl rfl rfl rfl
        · refine Grows.trans ?_ (startThread_grows _ trivial)
          exact .quiet rfl rfl rfl rfl
      · split
        · refine Grows.trans ?_ (receiveImage_grows raises _ _ _ _)
          exact .quiet rfl rfl rfl rfl
        · exact .quiet rfl rfl rfl rfl

theorem handleContents_grows (raises : Message → Bool) (s : Bridge) (reply : Reply) :
    Grows (Raws s (.contents reply raises)) s (handleContents raises s reply).1 := by
  unfold handleContents
  split
  · exact .refl s
  · cases reply.requestId with
    | none => exact .refl s
    | some id =>
        have popped : Grows (Raws s (.contents reply raises)) s
            { s with requestGenerations := Dict.erase s.requestGenerations id } :=
          .quiet rfl rfl rfl rfl
        cases registered : Dict.get s.requestGenerations id with
        | none =>
            simp only [popRequest, registered]
            exact popped
        | some key =>
            simp only [popRequest, registered]
            split
            · exact popped
            · split
              · exact popped
              · split
                · have unavailable := contentsUnavailable_grows raises
                    { s with requestGenerations := Dict.erase s.requestGenerations id } reply
                  exact popped.trans unavailable
                · have stored := storeContents_grows raises
                    { s with requestGenerations := Dict.erase s.requestGenerations id } reply
                  exact popped.trans stored

theorem requestRemoteTarget_moves (s : Bridge) (answers : Bool) (generation : Nat)
    (target : String) : Moves raws renews s (requestRemoteTarget s answers generation target) := by
  unfold requestRemoteTarget
  dsimp only
  rw [← canonical]
  split
  · exact .quiet rfl rfl rfl rfl
  · split
    · exact .quiet rfl rfl rfl rfl
    · exact .quiet rfl rfl rfl rfl

theorem claim_moves (s : Bridge) (proxy : Proxy) (targets : List String) (installed : Option Bool) :
    Moves raws renews s (claim s proxy targets installed) := by
  unfold claim
  split
  · exact .quiet rfl rfl rfl rfl
  · dsimp only
    split
    · exact .quiet rfl rfl rfl rfl
    · split
      · exact .quiet rfl rfl rfl rfl
      · exact .quiet rfl rfl rfl rfl

theorem claimMacos_moves (s : Bridge) (proxy : Proxy) (targets : List String) :
    Moves raws renews s (claimMacos s proxy targets) := by
  unfold claimMacos
  split
  · exact .quiet rfl rfl rfl rfl
  · split
    · exact .quiet rfl rfl rfl rfl
    · exact .quiet rfl rfl rfl rfl

theorem readResponse_moves (s : Bridge) (key : Key) (data : Bytes) :
    Moves raws renews s (readResponse s key data) := by
  unfold readResponse
  split
  · exact .quiet rfl rfl rfl rfl
  · exact .quiet rfl rfl rfl rfl

theorem storeResponse_moves (s : Bridge) (key : Key) (data : Bytes) :
    Moves raws renews s (storeResponse s key data) := by
  unfold storeResponse
  dsimp only
  split
  · exact .quiet rfl rfl rfl rfl
  · exact .quiet rfl rfl rfl rfl

/-- Each path has its file. -/
def FilesOf (env : Env) (register : String → Option Registration) (paths : List String)
    (files : List File) : Prop :=
  List.Forall₂ (fun path file => offerFile env register path = some file) paths files

theorem offeredFiles_some {env : Env} {register : String → Option Registration}
    {paths : List String} {files : List File}
    (offered : offeredFiles env register paths = some files) : FilesOf env register paths files := by
  induction paths generalizing files with
  | nil =>
      rw [offeredFiles, Option.some.injEq] at offered
      subst offered
      exact .nil
  | cons path paths ih =>
      rw [offeredFiles] at offered
      cases file : offerFile env register path with
      | none => simp [file] at offered
      | some found =>
          cases rest : offeredFiles env register paths with
          | none => simp [file, rest] at offered
          | some others =>
              simp only [file, rest, Option.bind_eq_bind, Option.bind_some, Option.pure_def,
                Option.some.injEq] at offered
              subst offered
              exact .cons file (ih rest)

/-- All that a step may do to the messages, the threads and the marks. -/
inductive BatchStep (env : Env) (s : Bridge) (a : Action) (s' : Bridge) : Prop
  | moves (moves : Moves (Raws s a) (NewOffer s a) s s')
  /-- a thread has found its generation to be the current one -/
  | tested (earlier : List Worker) (raw : String) (later : List Worker)
      (thread : s.threads = earlier ++ .sendUriFiles raw s.generation :: later)
      (generation : s'.generation = s.generation)
      (marks : s'.uriFileOffers = s.uriFileOffers)
      (sent : s'.sent = s.sent)
      (threads : s'.threads = earlier ++ later ++ [.markFiles (pathsOf raw) s.generation])
  /-- a thread has marked its generation -/
  | marked (earlier : List Worker) (paths : List String) (batch : Nat) (later : List Worker)
      (thread : s.threads = earlier ++ .markFiles paths batch :: later)
      (fresh : (batch, "uri-batch") ∉ s.uriFileOffers)
      (generation : s'.generation = s.generation)
      (marks : s'.uriFileOffers = s.uriFileOffers.insert (batch, "uri-batch"))
      (sent : s'.sent = s.sent)
      (threads : s'.threads = earlier ++ later ++ [.offerFiles paths batch])
  /-- a thread has ended without announcing files -/
  | ended (earlier : List Worker) (worker : Worker) (later : List Worker)
      (thread : s.threads = earlier ++ worker :: later)
      (generation : s'.generation = s.generation)
      (marks : s'.uriFileOffers = s.uriFileOffers)
      (sent : ∃ messages, s'.sent = s.sent ++ messages ∧ ∀ m ∈ messages, NoBatch m)
      (threads : s'.threads = earlier ++ later)
  | announced (earlier : List Worker) (paths : List String) (generation : Nat) (later : List Worker)
      (register : String → Option Registration) (files : List File)
      (thread : s.threads = earlier ++ .offerFiles paths generation :: later)
      (offered : FilesOf env register paths files)
      (same : s'.generation = s.generation)
      (marks : s'.uriFileOffers = s.uriFileOffers)
      (sent : ∃ messages, s'.sent = s.sent ++ .prepareFiles generation files :: messages ∧
        ∀ m ∈ messages, NoBatch m)
      (threads : s'.threads = earlier ++ later)

theorem sendUriFiles_batch {env : Env} {s : Bridge} (a : Action) {earlier later : List Worker}
    {raw : String} {generation : Nat}
    (thread : s.threads = earlier ++ .sendUriFiles raw generation :: later) :
    BatchStep env s a (sendUriFiles env { s with threads := earlier ++ later } raw generation) := by
  have nothing : BatchStep env s a { s with threads := earlier ++ later } :=
    .ended earlier _ later thread rfl rfl ⟨[], by simp, by simp⟩ rfl
  unfold sendUriFiles
  cases found : localPaths env.refused (splitlines raw) [] with
  | none => exact nothing
  | some paths =>
      dsimp only
      split
      · exact nothing
      · next current =>
          simp only [ne_eq, not_or, not_not] at current
          obtain ⟨rfl, _⟩ := current
          rw [localPaths_eq found]
          exact .tested earlier raw later thread rfl rfl rfl rfl

theorem markFiles_batch {env : Env} {s : Bridge} (a : Action) {earlier later : List Worker}
    {paths : List String} {generation : Nat}
    (thread : s.threads = earlier ++ .markFiles paths generation :: later) :
    BatchStep env s a (markFiles { s with threads := earlier ++ later } paths generation) := by
  unfold markFiles
  dsimp only
  split
  · exact .ended earlier _ later thread rfl rfl ⟨[], by simp, by simp⟩ rfl
  · next fresh => exact .marked earlier paths generation later thread fresh rfl rfl rfl rfl

theorem send_cases (raises : Message → Bool) (s : Bridge) (message : Message) :
    (∃ returns, send raises s message = (s, returns)) ∨
      send raises s message = ({ s with sent := s.sent ++ [message] }, true) := by
  unfold send
  split
  · exact .inl ⟨true, rfl⟩
  · split
    · exact .inl ⟨false, rfl⟩
    · exact .inr rfl

theorem announceFiles_batch {env : Env} (raises : Message → Bool) {s : Bridge} (a : Action)
    (register : String → Option Registration) {earlier later : List Worker} {paths : List String}
    {generation : Nat} (thread : s.threads = earlier ++ .offerFiles paths generation :: later) :
    BatchStep env s a
      (announceFiles env raises { s with threads := earlier ++ later } register paths generation) := by
  have ended (s' : Bridge) (grows : Grows (fun _ => False) { s with threads := earlier ++ later } s')
      (same : s'.threads = earlier ++ later) : BatchStep env s a s' :=
    .ended earlier _ later thread grows.generation grows.marks grows.sent same
  unfold announceFiles
  cases offered : offeredFiles env register paths with
  | none =>
      exact ended _ (send_grows raises _ fun _ => rfl) (send_threads raises _ _)
  | some files =>
      dsimp only
      rcases send_cases raises { s with threads := earlier ++ later }
        (.prepareFiles generation files) with ⟨returns, unsent⟩ | sent
      · rw [unsent]
        cases returns with
        | false => exact ended _ (.refl _) rfl
        | true =>
            dsimp only
            split
            · exact ended _ (.refl _) rfl
            · exact ended _ (send_grows raises _ fun _ => rfl) (send_threads raises _ _)
      · rw [sent]
        dsimp only
        have announced (s' : Bridge)
            (grows : Grows (fun _ => False) { s with
              threads := earlier ++ later, sent := s.sent ++ [.prepareFiles generation files] } s')
            (same : s'.threads = earlier ++ later) : BatchStep env s a s' := by
          obtain ⟨messages, sent', plain⟩ := grows.sent
          refine .announced earlier paths generation later register files thread
            (offeredFiles_some offered) grows.generation grows.marks ⟨messages, ?_, plain⟩ same
          rw [sent']
          simp
        split
        · exact announced _ (.refl _) rfl
        · exact announced _ (send_grows raises _ fun _ => rfl) (send_threads raises _ _)

theorem step_batches {env : Env} {s s' : Bridge} {a : Action} (taken : step env s a s') :
    BatchStep env s a s' := by
  cases a with
  | token tok raises =>
      subst taken
      exact .moves (handleToken_moves raises s tok)
  | contents reply raises =>
      subst taken
      exact .moves (handleContents_grows raises s reply).moves
  | invalidateNative proxy raises =>
      subst taken
      exact .moves (invalidateNative_moves raises s proxy)
  | claim proxy targets installed =>
      subst taken
      exact .moves (claim_moves s proxy targets installed)
  | claimMacos proxy targets =>
      subst taken
      exact .moves (claimMacos_moves s proxy targets)
  | requestRemote proxy target answers =>
      subst taken
      have moves : Moves (Raws s (.requestRemote proxy target answers)) False
          { s with proxy := some proxy } (requestRemote s answers proxy target) :=
        requestRemoteTarget_moves _ answers _ target
      exact .moves ⟨moves.generation, moves.sent, moves.threads⟩
  | provideTarget generation target answers =>
      subst taken
      exact .moves (requestRemoteTarget_moves s answers generation target)
  | dataRequest generation target raises =>
      subst taken
      exact .moves (send_grows raises s fun _ => rfl).moves
  | otherRequest =>
      subst taken
      exact .moves (.quiet rfl rfl rfl rfl)
  | readResponse key data =>
      obtain ⟨_, rfl⟩ := taken
      exact .moves (readResponse_moves s key data)
  | storeResponse =>
      obtain ⟨key, data, _, rfl⟩ := taken
      exact .moves (storeResponse_moves s key data)
  | sendUriFiles =>
      obtain ⟨_, earlier, worker, later, thread, moved⟩ := taken
      cases worker with
      | sendUriFiles raw generation =>
          cases moved
          exact sendUriFiles_batch _ thread
      | markFiles paths generation => cases moved
      | offerFiles paths generation => cases moved
      | sendHtml data generation target => cases moved
  | markFiles =>
      obtain ⟨earlier, worker, later, thread, moved⟩ := taken
      cases worker with
      | sendUriFiles raw generation => cases moved
      | markFiles paths generation =>
          cases moved
          exact markFiles_batch _ thread
      | offerFiles paths generation => cases moved
      | sendHtml data generation target => cases moved
  | offerFiles register raises =>
      obtain ⟨earlier, worker, later, thread, moved⟩ := taken
      cases worker with
      | sendUriFiles raw generation => cases moved
      | markFiles paths generation => cases moved
      | offerFiles paths generation =>
          cases moved
          exact announceFiles_batch raises _ register thread
      | sendHtml data generation target => cases moved
  | sendHtml files raises =>
      obtain ⟨earlier, worker, later, thread, moved⟩ := taken
      cases worker with
      | sendUriFiles raw generation => cases moved
      | markFiles paths generation => cases moved
      | offerFiles paths generation => cases moved
      | sendHtml data generation target =>
          cases moved
          have grows : Grows (fun _ => False) { s with threads := earlier ++ later }
              (send raises { s with threads := earlier ++ later }
                (.html generation target files data)).1 := send_grows raises _ fun _ => rfl
          exact .ended earlier _ later thread grows.generation grows.marks grows.sent
            (send_threads raises _ _)
  | disconnect =>
      subst taken
      exact .moves (.quiet rfl rfl rfl rfl)

/-! ### One batch -/

/-- A list that some step gave for a generation. -/
def Listed (log : Log) (raw : String) (generation : Nat) : Prop :=
  ∃ t ∈ log, Raws t.before t.action raw ∧ t.after.generation = generation

theorem Listed.longer {log : Log} (t : Transition Bridge Action) {raw : String} {generation : Nat}
    (listed : Listed log raw generation) : Listed (log ++ [t]) raw generation := by
  obtain ⟨u, member, rest⟩ := listed
  exact ⟨u, List.mem_append_left _ member, rest⟩

/-- The announcements of a generation's files, made and to be made. -/
def batches (s : Bridge) (generation : Nat) : Nat :=
  s.sent.countP (isBatch generation) + s.threads.countP (isOffering generation)

/-- A new offer takes the marks away: this is safe while no thread is about to test one that is
there. -/
def Undisturbed (s : Bridge) (a : Action) : Prop :=
  NewOffer s a → ∀ paths generation, .markFiles paths generation ∈ s.threads →
    (generation, "uri-batch") ∉ s.uriFileOffers

/-- A step that takes no mark from under such a thread. -/
def undisturbedStep (env : Env) (s : Bridge) (a : Action) (s' : Bridge) : Prop :=
  step env s a s' ∧ Undisturbed s a

/-- The files of a thread that has found its generation to be the current one. -/
structure Tested (log : Log) (s : Bridge) (paths : List String) (generation : Nat) : Prop where
  old : generation ≤ s.generation
  marked : 0 < batches s generation → (generation, "uri-batch") ∈ s.uriFileOffers
  listed : ∃ raw, Listed log raw generation ∧ paths = pathsOf raw

structure OneBatch (env : Env) (log : Log) (s : Bridge) : Prop where
  once : ∀ generation, batches s generation ≤ 1
  marked : ∀ generation, 0 < batches s generation → generation ≤ s.generation ∧
    (generation = s.generation → (generation, "uri-batch") ∈ s.uriFileOffers)
  lists : ∀ raw generation, .sendUriFiles raw generation ∈ s.threads → Listed log raw generation
  tested : ∀ paths generation, .markFiles paths generation ∈ s.threads →
    Tested log s paths generation
  offering : ∀ paths generation, .offerFiles paths generation ∈ s.threads →
    ∃ raw, Listed log raw generation ∧ paths = pathsOf raw
  files : ∀ generation files, .prepareFiles generation files ∈ s.sent →
    ∃ raw register, Listed log raw generation ∧ FilesOf env register (pathsOf raw) files

theorem initial_oneBatch {env : Env} {s : Bridge} (start : initial s) : OneBatch env [] s := by
  obtain ⟨enabled, connected, rfl⟩ := start
  constructor <;> simp [batches]

theorem countP_plain {messages : List Message} (plain : ∀ m ∈ messages, NoBatch m)
    (generation : Nat) : messages.countP (isBatch generation) = 0 :=
  List.countP_eq_zero.mpr fun m member => by simp [plain m member generation]

theorem countP_starts {workers : List Worker} {current : Nat}
    (starts : ∀ w ∈ workers, Starts raws current w) (generation : Nat) :
    workers.countP (isOffering generation) = 0 := by
  refine List.countP_eq_zero.mpr ?_
  intro w member
  cases w with
  | offerFiles paths g => exact absurd (starts _ member) id
  | _ => simp [isOffering]

/-- Messages, threads and generations that a handler adds are no batch. -/
theorem moves_batches {s s' : Bridge} (moves : Moves raws renews s s') (generation : Nat) :
    batches s' generation = batches s generation := by
  obtain ⟨messages, sent, plain⟩ := moves.sent
  obtain ⟨workers, threads, starts⟩ := moves.threads
  simp only [batches, sent, threads, List.countP_append, countP_plain plain, countP_starts starts,
    Nat.add_zero]

theorem Tested.later {log : Log} {s s' : Bridge} {paths : List String} {generation : Nat}
    (tested : Tested log s paths generation) (t : Transition Bridge Action)
    (grows : s.generation ≤ s'.generation)
    (marked : 0 < batches s' generation → (generation, "uri-batch") ∈ s'.uriFileOffers) :
    Tested (log ++ [t]) s' paths generation := by
  obtain ⟨raw, listed, same⟩ := tested.listed
  exact ⟨tested.old.trans grows, marked, raw, listed.longer t, same⟩

theorem OneBatch.moves {env : Env} {log : Log} {s s' : Bridge} {a : Action}
    (one : OneBatch env log s) (moves : Moves (Raws s a) (NewOffer s a) s s')
    (undisturbed : Undisturbed s a) : OneBatch env (log ++ [⟨s, a, s'⟩]) s' := by
  obtain ⟨messages, sent, plain⟩ := moves.sent
  obtain ⟨workers, threads, starts⟩ := moves.threads
  constructor
  case once =>
    intro batch
    rw [moves_batches moves]
    exact one.once batch
  case marked =>
    intro batch some
    rw [moves_batches moves] at some
    obtain ⟨old, mark⟩ := one.marked batch some
    rcases moves.generation with ⟨same, marks⟩ | ⟨next, _⟩
    · rw [same, marks]
      exact ⟨old, mark⟩
    · exact ⟨by omega, fun here => by omega⟩
  case lists =>
    intro raw generation member
    rw [threads] at member
    rcases List.mem_append.mp member with old | new
    · exact (one.lists raw generation old).longer _
    · obtain ⟨here, raws⟩ := starts _ new
      exact ⟨⟨s, a, s'⟩, by simp, raws, here.symm⟩
  case tested =>
    intro paths generation member
    rw [threads] at member
    rcases List.mem_append.mp member with old | new
    · have tested := one.tested paths generation old
      have grows : s.generation ≤ s'.generation := by
        rcases moves.generation with ⟨same, _⟩ | ⟨next, _⟩ <;> omega
      refine tested.later _ grows ?_
      intro some
      rw [moves_batches moves] at some
      have mark := tested.marked some
      rcases moves.generation with ⟨_, marks⟩ | ⟨_, marks | new⟩
      · rwa [marks]
      · rwa [marks]
      · exact absurd mark (undisturbed new paths generation old)
    · exact absurd (starts _ new) id
  case offering =>
    intro paths generation member
    rw [threads] at member
    rcases List.mem_append.mp member with old | new
    · obtain ⟨raw, listed, same⟩ := one.offering paths generation old
      exact ⟨raw, listed.longer _, same⟩
    · exact absurd (starts _ new) id
  case files =>
    intro generation files member
    rw [sent] at member
    rcases List.mem_append.mp member with old | new
    · obtain ⟨raw, register, listed, offered⟩ := one.files generation files old
      exact ⟨raw, register, listed.longer _, offered⟩
    · have contrary := plain _ new generation
      simp [isBatch] at contrary

/-- A thread ends: what it leaves behind is no new batch. -/
theorem OneBatch.ends {env : Env} {log : Log} {s s' : Bridge} (one : OneBatch env log s)
    (t : Transition Bridge Action) (generation : s'.generation = s.generation)
    (marks : s'.uriFileOffers = s.uriFileOffers)
    (count : ∀ batch, batches s' batch ≤ batches s batch)
    (threads : ∀ w ∈ s'.threads, w ∈ s.threads)
    (files : ∀ g files, .prepareFiles g files ∈ s'.sent → .prepareFiles g files ∈ s.sent ∨
      ∃ raw register, Listed log raw g ∧ FilesOf env register (pathsOf raw) files) :
    OneBatch env (log ++ [t]) s' := by
  constructor
  case once =>
    intro batch
    exact (count batch).trans (one.once batch)
  case marked =>
    intro batch some
    rw [generation, marks]
    exact one.marked batch (lt_of_lt_of_le some (count batch))
  case lists =>
    intro raw g member
    exact (one.lists raw g (threads _ member)).longer _
  case tested =>
    intro paths g member
    have tested := one.tested paths g (threads _ member)
    refine tested.later t generation.ge ?_
    intro some
    rw [marks]
    exact tested.marked (lt_of_lt_of_le some (count g))
  case offering =>
    intro paths g member
    obtain ⟨raw, listed, same⟩ := one.offering paths g (threads _ member)
    exact ⟨raw, listed.longer _, same⟩
  case files =>
    intro g found member
    rcases files g found member with old | ⟨raw, register, listed, offered⟩
    · obtain ⟨raw, register, listed, offered⟩ := one.files g found old
      exact ⟨raw, register, listed.longer _, offered⟩
    · exact ⟨raw, register, listed.longer _, offered⟩

theorem mem_without {earlier later : List Worker} {worker w : Worker} (member : w ∈ earlier ++ later) :
    w ∈ earlier ++ worker :: later := by
  rcases List.mem_append.mp member with front | back
  · exact List.mem_append_left _ front
  · exact List.mem_append_right _ (List.mem_cons_of_mem _ back)

/-- A thread goes on as another one. -/
theorem mem_moved {s s' : Bridge} {earlier later : List Worker} {worker worker' w : Worker}
    (thread : s.threads = earlier ++ worker :: later)
    (threads : s'.threads = earlier ++ later ++ [worker']) (member : w ∈ s'.threads) :
    w ∈ s.threads ∨ w = worker' := by
  rw [threads, List.mem_append, List.mem_singleton] at member
  rw [thread]
  exact member.imp_left mem_without

theorem OneBatch.tests {env : Env} {log : Log} {s s' : Bridge} (one : OneBatch env log s)
    (t : Transition Bridge Action) {earlier later : List Worker} {raw : String}
    (thread : s.threads = earlier ++ .sendUriFiles raw s.generation :: later)
    (generation : s'.generation = s.generation) (marks : s'.uriFileOffers = s.uriFileOffers)
    (sent : s'.sent = s.sent)
    (threads : s'.threads = earlier ++ later ++ [.markFiles (pathsOf raw) s.generation]) :
    OneBatch env (log ++ [t]) s' := by
  have others (w : Worker) (member : w ∈ s'.threads) := mem_moved thread threads member
  have count (batch : Nat) : batches s' batch = batches s batch := by
    simp only [batches, sent, threads, thread, List.countP_append, List.countP_cons,
      List.countP_nil, isOffering, Bool.false_eq_true, if_false]
    omega
  constructor
  case once =>
    intro batch
    rw [count]
    exact one.once batch
  case marked =>
    intro batch some
    rw [count] at some
    rw [generation, marks]
    exact one.marked batch some
  case lists =>
    intro raw' g member
    rcases others _ member with old | new
    · exact (one.lists raw' g old).longer _
    · cases new
  case tested =>
    intro paths g member
    rcases others _ member with old | new
    · have tested := one.tested paths g old
      refine tested.later t generation.ge ?_
      rw [count, marks]
      exact tested.marked
    · cases new
      have member : .sendUriFiles raw s.generation ∈ s.threads := by simp [thread]
      refine ⟨generation.ge, ?_, raw, (one.lists raw s.generation member).longer _, rfl⟩
      intro some
      rw [count] at some
      rw [marks]
      exact (one.marked _ some).2 rfl
  case offering =>
    intro paths g member
    rcases others _ member with old | new
    · obtain ⟨raw', listed, same⟩ := one.offering paths g old
      exact ⟨raw', listed.longer _, same⟩
    · cases new
  case files =>
    intro g files member
    rw [sent] at member
    obtain ⟨raw', register, listed, offered⟩ := one.files g files member
    exact ⟨raw', register, listed.longer _, offered⟩

theorem OneBatch.marks {env : Env} {log : Log} {s s' : Bridge} (one : OneBatch env log s)
    (t : Transition Bridge Action) {earlier later : List Worker} {paths : List String} {batch : Nat}
    (thread : s.threads = earlier ++ .markFiles paths batch :: later)
    (fresh : (batch, "uri-batch") ∉ s.uriFileOffers) (generation : s'.generation = s.generation)
    (marks : s'.uriFileOffers = s.uriFileOffers.insert (batch, "uri-batch"))
    (sent : s'.sent = s.sent)
    (threads : s'.threads = earlier ++ later ++ [.offerFiles paths batch]) :
    OneBatch env (log ++ [t]) s' := by
  have others (w : Worker) (member : w ∈ s'.threads) := mem_moved thread threads member
  have tested : Tested log s paths batch := one.tested paths batch (by simp [thread])
  have unmarked : batches s batch = 0 := by
    by_contra some
    exact fresh (tested.marked (Nat.pos_of_ne_zero some))
  have count (g : Nat) : batches s' g = batches s g + if batch = g then 1 else 0 := by
    simp only [batches, sent, threads, thread, List.countP_append, List.countP_cons,
      List.countP_nil, isOffering, decide_eq_true_eq, Bool.false_eq_true, if_false]
    omega
  have kept {key : Key} (mark : key ∈ s.uriFileOffers) : key ∈ s'.uriFileOffers := by
    rw [marks]
    exact List.mem_insert_of_mem mark
  have mark : (batch, "uri-batch") ∈ s'.uriFileOffers := by
    rw [marks]
    exact List.mem_insert_self
  constructor
  case once =>
    intro g
    rw [count]
    split
    · next here =>
        subst here
        omega
    · exact one.once g
  case marked =>
    intro g some
    rw [generation]
    by_cases here : batch = g
    · subst here
      exact ⟨tested.old, fun _ => mark⟩
    · rw [count, if_neg here] at some
      exact ⟨(one.marked g some).1, fun same => kept ((one.marked g some).2 same)⟩
  case lists =>
    intro raw g member
    rcases others _ member with old | new
    · exact (one.lists raw g old).longer _
    · cases new
  case tested =>
    intro paths' g member
    rcases others _ member with old | new
    · have tested := one.tested paths' g old
      refine tested.later t generation.ge ?_
      intro some
      by_cases here : batch = g
      · subst here
        exact mark
      · rw [count, if_neg here] at some
        exact kept (tested.marked some)
    · cases new
  case offering =>
    intro paths' g member
    rcases others _ member with old | new
    · obtain ⟨raw, listed, same⟩ := one.offering paths' g old
      exact ⟨raw, listed.longer _, same⟩
    · cases new
      obtain ⟨raw, listed, same⟩ := tested.listed
      exact ⟨raw, listed.longer _, same⟩
  case files =>
    intro g files member
    rw [sent] at member
    obtain ⟨raw, register, listed, offered⟩ := one.files g files member
    exact ⟨raw, register, listed.longer _, offered⟩

theorem oneBatch_next {env : Env} {log : Log} {s s' : Bridge} {a : Action}
    (one : OneBatch env log s) (taken : undisturbedStep env s a s') :
    OneBatch env (log ++ [⟨s, a, s'⟩]) s' := by
  obtain ⟨taken, undisturbed⟩ := taken
  cases step_batches taken with
  | moves moves => exact one.moves moves undisturbed
  | tested earlier raw later thread generation marks sent threads =>
      exact one.tests _ thread generation marks sent threads
  | marked earlier paths batch later thread fresh generation marks sent threads =>
      exact one.marks _ thread fresh generation marks sent threads
  | ended earlier worker later thread generation marks sent threads =>
      obtain ⟨messages, sent, plain⟩ := sent
      refine one.ends _ generation marks ?_ ?_ ?_
      · intro batch
        simp only [batches, sent, threads, thread, List.countP_append, List.countP_cons,
          countP_plain plain]
        omega
      · intro w member
        rw [threads] at member
        rw [thread]
        exact mem_without member
      · intro g files member
        rw [sent] at member
        rcases List.mem_append.mp member with old | new
        · exact .inl old
        · have contrary := plain _ new g
          simp [isBatch] at contrary
  | announced earlier paths generation later register files thread offered same marks sent threads =>
      obtain ⟨messages, sent, plain⟩ := sent
      refine one.ends _ same marks ?_ ?_ ?_
      · intro batch
        simp only [batches, sent, threads, thread, List.countP_append, List.countP_cons,
          countP_plain plain, isBatch, isOffering, decide_eq_true_eq]
        omega
      · intro w member
        rw [threads] at member
        rw [thread]
        exact mem_without member
      · intro g found member
        rw [sent] at member
        rcases List.mem_append.mp member with old | new
        · exact .inl old
        · rcases List.mem_cons.mp new with here | later'
          · cases here
            have member : .offerFiles paths generation ∈ s.threads := by simp [thread]
            obtain ⟨raw, listed, rfl⟩ := one.offering paths generation member
            exact .inr ⟨raw, register, listed, offered⟩
          · have contrary := plain _ later' g
            simp [isBatch] at contrary

theorem history_oneBatch {env : Env} {log : Log} {s : Bridge}
    (history : History initial (undisturbedStep env) log s) : OneBatch env log s :=
  history.invariant (fun _ start => initial_oneBatch start)
    fun _ _ _ _ one taken => oneBatch_next one taken

/-- What a run of the bridge tells the broker about files. -/
structure FilesSafe (env : Env) (log : Log) (s : Bridge) : Prop where
  once : ∀ generation, s.sent.countP (isBatch generation) ≤ 1
  /-- the files are those of the distinct local paths of one list that was given for the generation -/
  files : ∀ generation files, .prepareFiles generation files ∈ s.sent →
    ∃ raw register, Listed log raw generation ∧ FilesOf env register (pathsOf raw) files ∧
      (pathsOf raw).Nodup ∧ ∀ path ∈ pathsOf raw, startsWith path "/" = true
  /-- a thread whose offer is over when it tests that ends there -/
  stale : ∀ t ∈ log, t.action = .sendUriFiles → ∃ earlier raw generation later,
    t.before.threads = earlier ++ .sendUriFiles raw generation :: later ∧
    (generation ≠ t.before.generation ∨ t.before.active = false →
      t.after = { t.before with threads := earlier ++ later })

theorem sendUriFiles_stale (env : Env) {s : Bridge} (raw : String) {generation : Nat}
    (stale : generation ≠ s.generation ∨ s.active = false) :
    sendUriFiles env s raw generation = s := by
  unfold sendUriFiles
  cases localPaths env.refused (splitlines raw) [] with
  | none => rfl
  | some paths =>
      dsimp only
      rw [if_pos]
      simpa using stale

/-- Whatever the order in which handlers and threads run, however the files are registered: a
generation has at most one batch of files, those of one list, unless a new offer comes between the
two tests of a thread. -/
theorem one_file_batch (env : Env) (log : Log) (s : Bridge)
    (history : History initial (undisturbedStep env) log s) : FilesSafe env log s := by
  have one := history_oneBatch history
  constructor
  case once =>
    intro generation
    exact (Nat.le_add_right _ _).trans (one.once generation)
  case files =>
    intro generation files member
    obtain ⟨raw, register, listed, offered⟩ := one.files generation files member
    exact ⟨raw, register, listed, offered, pathsOf_nodup raw, fun path => pathsOf_absolute⟩
  case stale =>
    intro t member action
    obtain ⟨front, back, here⟩ := List.append_of_mem member
    have taken := (history.split here).2.1
    rw [action] at taken
    obtain ⟨_, earlier, worker, later, thread, moved⟩ := taken
    cases worker with
    | sendUriFiles raw generation =>
        refine ⟨earlier, raw, generation, later, thread, ?_⟩
        intro stale
        simp only [Option.some.injEq] at moved
        rw [← moved]
        exact sendUriFiles_stale env raw stale
    | markFiles paths generation => cases moved
    | offerFiles paths generation => cases moved
    | sendHtml data generation target => cases moved

/-! The file of the reply is announced. -/

theorem quiet_tests {s : Bridge} (current : s.generation = 1) (active : s.active = true) :
    sendUriFiles quietEnv s "file:///a" 1 = startThread s (.markFiles ["/a"] 1) := by
  have paths : localPaths quietEnv.refused (splitlines "file:///a") [] = some ["/a"] := by decide
  simp [sendUriFiles, paths, current, active]

theorem undisturbed_quiet {s : Bridge} (quiet : s.threads.any Worker.isMarking = false) (a : Action) :
    Undisturbed s a := by
  intro _ paths generation member
  rw [List.any_eq_false] at quiet
  exact absurd rfl (quiet _ member)

def nameFile (path : String) : Option Registration := some ⟨some path, none, some 7⟩

def testedBridge : Bridge :=
  startThread { answeredBridge with threads := [] } (.markFiles ["/a"] 1)

def markedBridge : Bridge := markFiles { testedBridge with threads := [] } ["/a"] 1

def announcedBridge : Bridge :=
  announceFiles quietEnv deliver { markedBridge with threads := [] } nameFile ["/a"] 1

def batchLog : Log :=
  fileLog ++ [⟨answeredBridge, .sendUriFiles, testedBridge⟩] ++
    [⟨testedBridge, .markFiles, markedBridge⟩] ++
    [⟨markedBridge, .offerFiles nameFile deliver, announcedBridge⟩]

theorem batchLog_history : History initial (undisturbedStep quietEnv) batchLog announcedBridge := by
  have offers : undisturbedStep quietEnv connectedBridge (.token fileToken deliver) offeredBridge :=
    ⟨rfl, undisturbed_quiet rfl _⟩
  have asks : undisturbedStep quietEnv offeredBridge
      (.requestRemote clipboardProxy "text/uri-list" true) askedBridge :=
    ⟨rfl, undisturbed_quiet rfl _⟩
  have answers : undisturbedStep quietEnv askedBridge (.contents fileReply deliver) answeredBridge :=
    ⟨rfl, undisturbed_quiet rfl _⟩
  have tests : undisturbedStep quietEnv answeredBridge .sendUriFiles testedBridge :=
    ⟨⟨rfl, [], .sendUriFiles "file:///a" 1, [], rfl, congrArg some (quiet_tests rfl rfl)⟩,
      undisturbed_quiet rfl _⟩
  have marks : undisturbedStep quietEnv testedBridge .markFiles markedBridge :=
    ⟨⟨[], .markFiles ["/a"] 1, [], rfl, rfl⟩, fun new => new.elim⟩
  have announces : undisturbedStep quietEnv markedBridge (.offerFiles nameFile deliver)
      announcedBridge :=
    ⟨⟨[], .offerFiles ["/a"] 1, [], rfl, rfl⟩, undisturbed_quiet rfl _⟩
  have answered : History initial (undisturbedStep quietEnv) fileLog answeredBridge :=
    .next (.next (.next (.start ⟨true, true, rfl⟩) offers) asks) answers
  exact .next (.next (.next answered tests) marks) announces

theorem one_file_batch_reply : FilesSafe quietEnv batchLog announcedBridge :=
  one_file_batch quietEnv batchLog announcedBridge batchLog_history

example : announcedBridge.sent.countP (isBatch 1) = 1 := by decide

/-! Two threads for one offer, and the next offer between the tests of the second one. -/

def eagerToken : Token :=
  { fileToken with
    targetData := [("text/uri-list", ⟨"text/uri-list", 8, .bytes (Rencodeplus.utf8 "file:///a")⟩)] }

def nextToken : Token := { fileToken with sourceOfferId := 2 }

/-- The second token is merged into the offer of the first. -/
def twiceBridge : Bridge :=
  (handleToken deliver (handleToken deliver connectedBridge eagerToken).1 eagerToken).1

def firstTested : Bridge :=
  startThread { twiceBridge with threads := [.sendUriFiles "file:///a" 1] } (.markFiles ["/a"] 1)

def firstMarked : Bridge :=
  markFiles { firstTested with threads := [.sendUriFiles "file:///a" 1] } ["/a"] 1

def secondTested : Bridge :=
  startThread { firstMarked with threads := [.offerFiles ["/a"] 1] } (.markFiles ["/a"] 1)

def firstAnnounced : Bridge :=
  announceFiles quietEnv deliver { secondTested with threads := [.markFiles ["/a"] 1] } nameFile
    ["/a"] 1

def nextOffered : Bridge := (handleToken deliver firstAnnounced nextToken).1

def secondMarked : Bridge := markFiles { nextOffered with threads := [] } ["/a"] 1

def secondAnnounced : Bridge :=
  announceFiles quietEnv deliver { secondMarked with threads := [] } nameFile ["/a"] 1

theorem secondAnnounced_history : ∃ log, History initial (step quietEnv) log secondAnnounced := by
  have first : step quietEnv connectedBridge (.token eagerToken deliver)
      (handleToken deliver connectedBridge eagerToken).1 := rfl
  have merges : step quietEnv (handleToken deliver connectedBridge eagerToken).1
      (.token eagerToken deliver) twiceBridge := rfl
  have tests : step quietEnv twiceBridge .sendUriFiles firstTested :=
    ⟨by decide +kernel, [], .sendUriFiles "file:///a" 1, [.sendUriFiles "file:///a" 1],
      by decide +kernel, congrArg some (quiet_tests (by decide +kernel) (by decide +kernel))⟩
  have marks : step quietEnv firstTested .markFiles firstMarked :=
    ⟨[.sendUriFiles "file:///a" 1], .markFiles ["/a"] 1, [], rfl, rfl⟩
  have testsAgain : step quietEnv firstMarked .sendUriFiles secondTested :=
    ⟨by decide +kernel, [], .sendUriFiles "file:///a" 1, [.offerFiles ["/a"] 1],
      by decide +kernel, congrArg some (quiet_tests (by decide +kernel) (by decide +kernel))⟩
  have announces : step quietEnv secondTested (.offerFiles nameFile deliver) firstAnnounced :=
    ⟨[], .offerFiles ["/a"] 1, [.markFiles ["/a"] 1], by decide +kernel, rfl⟩
  have offers : step quietEnv firstAnnounced (.token nextToken deliver) nextOffered := rfl
  have marksAgain : step quietEnv nextOffered .markFiles secondMarked :=
    ⟨[], .markFiles ["/a"] 1, [], by decide +kernel, rfl⟩
  have announcesAgain : step quietEnv secondMarked (.offerFiles nameFile deliver) secondAnnounced :=
    ⟨[], .offerFiles ["/a"] 1, [], by decide +kernel, rfl⟩
  have start : initial connectedBridge := ⟨true, true, rfl⟩
  have twice := History.next (History.next (History.start start) first) merges
  have announced := History.next (.next (.next (.next twice tests) marks) testsAgain) announces
  exact ⟨_, .next (.next (.next announced offers) marksAgain) announcesAgain⟩

theorem not_one_file_batch :
    ¬∀ env log s, History initial (step env) log s → FilesSafe env log s := by
  intro safe
  obtain ⟨log, history⟩ := secondAnnounced_history
  have once := (safe quietEnv log secondAnnounced history).once 1
  exact absurd once (by decide +kernel)

end Catlink.Clipboard.CatlinkBridge
