import Catlink.Server.Auth

/-! Nobody is verified who has not passed every authenticator, and nobody gets two guesses. -/

namespace Catlink.Server

open Auth Runs Trace

/-- A response was checked, or accepted, and the authenticator would do it again: its check does not
depend on the salt being there. -/
def Spent (log : List Event) (c : Hello) (i : Nat) (m : Module) (s : State) : Prop :=
  m.requiresChallenge = true ∧ s.challengeSent = true ∧ s.passed = false ∧
    match m.checkMethod with
    | .hmac => False
    | .allow => .passed i ∈ log
    | .default | .own => (∃ salt, .guess i salt ∈ log) ∧ validateCaps s c = true

/-- What the log tells of an authenticator. -/
structure Tracked (log : List Event) (i : Nat) (m : Module) (s : State) : Prop where
  passed : s.passed = true → .passed i ∈ log
  flagged : .passed i ∈ log → s.passed = true ∨ m.requiresChallenge = true ∧ m.checkMethod = .allow
  guessed : ∀ salt, .guess i salt ∈ log → s.challengeSent = true ∧ (m.checkMethod = .hmac → s.salt = none)

/-- Events that say nothing of authenticator `i`. -/
def Silent (i : Nat) (events : List Event) : Prop :=
  .passed i ∉ events ∧ ∀ salt, .guess i salt ∉ events

variable {log events : List Event} {i : Nat} {m : Module} {s : State}

theorem Tracked.silent (tracked : Tracked log i m s) (silent : Silent i events) :
    Tracked (log ++ events) i m s where
  passed flag := List.mem_append_left _ (tracked.passed flag)
  flagged member := by
    rcases List.mem_append.mp member with old | new
    · exact tracked.flagged old
    · exact absurd new silent.1
  guessed salt member := by
    rcases List.mem_append.mp member with old | new
    · exact tracked.guessed salt old
    · exact absurd new (silent.2 salt)

theorem Silent.append {first second : List Event} (one : Silent i first) (two : Silent i second) :
    Silent i (first ++ second) := by
  constructor
  · intro member
    rcases List.mem_append.mp member with here | here
    · exact one.1 here
    · exact two.1 here
  · intro salt member
    rcases List.mem_append.mp member with here | here
    · exact one.2 salt here
    · exact two.2 salt here

/-! ### One authenticator -/

/-- What a visit to authenticator `i` adds to the log, and leaves behind. -/
structure Visited (config : List Module) (log : List Event) (i : Nat) (m : Module)
    (r : State × List Event × Bool) : Prop where
  respects : Respects (Allowed config) log r.2.1
  others : ∀ j, j ≠ i → Silent j r.2.1
  tracked : Tracked (log ++ r.2.1) i m r.1
  passes : r.2.2 = true → .passed i ∈ log ++ r.2.1

theorem offerChallenge_visited (config : List Module) (o : Answers) (c : Hello)
    (authCaps : AuthCaps) (tracked : Tracked log i m s) (unsent : s.challengeSent = false)
    (earlier : ∀ j < i, .passed j ∈ log) :
    Visited config log i m ((offerChallenge o c authCaps i m s).1,
      (offerChallenge o c authCaps i m s).2, false) := by
  have unguessed : ∀ salt, .guess i salt ∉ log := by
    intro salt member
    have sent := (tracked.guessed salt member).1
    rw [unsent] at sent
    cases sent
  -- whatever is offered, only `passed` of the state matters, and it is kept
  suffices ∀ (s' : State) (e : Event), s'.passed = s.passed → Allowed config log e →
      (∀ j, Silent j [e]) → Visited config log i m (s', [e], false) by
    have kept := m.keepsPassed o.getSalt s c.digest
    have calm : ∀ (auth : Option Nat) (msg : String) (j : Nat), Silent j [.failed auth msg] := by
      intro auth msg j
      constructor <;> simp
    have raised : ∀ (e : Exn) (j : Nat), Silent j [.raised e] := by
      intro e j
      constructor <;> simp
    unfold offerChallenge
    generalize m.getChallenge o.getSalt s c.digest = r at kept ⊢
    rcases r with ⟨s', e | ⟨salt, digest⟩⟩
    · cases e with
      | valueError text => exact this s' _ kept trivial (calm _ _)
      | _ => exact this s' _ kept trivial (raised _)
    · dsimp only
      split
      · exact this s' _ kept trivial (calm _ _)
      · split
        · exact this s' _ kept trivial (calm _ _)
        · unfold chooseSaltDigest
          cases chooseDigest c.saltDigest with
          | error e => exact this s' _ kept trivial (raised _)
          | ok saltDigest =>
              dsimp only
              split
              · exact this _ _ kept trivial (calm _ _)
              · refine this _ _ kept earlier ?_
                intro j
                constructor <;> simp
  intro s' e kept allowed silent
  refine ⟨⟨allowed, trivial⟩, fun j _ => silent j, ?_, by simp⟩
  constructor
  · intro flag
    exact List.mem_append_left _ (tracked.passed (kept ▸ flag))
  · intro member
    rw [kept]
    rcases List.mem_append.mp member with old | new
    · exact tracked.flagged old
    · exact absurd new (silent i).1
  · intro salt member
    rcases List.mem_append.mp member with old | new
    · exact absurd old (unguessed salt)
    · exact absurd new ((silent i).2 salt)

/-- An authenticator that has not passed, and is not spent, may look at the response. -/
theorem takeResponse_visited (config : List Module) (h : Hashes) (o : Answers) (c : Hello)
    (tracked : Tracked log i m s) (requires : m.requiresChallenge = true)
    (sent : s.challengeSent = true) (failed : s.passed = false) (unspent : ¬ Spent log c i m s) :
    Visited config log i m (takeResponse h o c i m s) := by
  have spec := authenticate_spec h m.checkMethod o c failed
  generalize result : authenticate h m.checkMethod o s c = r at spec
  -- it has not passed before
  have fresh : .passed i ∉ log := by
    intro member
    rcases tracked.flagged member with flag | ⟨_, replaced⟩
    · rw [failed] at flag
      cases flag
    · apply unspent
      refine ⟨requires, sent, failed, ?_⟩
      rw [replaced]
      exact member
  -- and where a response is checked, none was before
  have first : ∀ salt ∈ r.guesses, ∀ salt', .guess i salt' ∉ log := by
    intro salt member salt' old
    rcases spec.guesses with none | ⟨used, _, valid, _, used'⟩
    · rw [none] at member
      cases member
    · have known := tracked.guessed salt' old
      cases method : m.checkMethod with
      | hmac => exact (used' method).1 (known.2 method)
      | allow =>
          apply unspent
          refine ⟨requires, sent, failed, ?_⟩
          rename_i different
          exact absurd method different
      | _ =>
          apply unspent
          refine ⟨requires, sent, failed, ?_⟩
          rw [method]
          exact ⟨⟨salt', old⟩, valid⟩
  have tried : Respects (Allowed config) log (.evaluated i :: r.guesses.map (.guess i)) := by
    refine ⟨fresh, ?_⟩
    rcases spec.guesses with none | ⟨salt, one, _⟩
    · rw [none]
      trivial
    · rw [one]
      refine ⟨?_, trivial⟩
      intro salt' member
      rcases List.mem_append.mp member with old | new
      · exact first salt (by rw [one]; exact List.mem_singleton_self _) salt' old
      · simp at new
  have calm : ∀ j, j ≠ i → Silent j (Event.evaluated i :: r.guesses.map (.guess i)) := by
    intro j other
    constructor
    · simp
    · intro salt member
      simp only [List.mem_cons, reduceCtorEq, List.mem_map, Event.guess.injEq, false_or] at member
      obtain ⟨_, _, same, _⟩ := member
      exact other same.symm
  have absent : .passed i ∉ log ++ (.evaluated i :: r.guesses.map (.guess i)) := by
    intro member
    rcases List.mem_append.mp member with old | new
    · exact fresh old
    · simp at new
  have guessed : ∀ salt, .guess i salt ∈ log ++ (.evaluated i :: r.guesses.map (.guess i)) →
      r.state.challengeSent = true ∧ (m.checkMethod = .hmac → r.state.salt = none) := by
    intro salt member
    refine ⟨spec.sent.trans sent, ?_⟩
    intro method
    rcases List.mem_append.mp member with old | new
    · have empty := (tracked.guessed salt old).2 method
      rcases spec.salt with same | none
      · exact same.trans empty
      · exact none
    · simp only [List.mem_cons, reduceCtorEq, List.mem_map, Event.guess.injEq, true_and,
        false_or, exists_eq_right] at new
      rcases spec.guesses with none | ⟨_, _, _, _, used⟩
      · rw [none] at new
        cases new
      · exact (used method).2
  -- the last event, for each result
  have refused : ∀ e : Event, (∀ j, Silent j [e]) → Allowed config
      (log ++ (.evaluated i :: r.guesses.map (.guess i))) e → r.result ≠ .ok true →
      Visited config log i m (r.state, (.evaluated i :: r.guesses.map (.guess i)) ++ [e], false) := by
    intro e silent allowed wrong
    have down : r.state.passed = false := by
      cases flag : r.state.passed with
      | false => rfl
      | true => exact absurd (spec.passed.mp flag).2 wrong
    have here : Tracked (log ++ (.evaluated i :: r.guesses.map (.guess i))) i m r.state := by
      refine ⟨?_, fun member => absurd member absent, guessed⟩
      intro flag
      rw [down] at flag
      cases flag
    refine ⟨tried.append ⟨allowed, trivial⟩, fun j other => (calm j other).append (silent j), ?_, ?_⟩
    · rw [← List.append_assoc]
      exact here.silent (silent i)
    · intro impossible
      cases impossible
  unfold takeResponse
  rw [result]
  dsimp only
  split
  · next wrong =>
      refine refused (.raised _) ?_ trivial (by rw [wrong]; simp)
      intro j
      constructor <;> simp
  · next wrong =>
      refine refused (.failed _ _) ?_ trivial (by rw [wrong]; simp)
      intro j
      constructor <;> simp
  · next right =>
      refine ⟨tried.append ⟨trivial, trivial⟩, ?_, ?_, ?_⟩
      · intro j other
        apply (calm j other).append
        constructor
        · simp [other]
        · simp
      · constructor
        · simp
        · intro _
          by_cases replaced : m.checkMethod = .allow
          · exact .inr ⟨requires, replaced⟩
          · exact .inl (spec.passed.mpr ⟨replaced, right⟩)
        · intro salt member
          rw [← List.append_assoc] at member
          rcases List.mem_append.mp member with before | last
          · exact guessed salt before
          · simp at last
      · simp

theorem visit_visited (config : List Module) (h : Hashes) (o : Answers) (c : Hello)
    (authCaps : AuthCaps) (tracked : Tracked log i m s) (failed : s.passed = false)
    (earlier : ∀ j < i, .passed j ∈ log) (unspent : ¬ Spent log c i m s) :
    Visited config log i m (visit h o c authCaps i m s) := by
  unfold visit
  by_cases requires : m.requiresChallenge
  · rw [if_pos requires]
    cases sent : s.challengeSent with
    | true =>
        rw [if_pos rfl]
        exact takeResponse_visited config h o c tracked requires sent failed unspent
    | false =>
        rw [if_neg (by simp)]
        exact offerChallenge_visited config o c authCaps tracked sent earlier
  · rw [if_neg requires]
    have fresh : .passed i ∉ log := by
      intro member
      rcases tracked.flagged member with flag | ⟨need, _⟩
      · rw [failed] at flag
        cases flag
      · exact requires need
    have refused : ∀ e : Event, (∀ j, Silent j [e]) → Allowed config (log ++ [.evaluated i]) e →
        Visited config log i m (s, [.evaluated i, e], false) := by
      intro e silent allowed
      have calm : ∀ j, Silent j [.evaluated i, e] := by
        intro j
        have one : Silent j [.evaluated i] := by
          constructor <;> simp
        exact one.append (silent j)
      refine ⟨⟨fresh, allowed, trivial⟩, fun j _ => calm j, tracked.silent (calm i), ?_⟩
      intro impossible
      cases impossible
    split
    · refine refused (.raised _) ?_ trivial
      intro j
      constructor <;> simp
    · refine refused (.failed _ _) ?_ trivial
      intro j
      constructor <;> simp
    · refine ⟨⟨fresh, trivial, trivial⟩, ?_, ?_, by simp⟩
      · intro j other
        constructor
        · simp [other]
        · simp
      · constructor
        · simp
        · intro _
          exact .inl rfl
        · intro salt member
          simp only [List.mem_append, List.mem_cons, reduceCtorEq, List.not_mem_nil, or_self,
            or_false] at member
          have known := tracked.guessed salt member
          exact known

/-! ### All of them -/

/-- The log tells the truth of every authenticator. -/
def AllTracked (log : List Event) (i : Nat) (auths : Authenticators) : Prop :=
  ∀ k m s, auths[k]? = some (m, s) → Tracked log (i + k) m s

theorem AllTracked.cons (head : Tracked log i m s) {rest : Authenticators}
    (tail : AllTracked log (i + 1) rest) : AllTracked log i ((m, s) :: rest) := by
  intro k m' s' here
  cases k with
  | zero =>
      cases here
      exact head
  | succ k =>
      have place : i + (k + 1) = i + 1 + k := by omega
      rw [place]
      exact tail k m' s' here

theorem AllTracked.uncons {rest : Authenticators} (all : AllTracked log i ((m, s) :: rest)) :
    Tracked log i m s ∧ AllTracked log (i + 1) rest := by
  constructor
  · exact all 0 m s rfl
  · intro k m' s' here
    have place : i + 1 + k = i + (k + 1) := by omega
    rw [place]
    exact all (k + 1) m' s' here

theorem AllTracked.silent {auths : Authenticators} (all : AllTracked log i auths)
    (silent : ∀ j, i ≤ j → Silent j events) : AllTracked (log ++ events) i auths := by
  intro k m s here
  exact (all k m s here).silent (silent (i + k) (by omega))

/-- None of the authenticators would take a second response. -/
def NoneSpent (log : List Event) (c : Hello) (i : Nat) (auths : Authenticators) : Prop :=
  ∀ k m s, auths[k]? = some (m, s) → ¬ Spent log c (i + k) m s

theorem Spent.silent {c : Hello} (silent : Silent i events) (spent : Spent (log ++ events) c i m s) :
    Spent log c i m s := by
  obtain ⟨requires, sent, failed, again⟩ := spent
  refine ⟨requires, sent, failed, ?_⟩
  have old : ∀ e : Event, e ∈ log ++ events → e ∉ events → e ∈ log := by
    intro e member absent
    rcases List.mem_append.mp member with here | there
    · exact here
    · exact absurd there absent
  cases method : m.checkMethod with
  | hmac =>
      rw [method] at again
      exact again
  | allow =>
      rw [method] at again
      exact old _ again silent.1
  | _ =>
      rw [method] at again
      obtain ⟨⟨salt, member⟩, valid⟩ := again
      exact ⟨⟨salt, old _ member (silent.2 salt)⟩, valid⟩

/-- What the loop adds to the log, and leaves behind. -/
structure VisitedAll (config : List Module) (log : List Event) (i : Nat) (auths : Authenticators)
    (r : Authenticators × List Event × Bool) : Prop where
  respects : Respects (Allowed config) log r.2.1
  others : ∀ j, j < i ∨ i + auths.length ≤ j → Silent j r.2.1
  tracked : AllTracked (log ++ r.2.1) i r.1
  modules : r.1.map Prod.fst = auths.map Prod.fst
  passes : r.2.2 = true → ∀ j < i + auths.length, .passed j ∈ log ++ r.2.1

/-- The loop goes on behind an authenticator that has passed. -/
theorem VisitedAll.cons {config : List Module} {rest : Authenticators} {s' : State}
    {r : Authenticators × List Event × Bool}
    (respects : Respects (Allowed config) log events) (others : ∀ j, j ≠ i → Silent j events)
    (tracked : Tracked (log ++ events) i m s')
    (behind : VisitedAll config (log ++ events) (i + 1) rest r) :
    VisitedAll config log i ((m, s) :: rest) ((m, s') :: r.1, events ++ r.2.1, r.2.2) where
  respects := respects.append behind.respects
  others j outside := by
    rw [List.length_cons] at outside
    exact (others j (by omega)).append (behind.others j (by omega))
  tracked := by
    rw [← List.append_assoc]
    exact AllTracked.cons (tracked.silent (behind.others i (by omega))) behind.tracked
  modules := by simp only [List.map_cons, behind.modules]
  passes finished j inside := by
    rw [← List.append_assoc]
    apply behind.passes finished
    rw [List.length_cons] at inside
    omega

theorem visitAll_visited (config : List Module) (h : Hashes) (o : Outside) (c : Hello)
    (authCaps : AuthCaps) {auths : Authenticators} (tracked : AllTracked log i auths)
    (earlier : ∀ j < i, .passed j ∈ log) (unspent : NoneSpent log c i auths) :
    VisitedAll config log i auths (visitAll h o c authCaps i auths) := by
  induction auths generalizing i log with
  | nil =>
      refine ⟨trivial, ?_, ?_, rfl, ?_⟩
      · intro j _
        constructor <;> simp [visitAll]
      · intro k m s here
        cases here
      · intro _ j inside
        exact List.mem_append_left _ (earlier j inside)
  | cons auth rest ih =>
      obtain ⟨m, s⟩ := auth
      obtain ⟨head, tail⟩ := tracked.uncons
      -- the rest of the loop, once this authenticator has passed
      have goOn : ∀ (events : List Event) (s' : State), Respects (Allowed config) log events →
          (∀ j, j ≠ i → Silent j events) → Tracked (log ++ events) i m s' →
          .passed i ∈ log ++ events →
          VisitedAll config log i ((m, s) :: rest)
            ((m, s') :: (visitAll h o c authCaps (i + 1) rest).1,
              events ++ (visitAll h o c authCaps (i + 1) rest).2.1,
              (visitAll h o c authCaps (i + 1) rest).2.2) := by
        intro events s' respects others here passed
        refine VisitedAll.cons respects others here (ih ?_ ?_ ?_)
        · exact tail.silent fun j behind => others j (by omega)
        · intro j before
          by_cases last : j = i
          · rw [last]
            exact passed
          · exact List.mem_append_left _ (earlier j (by omega))
        · intro k m' s'' there spent
          have place : i + 1 + k = i + (k + 1) := by omega
          have older := spent.silent (others (i + 1 + k) (by omega))
          rw [place] at older
          exact unspent (k + 1) m' s'' there older
      rw [visitAll]
      cases flag : s.passed with
      | true =>
          have silent : ∀ j, Silent j [] := by
            intro j
            constructor <;> simp
          have member : .passed i ∈ log ++ [] := by
            rw [List.append_nil]
            exact head.passed flag
          rw [if_pos rfl]
          exact goOn [] s trivial (fun j _ => silent j) (head.silent (silent i)) member
      | false =>
          have here := visit_visited config h (o.answers i) c authCaps head flag earlier
            (unspent 0 m s rfl)
          rw [if_neg (by simp)]
          generalize visit h (o.answers i) c authCaps i m s = r at here ⊢
          obtain ⟨s', events, passes⟩ := r
          cases passes with
          | true => exact goOn events s' here.respects here.others here.tracked (here.passes rfl)
          | false =>
              refine ⟨here.respects, fun j outside => here.others j (by rw [List.length_cons] at outside; omega), ?_, rfl,
                by simp⟩
              exact AllTracked.cons here.tracked
                (tail.silent fun j behind => here.others j (by omega))

/-! ### Runs -/

/-- Everything in the log was allowed, and it tells the truth of every authenticator. -/
structure Sound (config : List Module) (s : Connection) : Prop where
  respects : Respects (Allowed config) [] s.log
  tracked : AllTracked s.log 0 s.authenticators
  modules : s.authenticators = [] ∨ s.authenticators.map Prod.fst = config
  /-- before there are authenticators, nothing happens that concerns one -/
  unstarted : s.authenticators = [] → ∀ i, Silent i s.log

/-- The connection is there and the encryption settings are accepted: the loop is reached. -/
def Reaches (o : Outside) : Prop :=
  o.connected = true ∧ ∃ authCaps, o.setupEncryption = .ok (some authCaps)

/-- The hello finds no authenticator that would take a second response. -/
def Clean (s : Connection) (a : Hello × Outside) : Prop :=
  Reaches a.2 → NoneSpent s.log a.1 0 s.authenticators

theorem concludeAuth_silent (o : Outside) (c : Hello) (authCaps : AuthCaps) (j : Nat) :
    Silent j (concludeAuth o c authCaps) := by
  unfold concludeAuth sendFakeChallenge
  split
  · split <;> constructor <;> simp
  · constructor <;> simp

theorem concludeAuth_respects {config : List Module} (o : Outside) (c : Hello)
    (authCaps : AuthCaps) (all : ∀ j < config.length, .passed j ∈ log) :
    Respects (Allowed config) log (concludeAuth o c authCaps) := by
  unfold concludeAuth sendFakeChallenge
  split
  · split <;> exact ⟨trivial, trivial⟩
  · exact ⟨all, trivial⟩

theorem processAuth_sound {config : List Module} (h : Hashes) (o : Outside) (c : Hello)
    {auths : Authenticators} (respects : Respects (Allowed config) [] log)
    (tracked : AllTracked log 0 auths) (modules : auths.map Prod.fst = config)
    (unspent : (∃ authCaps, o.setupEncryption = .ok (some authCaps)) → NoneSpent log c 0 auths)
    (unstarted : auths = [] → ∀ i, Silent i log) :
    Sound config ⟨(processAuth h o c auths).1, log ++ (processAuth h o c auths).2⟩ := by
  have count : auths.length = config.length := by
    rw [← modules, List.length_map]
  unfold processAuth
  cases settings : o.setupEncryption with
  | error e =>
      have silent : ∀ j, Silent j [.raised e] := by
        intro j
        constructor <;> simp
      exact ⟨respects.append ⟨trivial, trivial⟩, tracked.silent fun j _ => silent j, .inr modules,
        fun empty j => (unstarted empty j).append (silent j)⟩
  | ok caps =>
      cases caps with
      | none =>
          dsimp only
          rw [List.append_nil]
          exact ⟨respects, tracked, .inr modules, unstarted⟩
      | some authCaps =>
          have visited := visitAll_visited config h o c authCaps tracked (by simp)
            (unspent ⟨authCaps, settings⟩)
          dsimp only
          generalize visitAll h o c authCaps 0 auths = r at visited ⊢
          obtain ⟨auths', events, finished⟩ := r
          have started : auths' = [] → ∀ j, Silent j (log ++ events) := by
            intro empty j
            have nothing : auths = [] := by
              have same := visited.modules
              rw [empty] at same
              exact List.map_eq_nil_iff.mp same.symm
            refine (unstarted nothing j).append (visited.others j (.inr ?_))
            rw [nothing]
            exact Nat.zero_le j
          have here : Respects (Allowed config) [] (log ++ events) :=
            respects.append visited.respects
          cases finished with
          | false => exact ⟨here, visited.tracked, .inr (visited.modules.trans modules), started⟩
          | true =>
              have conclusion := concludeAuth_silent o c authCaps
              have passed : ∀ j < config.length, .passed j ∈ log ++ events := by
                intro j inside
                apply visited.passes rfl
                omega
              dsimp only
              rw [← List.append_assoc]
              refine ⟨here.append (concludeAuth_respects o c authCaps passed),
                visited.tracked.silent fun j _ => conclusion j,
                .inr (visited.modules.trans modules), ?_⟩
              intro empty j
              exact (started empty j).append (conclusion j)

theorem makeAuthenticators_tracked {config : List Module} (silent : ∀ i, Silent i log) :
    AllTracked log 0 (makeAuthenticators config) := by
  intro k m s here
  simp only [makeAuthenticators, List.getElem?_map, Option.map_eq_some_iff, Prod.mk.injEq] at here
  obtain ⟨_, _, rfl, rfl⟩ := here
  constructor
  · intro flag
    cases flag
  · intro member
    exact absurd member (silent _).1
  · intro salt member
    exact absurd member ((silent _).2 salt)

theorem makeAuthenticators_unspent {config : List Module} (c : Hello) :
    NoneSpent log c 0 (makeAuthenticators config) := by
  rintro k m s here ⟨_, sent, _⟩
  simp only [makeAuthenticators, List.getElem?_map, Option.map_eq_some_iff, Prod.mk.injEq] at here
  obtain ⟨_, _, rfl, rfl⟩ := here
  cases sent

/-- One hello packet, whatever it says. -/
theorem hello_sound {config : List Module} (h : Hashes) {s s' : Connection} {a : Hello × Outside}
    (sound : Sound config s) (clean : Clean s a) (step : hello h config s a s') :
    Sound config s' := by
  obtain ⟨auths, log⟩ := s
  obtain ⟨c, o⟩ := a
  unfold hello verifyAuth at step
  by_cases connected : o.connected
  · dsimp only at step
    rw [if_pos connected] at step
    cases auths with
    | nil =>
        have silent := sound.unstarted rfl
        cases construct : o.construct with
        | some e =>
            have failed : ∀ j, Silent j [.failed none e.text] := by
              intro j
              constructor <;> simp
            rw [construct] at step
            rw [step]
            refine ⟨sound.respects.append ⟨trivial, trivial⟩, ?_, .inl rfl,
              fun _ j => (silent j).append (failed j)⟩
            intro k m s here
            cases here
        | none =>
            have modules : (makeAuthenticators config).map Prod.fst = config := by
              rw [makeAuthenticators, List.map_map]
              exact List.map_id config
            rw [construct] at step
            rw [step]
            exact processAuth_sound h o c sound.respects (makeAuthenticators_tracked silent) modules
              (fun _ => makeAuthenticators_unspent c) (fun _ => silent)
    | cons auth auths =>
        have modules := sound.modules.resolve_left (by simp)
        rw [step]
        exact processAuth_sound h o c sound.respects sound.tracked modules
          (fun accepted => clean ⟨connected, accepted⟩) (fun impossible => by cases impossible)
  · dsimp only at step
    rw [if_neg connected] at step
    dsimp only at step
    rw [List.append_nil] at step
    rw [step]
    exact sound

/-- In every run of hello packets none of which finds an authenticator that takes responses again,
the order of events is right: a challenge is sent, and the connection verified, only when all
authenticators in front have passed; an authenticator that passed is not called again; and the
responses to one challenge are checked once. -/
theorem auth_sound (h : Hashes) (config : List Module) {s : Connection}
    (run : Reachable initial (fun s a s' => Clean s a ∧ hello h config s a s') s) :
    Respects (Allowed config) [] s.log := by
  have sound : Sound config s := by
    refine run.invariant ?_ ?_
    · rintro _ rfl
      refine ⟨trivial, ?_, .inl rfl, ?_⟩
      · intro k m s here
        cases here
      · intro _ i
        constructor <;> simp
    · intro s a s' sound step
      exact hello_sound h sound step.1 step.2
  exact sound.respects

/-- Digests that are easy to compute. -/
def plainHashes : Hashes := ⟨fun _ password salt => some (password ++ salt), fun _ _ => .ok []⟩

/-- A hello packet with a response, or without one. -/
def helloWith (challengeResponse : Bytes) : Hello where
  digest := ["hmac+sha512"]
  saltDigest := ["hmac+sha512"]
  challengeResponse := challengeResponse
  challengeClientSalt := [1]

/-- An open connection without encryption. The salt is one byte, and so is the password. -/
def openConnection (accepts : Bool) : Outside where
  connected := true
  construct := none
  setupEncryption := .ok (some [])
  answers _ := ⟨[2], .ok true, fun _ => .ok accepts, [[3]], fun _ => .ok accepts, fun _ => false⟩
  fakeSalt := [4]

/-- A password, checked with `authenticate_hmac`. -/
def passwordModule : Module := baseModule "password" "password" .hmac

/-- The response to a challenge is right. -/
theorem auth_sound_password :
    Respects (Allowed [passwordModule]) []
      [.challenge 0 [2] [] "hmac+sha512" "hmac+sha512" "password", .evaluated 0,
        .guess 0 (some [2]), .passed 0, .verified []] := by
  have first : Reachable initial
      (fun s a s' => Clean s a ∧ hello plainHashes [passwordModule] s a s')
      ⟨[(passwordModule, ⟨some [2], some "hmac+sha512", some "hmac+sha512", true, false⟩)],
        [.challenge 0 [2] [] "hmac+sha512" "hmac+sha512" "password"]⟩ := by
    refine .next (.start rfl) (a := (helloWith [], openConnection true)) ⟨?_, rfl⟩
    intro _ k m s here
    cases here
  refine auth_sound plainHashes [passwordModule] (.next first
    (a := (helloWith [3, 1, 2], openConnection true)) ⟨?_, rfl⟩)
  rintro _ k m s here ⟨_, _, _, again⟩
  cases k with
  | zero =>
      cases here
      exact again
  | succ k => cases here

/-- A module that asks something else whether a password is right (`pam`). -/
def checkedModule : Module := baseModule "pam" "password" .default

/-- After a wrong response the salt is gone, and the next response is checked all the same. -/
theorem not_auth_sound :
    ¬ ∀ (h : Hashes) (config : List Module) (s : Connection),
      Reachable initial (hello h config) s → Respects (Allowed config) [] s.log := by
  intro sound
  have first : Reachable initial (hello plainHashes [checkedModule])
      ⟨[(checkedModule, ⟨some [2], some "hmac+sha512", some "hmac+sha512", true, false⟩)],
        [.challenge 0 [2] [] "hmac+sha512" "hmac+sha512" "password"]⟩ :=
    .next (.start rfl) (a := (helloWith [], openConnection false)) rfl
  have second := Reachable.next first (a := (helloWith [9], openConnection false)) rfl
  have third := Reachable.next second (a := (helloWith [9], openConnection false)) rfl
  have respects := sound plainHashes [checkedModule] _ third
  have guessedBefore := respects.allows
    [.challenge 0 [2] [] "hmac+sha512" "hmac+sha512" "password", .evaluated 0,
      .guess 0 (some [2]), .failed (some 0) "authentication failed", .evaluated 0]
    (e := .guess 0 none) rfl
  exact guessedBefore (some [2]) (by simp)

end Catlink.Server
