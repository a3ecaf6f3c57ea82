import Catlink.Lib.Runs
import Catlink.Lib.Trace
import Catlink.Util.ChildReaper

/-! What becomes of the processes: what the log tells of each, in every reachable state. -/

namespace Catlink.Children

open Relation Runs Trace

variable {polls : Polls} {s : ChildReaper} {sequence : Nat}

/-- How often the log tells of a process. -/
structure Marks (log : List Event) (sequence exited terminated dropped : Nat) : Prop where
  exited : log.count (.exited sequence) = exited
  terminated : log.count (.terminated sequence) = terminated
  dropped : log.count (.dropped sequence) = dropped

/-- No process of this number is listed as running. -/
def NotAlive (s : ChildReaper) (sequence : Nat) : Prop :=
  ∀ procinfo, Dict.get s.procInfo sequence = some procinfo → procinfo.dead = true

/-- What has become of a process that was added as `first`. -/
inductive Fate (s : ChildReaper) (sequence : Nat) (first : ProcInfo) : Prop
  | unseen (dead : first.dead = true) (marks : Marks s.log sequence 0 0 0) (gone : NotAlive s sequence)
  | alive {procinfo : ProcInfo} (runs : first.dead = false)
      (found : Dict.get s.procInfo sequence = some procinfo) (listed : procinfo.dead = false)
      (process : procinfo.process = true) (callback : procinfo.callback = first.callback)
      (marks : Marks s.log sequence 0 0 0)
  | terminated (runs : first.dead = false)
      (marks : Marks s.log sequence (if first.callback then 1 else 0) 1 0) (gone : NotAlive s sequence)
  | dropped (runs : first.dead = false) (marks : Marks s.log sequence 0 0 1) (gone : NotAlive s sequence)

/-- A watched process that has not been seen to end. -/
def Running (log : List Event) (sequence : Nat) : Prop :=
  ∃ first, .added sequence first ∈ log ∧ first.ignore = false ∧ first.dead = false ∧
    .terminated sequence ∉ log ∧ .dropped sequence ∉ log

/-- A callback is scheduled where `poll()` has just returned a code, and the quit callback is called
where a process was watched and none is running. -/
def Tells (polls : Polls) (past : List Event) : Event → Prop
  | .exited sequence => ∃ t, past.getLast? = some (.polled sequence t) ∧ polls t sequence ≠ none
  | .quit => (∀ sequence, ¬ Running past sequence) ∧
      ∃ sequence first, .added sequence first ∈ past ∧ first.ignore = false
  | _ => True

structure Sound (polls : Polls) (s : ChildReaper) : Prop where
  distinct : (s.procInfo.map Prod.fst).Nodup
  numbered : ∀ sequence first, .added sequence first ∈ s.log → sequence ≤ s.sequence
  once : ∀ sequence first first', .added sequence first ∈ s.log → .added sequence first' ∈ s.log →
    first = first'
  fates : ∀ sequence first, .added sequence first ∈ s.log → Fate s sequence first
  stranger : ∀ sequence, (∀ first, .added sequence first ∉ s.log) →
    Marks s.log sequence 0 0 0 ∧ Dict.get s.procInfo sequence = none
  ignored : ∀ sequence procinfo first, Dict.get s.procInfo sequence = some procinfo →
    .added sequence first ∈ s.log → procinfo.ignore = first.ignore
  tells : Respects (Tells polls) [] s.log
  asked : s.log.count .quit + (if s.quit then 1 else 0) ≤ s.log.count .quitSet

/-! ### Other processes -/

theorem Marks.append {log more : List Event} {a b c a' b' c' : Nat} (marks : Marks log sequence a b c)
    (added : Marks more sequence a' b' c') : Marks (log ++ more) sequence (a + a') (b + b') (c + c') where
  exited := by rw [List.count_append, marks.exited, added.exited]
  terminated := by rw [List.count_append, marks.terminated, added.terminated]
  dropped := by rw [List.count_append, marks.dropped, added.dropped]

theorem Fate.marks {first : ProcInfo} (fate : Fate s sequence first) :
    ∃ a b c, Marks s.log sequence a b c ∧ a ≤ 1 := by
  cases fate with
  | unseen _ marks _ => exact ⟨0, 0, 0, marks, Nat.zero_le 1⟩
  | alive _ _ _ _ _ marks => exact ⟨0, 0, 0, marks, Nat.zero_le 1⟩
  | terminated _ marks _ =>
      refine ⟨_, 1, 0, marks, ?_⟩
      split
      · exact le_refl 1
      · exact Nat.zero_le 1
  | dropped _ marks _ => exact ⟨0, 0, 1, marks, Nat.zero_le 1⟩

/-- Nothing is told of the process, and its entry stays. -/
theorem Fate.frame {s' : ChildReaper} {first : ProcInfo} {more : List Event}
    (fate : Fate s sequence first) (log : s'.log = s.log ++ more) (quiet : Marks more sequence 0 0 0)
    (same : Dict.get s'.procInfo sequence = Dict.get s.procInfo sequence) : Fate s' sequence first := by
  have kept {a b c : Nat} (marks : Marks s.log sequence a b c) : Marks s'.log sequence a b c := by
    rw [log]
    exact marks.append quiet
  have still (gone : NotAlive s sequence) : NotAlive s' sequence := by
    unfold NotAlive
    rw [same]
    exact gone
  cases fate with
  | unseen dead marks gone => exact .unseen dead (kept marks) (still gone)
  | alive runs found listed process callback marks =>
      exact .alive runs (same.trans found) listed process callback (kept marks)
  | terminated runs marks gone => exact .terminated runs (kept marks) (still gone)
  | dropped runs marks gone => exact .dropped runs (kept marks) (still gone)

theorem Sound.listed (sound : Sound polls s) {procinfo : ProcInfo}
    (found : Dict.get s.procInfo sequence = some procinfo) : ∃ first, .added sequence first ∈ s.log := by
  by_contra unknown
  rw [not_exists] at unknown
  have absent := (sound.stranger sequence unknown).2
  rw [found] at absent
  cases absent

/-- A running process that is listed is still to be reported. -/
theorem Sound.waits (sound : Sound polls s) {procinfo : ProcInfo}
    (found : Dict.get s.procInfo sequence = some procinfo) (runs : procinfo.dead = false) :
    ∃ first, .added sequence first ∈ s.log ∧ first.dead = false ∧ first.callback = procinfo.callback ∧
      procinfo.process = true ∧ Marks s.log sequence 0 0 0 := by
  obtain ⟨first, added⟩ := sound.listed found
  have alive (gone : NotAlive s sequence) : False := by
    have dead := gone procinfo found
    rw [runs] at dead
    cases dead
  cases sound.fates sequence first added with
  | unseen _ _ gone => exact (alive gone).elim
  | @alive procinfo' dead found' _ process callback marks =>
      rw [found] at found'
      cases found'
      exact ⟨first, added, dead, callback.symm, process, marks⟩
  | terminated _ _ gone => exact (alive gone).elim
  | dropped _ _ gone => exact (alive gone).elim

theorem respects_quiet {past events : List Event} (quiet : .quit ∉ events)
    (silent : ∀ sequence, .exited sequence ∉ events) : Respects (Tells polls) past events := by
  induction events generalizing past with
  | nil => trivial
  | cons e events ih =>
      simp only [List.mem_cons, not_or] at quiet silent
      refine ⟨?_, ih quiet.2 fun sequence => (silent sequence).2⟩
      cases e with
      | quit => exact absurd rfl quiet.1
      | exited sequence => exact absurd rfl (silent sequence).1
      | _ => trivial

/-! ### One turn -/

/-- What `add_dead_process` logs. -/
def obituary (sequence : Nat) (callback : Bool) : List Event :=
  (if callback then [.exited sequence] else []) ++ [.terminated sequence]

theorem bury_log (s : ChildReaper) (sequence : Nat) (procinfo : ProcInfo) (code : Int) :
    (s.bury sequence procinfo code).log = s.log ++ obituary sequence procinfo.callback := by
  unfold ChildReaper.bury obituary
  rw [List.append_assoc]

theorem obituary_marks (sequence : Nat) (callback : Bool) :
    Marks (obituary sequence callback) sequence (if callback then 1 else 0) 1 0 := by
  cases callback with
  | false => constructor <;> simp [obituary]
  | true => constructor <;> simp [obituary]

theorem obituary_others {other : Nat} (apart : sequence ≠ other) (callback : Bool) :
    Marks (obituary sequence callback) other 0 0 0 := by
  cases callback with
  | false => constructor <;> simp [obituary, apart]
  | true => constructor <;> simp [obituary, apart]

theorem obituary_added {other : Nat} {first : ProcInfo} {callback : Bool} :
    Event.added other first ∉ obituary sequence callback := by
  cases callback with
  | false => simp [obituary]
  | true => simp [obituary]

theorem obituary_tells {past : List Event} (callback : Bool)
    (exited : ∃ t, past.getLast? = some (.polled sequence t) ∧ polls t sequence ≠ none) :
    Respects (Tells polls) past (obituary sequence callback) := by
  cases callback with
  | false => exact ⟨trivial, trivial⟩
  | true => exact ⟨exited, trivial, trivial⟩

theorem bury_get {procinfo : ProcInfo} {code : Int} {other : Nat} (apart : sequence ≠ other) :
    Dict.get (s.bury sequence procinfo code).procInfo other = Dict.get s.procInfo other := by
  unfold ChildReaper.bury
  dsimp only
  split
  · rw [Dict.get_erase, if_neg apart]
  · rw [Dict.get_set, if_neg apart]

theorem bury_notAlive (s : ChildReaper) (sequence : Nat) (procinfo : ProcInfo) (code : Int) :
    NotAlive (s.bury sequence procinfo code) sequence := by
  intro found here
  unfold ChildReaper.bury at here
  dsimp only at here
  split at here
  · rw [Dict.get_erase, if_pos rfl] at here
    cases here
  · rw [Dict.get_set, if_pos rfl] at here
    cases here
    rfl

theorem bury_distinct (distinct : (s.procInfo.map Prod.fst).Nodup) (procinfo : ProcInfo) (code : Int) :
    ((s.bury sequence procinfo code).procInfo.map Prod.fst).Nodup := by
  unfold ChildReaper.bury
  dsimp only
  split
  · exact Dict.erase_distinct distinct sequence
  · exact Dict.set_distinct distinct sequence _

theorem bury_ignored {procinfo : ProcInfo} {code : Int} {other : Nat} {entry : ProcInfo}
    (found : Dict.get s.procInfo sequence = some procinfo)
    (here : Dict.get (s.bury sequence procinfo code).procInfo other = some entry) :
    ∃ before, Dict.get s.procInfo other = some before ∧ before.ignore = entry.ignore := by
  by_cases same : sequence = other
  · subst same
    unfold ChildReaper.bury at here
    dsimp only at here
    split at here
    · rw [Dict.get_erase, if_pos rfl] at here
      cases here
    · rw [Dict.get_set, if_pos rfl] at here
      cases here
      exact ⟨procinfo, found, rfl⟩
  · rw [bury_get same] at here
    exact ⟨entry, here, rfl⟩

theorem Sound.bury (sound : Sound polls s) {procinfo : ProcInfo} {code : Int}
    (found : Dict.get s.procInfo sequence = some procinfo) (runs : procinfo.dead = false)
    (exited : ∃ t, s.log.getLast? = some (.polled sequence t) ∧ polls t sequence = some code) :
    Sound polls (s.bury sequence procinfo code) := by
  have log := bury_log s sequence procinfo code
  have old {other : Nat} {first : ProcInfo}
      (added : .added other first ∈ (s.bury sequence procinfo code).log) : .added other first ∈ s.log := by
    rw [log, List.mem_append] at added
    exact added.resolve_right obituary_added
  constructor
  · exact bury_distinct sound.distinct procinfo code
  · exact fun other first added => sound.numbered other first (old added)
  · exact fun other first first' added added' => sound.once other first first' (old added) (old added')
  · intro other first added
    by_cases same : sequence = other
    · subst same
      obtain ⟨first', there, dead, callback, -, marks⟩ := sound.waits found runs
      rw [sound.once sequence first first' (old added) there]
      refine .terminated dead ?_ (bury_notAlive s sequence procinfo code)
      rw [log, callback]
      have both := marks.append (obituary_marks sequence procinfo.callback)
      simpa using both
    · exact (sound.fates other first (old added)).frame log (obituary_others same _) (bury_get same)
  · intro other unknown
    have unknown' (first : ProcInfo) : .added other first ∉ s.log := by
      intro added
      refine unknown first ?_
      rw [log]
      exact List.mem_append_left _ added
    obtain ⟨marks, absent⟩ := sound.stranger other unknown'
    have apart : sequence ≠ other := by
      rintro rfl
      rw [found] at absent
      cases absent
    rw [log, bury_get apart]
    exact ⟨marks.append (obituary_others apart _), absent⟩
  · intro other entry first here added
    obtain ⟨before, there, same⟩ := bury_ignored found here
    rw [← same]
    exact sound.ignored other before first there (old added)
  · obtain ⟨t, last, code⟩ := exited
    rw [log]
    refine sound.tells.append (obituary_tells procinfo.callback ⟨t, last, ?_⟩)
    rw [code]
    exact Option.some_ne_none _
  · have asked := sound.asked
    rw [log, List.count_append, List.count_append]
    have quiet : (obituary sequence procinfo.callback).count .quit = 0 := by
      cases procinfo.callback <;> simp [obituary]
    have silent : 0 ≤ (obituary sequence procinfo.callback).count .quitSet := Nat.zero_le _
    have kept : (s.bury sequence procinfo code).quit = s.quit := rfl
    rw [quiet, kept]
    omega

theorem Sound.running (sound : Sound polls s) {procinfo : ProcInfo}
    (found : Dict.get s.procInfo sequence = some procinfo) (runs : procinfo.dead = false) :
    Sound polls (s.setProcInfo sequence { procinfo with returncode := none, dead := false }) := by
  have get (other : Nat) :
      Dict.get (s.setProcInfo sequence { procinfo with returncode := none, dead := false }).procInfo other =
        if sequence = other then some { procinfo with returncode := none, dead := false }
        else Dict.get s.procInfo other := Dict.get_set _ _ _ _
  have quiet (other : Nat) : Marks [] other 0 0 0 := by constructor <;> rfl
  refine ⟨Dict.set_distinct sound.distinct sequence _, sound.numbered, sound.once, ?_, ?_, ?_,
    sound.tells, sound.asked⟩
  · intro other first added
    by_cases same : sequence = other
    · subst same
      obtain ⟨first', there, dead, callback, process, marks⟩ := sound.waits found runs
      rw [sound.once sequence first first' added there]
      have here := get sequence
      rw [if_pos rfl] at here
      exact .alive dead here rfl process callback.symm marks
    · refine (sound.fates other first added).frame (List.append_nil _).symm (quiet other) ?_
      rw [get, if_neg same]
  · intro other unknown
    obtain ⟨marks, absent⟩ := sound.stranger other unknown
    refine ⟨marks, ?_⟩
    rw [get]
    split
    · next same =>
        rw [← same, found] at absent
        cases absent
    · exact absent
  · intro other entry first here added
    rw [get] at here
    split at here
    · next same =>
        subst same
        cases here
        exact sound.ignored sequence procinfo first found added
    · exact sound.ignored other entry first here added

/-- Where everybody is dead, nobody is running. -/
theorem Sound.mayQuit (sound : Sound polls s) (due : s.allDead = true) : Tells polls s.log .quit := by
  unfold ChildReaper.allDead at due
  rw [Bool.and_eq_true, List.isEmpty_iff, Bool.not_eq_true', List.isEmpty_eq_false_iff_exists_mem] at due
  obtain ⟨⟨entry, watched⟩, none⟩ := due
  constructor
  · rintro other ⟨first, added, unignored, dead, unterminated, undropped⟩
    cases sound.fates other first added with
    | unseen dead' _ _ =>
        rw [dead] at dead'
        cases dead'
    | @alive procinfo _ found listed _ _ _ =>
        have ignored := sound.ignored other procinfo first found added
        have member : (other, procinfo) ∈ s.alive := by
          unfold ChildReaper.alive ChildReaper.watched
          rw [List.mem_filter, List.mem_filter]
          refine ⟨⟨Dict.get_mem found, ?_⟩, ?_⟩
          · rw [ignored, unignored]
            rfl
          · rw [listed]
            rfl
        rw [none] at member
        cases member
    | terminated _ marks _ =>
        have told := marks.terminated
        rw [List.count_eq_zero.mpr unterminated] at told
        cases told
    | dropped _ marks _ =>
        have told := marks.dropped
        rw [List.count_eq_zero.mpr undropped] at told
        cases told
  · unfold ChildReaper.watched at watched
    rw [List.mem_filter] at watched
    have found := Dict.mem_get sound.distinct watched.1
    obtain ⟨first, added⟩ := sound.listed found
    refine ⟨entry.1, first, added, ?_⟩
    rw [← sound.ignored entry.1 entry.2 first found added]
    simpa using watched.2

/-- Nothing but the log has changed, by events that tell of no process. -/
theorem Sound.says (sound : Sound polls s) {s' : ChildReaper} {more : List Event}
    (procInfo : s'.procInfo = s.procInfo) (sequence : s'.sequence = s.sequence)
    (log : s'.log = s.log ++ more) (quiet : ∀ other, Marks more other 0 0 0)
    (unadded : ∀ other first, .added other first ∉ more) (tells : Respects (Tells polls) s.log more)
    (asked : s'.log.count .quit + (if s'.quit then 1 else 0) ≤ s'.log.count .quitSet) :
    Sound polls s' := by
  have old {other : Nat} {first : ProcInfo} (added : .added other first ∈ s'.log) :
      .added other first ∈ s.log := by
    rw [log, List.mem_append] at added
    exact added.resolve_right (unadded other first)
  constructor
  · rw [procInfo]
    exact sound.distinct
  · intro other first added
    rw [sequence]
    exact sound.numbered other first (old added)
  · exact fun other first first' added added' => sound.once other first first' (old added) (old added')
  · intro other first added
    refine (sound.fates other first (old added)).frame log (quiet other) ?_
    rw [procInfo]
  · intro other unknown
    obtain ⟨marks, absent⟩ := sound.stranger other fun first added => unknown first (by
      rw [log]
      exact List.mem_append_left _ added)
    rw [log, procInfo]
    exact ⟨marks.append (quiet other), absent⟩
  · intro other entry first found added
    rw [procInfo] at found
    exact sound.ignored other entry first found (old added)
  · rw [log]
    exact sound.tells.append tells
  · exact asked

/-- A process is polled. -/
theorem Sound.tick (sound : Sound polls s) (sequence : Nat) : Sound polls (s.tick sequence) := by
  refine sound.says rfl rfl rfl (fun other => by constructor <;> rfl) (by simp) ⟨trivial, trivial⟩ ?_
  unfold ChildReaper.tick
  rw [List.count_append, List.count_append]
  exact sound.asked

theorem Sound.turn (sound : Sound polls s) {s' : ChildReaper} (turn : Turn polls s s') : Sound polls s' := by
  cases turn with
  | tick => exact sound.tick _
  | running found runs => exact sound.running found runs
  | bury found runs exited => exact sound.bury found runs exited
  | quit due set =>
      refine sound.says rfl rfl rfl (fun other => by constructor <;> rfl) (by simp)
        ⟨sound.mayQuit due, trivial⟩ ?_
      have asked := sound.asked
      rw [set, if_pos rfl] at asked
      simpa using asked

theorem Sound.turns (sound : Sound polls s) {s' : ChildReaper} (turns : Turns polls s s') :
    Sound polls s' := by
  induction turns with
  | refl => exact sound
  | tail _ turn ih => exact ih.turn turn

/-! ### Steps -/

theorem Sound.start (starts : Starts s) : Sound polls s := by
  obtain ⟨empty, log⟩ := starts
  have unknown {other : Nat} {first : ProcInfo} (added : .added other first ∈ s.log) : False := by
    rw [log] at added
    split at added
    · simp at added
    · cases added
  constructor
  · rw [empty]
    exact List.nodup_nil
  · exact fun _ _ added => (unknown added).elim
  · exact fun _ _ _ added => (unknown added).elim
  · exact fun _ _ added => (unknown added).elim
  · intro other _
    rw [log, empty]
    refine ⟨?_, rfl⟩
    split
    · constructor <;> rfl
    · constructor <;> rfl
  · intro other procinfo first found
    rw [empty] at found
    cases found
  · rw [log]
    split
    · exact ⟨trivial, trivial⟩
    · trivial
  · rw [log]
    cases s.quit with
    | false => decide
    | true => decide

/-- A process is added. -/
theorem Sound.append (sound : Sound polls s) {procinfo : ProcInfo} (process : procinfo.process = true) :
    Sound polls (s.append procinfo) := by
  have quiet (other : Nat) : Marks [Event.polled (s.sequence + 1) s.clock, .added (s.sequence + 1) procinfo]
      other 0 0 0 := by constructor <;> rfl
  have fresh (first : ProcInfo) : .added (s.sequence + 1) first ∉ s.log := by
    intro added
    have small := sound.numbered _ first added
    omega
  obtain ⟨marks, absent⟩ := sound.stranger _ fresh
  have entries : (s.append procinfo).procInfo = s.procInfo ++ [(s.sequence + 1, procinfo)] := rfl
  have log : (s.append procinfo).log =
      s.log ++ [.polled (s.sequence + 1) s.clock, .added (s.sequence + 1) procinfo] := rfl
  have get (other : Nat) : Dict.get (s.append procinfo).procInfo other =
      if s.sequence + 1 = other then some procinfo else Dict.get s.procInfo other := by
    rw [entries, Dict.get_append]
    split
    · next same =>
        rw [← same, absent, Option.none_or]
    · exact Option.or_none
  have cases {other : Nat} {first : ProcInfo}
      (added : .added other first ∈ (s.append procinfo).log) :
      (.added other first ∈ s.log ∧ s.sequence + 1 ≠ other) ∨
        (other = s.sequence + 1 ∧ first = procinfo) := by
    rw [log, List.mem_append, List.mem_pair] at added
    rcases added with old | told | new
    · refine .inl ⟨old, ?_⟩
      rintro rfl
      exact fresh first old
    · cases told
    · cases new
      exact .inr ⟨rfl, rfl⟩
  constructor
  · rw [entries, List.map_append, List.nodup_append]
    refine ⟨sound.distinct, List.nodup_singleton _, ?_⟩
    intro key old key' new same
    rw [List.map_singleton, List.mem_singleton] at new
    obtain ⟨entry, member, rfl⟩ := List.mem_map.mp old
    have found := Dict.mem_get sound.distinct member
    dsimp only at new
    rw [same, new, absent] at found
    cases found
  · intro other first added
    rcases cases added with ⟨old, -⟩ | ⟨rfl, -⟩
    · exact Nat.le_succ_of_le (sound.numbered other first old)
    · exact le_refl _
  · intro other first first' added added'
    rcases cases added with ⟨old, apart⟩ | ⟨rfl, rfl⟩
    · rcases cases added' with ⟨old', -⟩ | ⟨same, -⟩
      · exact sound.once other first first' old old'
      · exact absurd same.symm apart
    · rcases cases added' with ⟨-, apart⟩ | ⟨-, same⟩
      · exact absurd rfl apart
      · exact same.symm
  · intro other first added
    rcases cases added with ⟨old, apart⟩ | ⟨rfl, rfl⟩
    · refine (sound.fates other first old).frame rfl (quiet other) ?_
      rw [get, if_neg apart]
    · have told := marks.append (quiet (s.sequence + 1))
      have found := get (s.sequence + 1)
      rw [if_pos rfl] at found
      cases dead : first.dead with
      | true =>
          refine .unseen dead told ?_
          intro entry here
          rw [found] at here
          cases here
          exact dead
      | false => exact .alive dead found dead process rfl told
  · intro other unknown
    obtain ⟨marks', absent'⟩ := sound.stranger other fun first added =>
      unknown first (List.mem_append_left _ added)
    refine ⟨marks'.append (quiet other), ?_⟩
    rw [get, if_neg, absent']
    rintro rfl
    exact unknown procinfo (List.mem_append_right _ (List.mem_pair.mpr (.inr rfl)))
  · intro other entry first here added
    rw [get] at here
    rcases cases added with ⟨old, apart⟩ | ⟨rfl, rfl⟩
    · rw [if_neg apart] at here
      exact sound.ignored other entry first here old
    · rw [if_pos rfl] at here
      cases here
      rfl
  · exact sound.tells.append ⟨trivial, trivial, trivial⟩
  · rw [log, List.count_append, List.count_append]
    have none : [Event.polled (s.sequence + 1) s.clock, .added (s.sequence + 1) procinfo].count .quit = 0 :=
      rfl
    have silent : [Event.polled (s.sequence + 1) s.clock, .added (s.sequence + 1) procinfo].count .quitSet =
      0 := rfl
    rw [none, silent]
    exact sound.asked

theorem Sound.setQuitCallback (sound : Sound polls s) : Sound polls (setQuitCallback s) := by
  refine sound.says rfl rfl rfl (fun other => by constructor <;> rfl) (by simp) ⟨trivial, trivial⟩ ?_
  have asked := sound.asked
  unfold Children.setQuitCallback
  simp only [List.count_append, if_true]
  have one : [Event.quitSet].count .quitSet = 1 := rfl
  have none : [Event.quitSet].count .quit = 0 := rfl
  omega

/-- The processes that still run are the ones that are dropped. -/
theorem dropped_marks (distinct : (s.procInfo.map Prod.fst).Nodup) (sequence : Nat) :
    (NotAlive s sequence → Marks ((s.procInfo.filter fun entry => !entry.2.dead).map
      fun entry => .dropped entry.1) sequence 0 0 0) ∧
    ∀ procinfo, Dict.get s.procInfo sequence = some procinfo → procinfo.dead = false →
      Marks ((s.procInfo.filter fun entry => !entry.2.dead).map
        fun entry => .dropped entry.1) sequence 0 0 1 := by
  have runs : ((s.procInfo.filter fun entry => !entry.2.dead).map Prod.fst).Nodup :=
    (List.filter_sublist.map Prod.fst).nodup distinct
  have other {e : Event} (apart : ∀ key, Event.dropped key ≠ e) :
      ((s.procInfo.filter fun entry => !entry.2.dead).map fun entry => .dropped entry.1).count e = 0 := by
    rw [List.count_eq_zero]
    intro member
    obtain ⟨entry, -, same⟩ := List.mem_map.mp member
    exact apart entry.1 same
  have counted : ((s.procInfo.filter fun entry => !entry.2.dead).map
      fun entry => Event.dropped entry.1).count (.dropped sequence) =
        ((s.procInfo.filter fun entry => !entry.2.dead).map Prod.fst).count sequence := by
    have composed : (s.procInfo.filter fun entry => !entry.2.dead).map
        (fun entry => Event.dropped entry.1) =
          ((s.procInfo.filter fun entry => !entry.2.dead).map Prod.fst).map Event.dropped := by
      rw [List.map_map]
      rfl
    rw [composed, List.count_map_of_injective _ _ fun _ _ same => Event.dropped.inj same]
  constructor
  · intro gone
    refine ⟨other fun _ => nofun, other fun _ => nofun, ?_⟩
    rw [counted, List.count_eq_zero]
    intro member
    obtain ⟨entry, here, rfl⟩ := List.mem_map.mp member
    rw [List.mem_filter] at here
    have dead := gone entry.2 (Dict.mem_get distinct here.1)
    rw [dead] at here
    exact absurd here.2 (by decide)
  · intro procinfo found listed
    refine ⟨other fun _ => nofun, other fun _ => nofun, ?_⟩
    rw [counted]
    refine List.count_eq_one_of_mem runs (List.mem_map.mpr ⟨(sequence, procinfo), ?_, rfl⟩)
    rw [List.mem_filter]
    refine ⟨Dict.get_mem found, ?_⟩
    rw [listed]
    rfl

theorem Sound.dropAll (sound : Sound polls s) : Sound polls (dropAll s) := by
  have old {other : Nat} {first : ProcInfo} (added : .added other first ∈ (Children.dropAll s).log) :
      .added other first ∈ s.log := by
    unfold Children.dropAll at added
    simpa using added
  have gone (other : Nat) : NotAlive (Children.dropAll s) other := by
    intro entry found
    cases found
  constructor
  · exact List.nodup_nil
  · exact fun other first added => sound.numbered other first (old added)
  · exact fun other first first' added added' => sound.once other first first' (old added) (old added')
  · intro other first added
    obtain ⟨quiet, alive⟩ := dropped_marks sound.distinct other
    cases sound.fates other first (old added) with
    | unseen dead marks still => exact .unseen dead (marks.append (quiet still)) (gone other)
    | alive runs found listed process callback marks =>
        exact .dropped runs (marks.append (alive _ found listed)) (gone other)
    | terminated runs marks still => exact .terminated runs (marks.append (quiet still)) (gone other)
    | dropped runs marks still => exact .dropped runs (marks.append (quiet still)) (gone other)
  · intro other unknown
    obtain ⟨marks, absent⟩ := sound.stranger other fun first added =>
      unknown first (List.mem_append_left _ added)
    have still : NotAlive s other := by
      intro entry found
      rw [absent] at found
      cases found
    exact ⟨marks.append ((dropped_marks sound.distinct other).1 still), rfl⟩
  · intro other entry first found
    cases found
  · exact sound.tells.append (respects_quiet (by simp) (by simp))
  · have asked := sound.asked
    unfold Children.dropAll
    simp only [List.count_append]
    have none : ((s.procInfo.filter fun entry => !entry.2.dead).map
        fun entry => Event.dropped entry.1).count .quit = 0 := by
      rw [List.count_eq_zero]
      simp
    rw [none, if_neg Bool.false_ne_true]
    omega

/-- The next number is a new one. -/
theorem Sound.fresh (sound : Sound polls s) : Dict.get s.procInfo (s.sequence + 1) = none := by
  refine (sound.stranger _ ?_).2
  intro first added
  have small := sound.numbered _ first added
  omega

theorem Sound.step (sound : Sound polls s) {a : Action} {s' : ChildReaper} (step : Step polls s a s') :
    Sound polls s' := by
  cases step with
  | addProcess done =>
      obtain ⟨procinfo, process, rfl⟩ := addProcess_appends sound.fresh done
      exact sound.append process
  | setQuitCallback => exact sound.setQuitCallback
  | check => exact sound.turns (check_turns s)
  | pollTimer armed =>
      have checked := sound.turns (check_turns s)
      exact checked.says rfl rfl (List.append_nil _).symm (fun other => by constructor <;> rfl) (by simp)
        trivial checked.asked
  | poll => exact sound.turns (poll_turns s)
  | sigchld waited => exact sound.turns (reap_turns s waited)
  | cleanup waited => exact ((sound.turns (reap_turns s waited)).turns (poll_turns _)).dropAll

theorem sound_of_reachable (run : Reachable Starts (Step polls) s) : Sound polls s :=
  run.invariant (fun _ starts => .start starts) fun _ _ _ sound step => sound.step step

end Catlink.Children
