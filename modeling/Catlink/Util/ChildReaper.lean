import Catlink.Lib.Dict
import Mathlib.Logic.Relation
import Mathlib.Tactic

/-! The processes that a server has started, and what it does when they exit. -/

namespace Catlink.Children

open Relation

/-- `ProcInfo`, with whether its `callback` and its `process` are set -/
structure ProcInfo where
  pid : Int
  ignore : Bool
  forget : Bool
  dead : Bool
  returncode : Option Int
  callback : Bool
  process : Bool
deriving DecidableEq, Repr

inductive Event
  /-- `process.poll()` -/
  | polled (sequence time : Nat)
  | added (sequence : Nat) (procinfo : ProcInfo)
  /-- `GLib.idle_add(cb, process)` -/
  | exited (sequence : Nat)
  | terminated (sequence : Nat)
  /-- A process that the reaper no longer knows of while it runs. -/
  | dropped (sequence : Nat)
  | quitSet
  | quit
deriving DecidableEq, Repr

structure ChildReaper where
  /-- whether `_quit` is set -/
  quit : Bool
  procInfo : List (Nat × ProcInfo)
  sequence : Nat
  /-- whether the timer of the polling is armed -/
  polling : Bool
  clock : Nat
  log : List Event
deriving DecidableEq, Repr

/-- What `process.poll()` returns at every time. -/
abbrev Polls := Nat → Nat → Option Int

namespace ChildReaper

/-- A process is polled. -/
def tick (s : ChildReaper) (sequence : Nat) : ChildReaper :=
  { s with clock := s.clock + 1, log := s.log ++ [.polled sequence s.clock] }

def setProcInfo (s : ChildReaper) (sequence : Nat) (procinfo : ProcInfo) : ChildReaper :=
  { s with procInfo := Dict.set s.procInfo sequence procinfo }

def watched (s : ChildReaper) : List (Nat × ProcInfo) := s.procInfo.filter fun entry => !entry.2.ignore

def alive (s : ChildReaper) : List (Nat × ProcInfo) := s.watched.filter fun entry => !entry.2.dead

/-- `_proc_info.append(procinfo)`, once `process.poll()` was read -/
def append (s : ChildReaper) (procinfo : ProcInfo) : ChildReaper :=
  { s.tick (s.sequence + 1) with
    sequence := s.sequence + 1
    procInfo := s.procInfo ++ [(s.sequence + 1, procinfo)]
    log := s.log ++ [.polled (s.sequence + 1) s.clock, .added (s.sequence + 1) procinfo] }

/-- Nobody is left to wait for. -/
def allDead (s : ChildReaper) : Bool := !s.watched.isEmpty && s.alive.isEmpty

/-- `add_dead_process`, from where the process is known to be dead up to `check` -/
def bury (s : ChildReaper) (sequence : Nat) (procinfo : ProcInfo) (code : Int) : ChildReaper :=
  { s with
    procInfo :=
      if procinfo.forget then Dict.erase s.procInfo sequence
      else Dict.set s.procInfo sequence
        { procinfo with returncode := some code, dead := true, callback := false, process := false }
    log := s.log ++ (if procinfo.callback then [.exited sequence] else []) ++ [.terminated sequence] }

/-- The end of `check` -/
def conclude (s : ChildReaper) : ChildReaper :=
  if s.allDead && s.quit then { s with quit := false, log := s.log ++ [.quit] } else s

end ChildReaper

/-! ### The functions, with `check` still to be given -/

section

variable (polls : Polls) (recheck : ChildReaper → ChildReaper)

/-- A process that is not listed any more is dead. -/
def addDeadWith (s : ChildReaper) (sequence : Nat) : ChildReaper :=
  match Dict.get s.procInfo sequence with
  | none => s
  | some procinfo =>
      if procinfo.dead || !procinfo.process then s
      else
        match polls s.clock sequence with
        | none => (s.tick sequence).setProcInfo sequence { procinfo with returncode := none, dead := false }
        | some code => recheck ((s.tick sequence).bury sequence procinfo code)

def pollProcess (s : ChildReaper) (sequence : Nat) : ChildReaper :=
  match Dict.get s.procInfo sequence with
  | none => s
  | some procinfo =>
      if !procinfo.dead && procinfo.process then
        if (polls s.clock sequence).isSome then addDeadWith polls recheck (s.tick sequence) sequence
        else s.tick sequence
      else s

def pollWith (s : ChildReaper) : ChildReaper :=
  (s.procInfo.map Prod.fst).foldl (pollProcess polls recheck) s

end

variable (polls : Polls)

/-- `check` polls, a dead process is checked for, and each time there is one less that can die. -/
def checkFuel : Nat → ChildReaper → ChildReaper
  | 0, s => s
  | fuel + 1, s => (pollWith polls (checkFuel fuel) s).conclude

def check (s : ChildReaper) : ChildReaper := checkFuel polls (s.procInfo.length + 1) s

def addDeadProcess (s : ChildReaper) (sequence : Nat) : ChildReaper :=
  addDeadWith polls (check polls) s sequence

def poll (s : ChildReaper) : ChildReaper := pollWith polls (check polls) s

def addDeadPid (s : ChildReaper) (pid : Int) : ChildReaper :=
  ((s.procInfo.filter fun entry => entry.2.pid = pid && !entry.2.dead).map Prod.fst).foldl
    (addDeadProcess polls) s

/-- `waited` are the pids that `os.waitpid(-1, os.WNOHANG)` returns, up to 0 or an error. -/
def reap (s : ChildReaper) (waited : List Int) : ChildReaper :=
  waited.foldl (addDeadPid polls) (poll polls s)

def addProcess (s : ChildReaper) (process : String) (pid : Int) (ignore forget callback : Bool) :
    Except String ChildReaper :=
  if pid ≤ 0 then .error s!"process {process} has no pid!"
  else
    let sequence := s.sequence + 1
    let returncode := polls s.clock sequence
    let procinfo : ProcInfo := ⟨pid, ignore, forget, returncode.isSome, returncode, callback, true⟩
    .ok (if procinfo.dead then addDeadProcess polls (s.append procinfo) sequence else s.append procinfo)

def setQuitCallback (s : ChildReaper) : ChildReaper :=
  { s with quit := true, log := s.log ++ [.quitSet] }

/-- `_proc_info` is emptied. -/
def dropAll (s : ChildReaper) : ChildReaper :=
  { s with
    procInfo := []
    quit := false
    log := s.log ++
      (s.procInfo.filter fun entry => !entry.2.dead).map fun entry => .dropped entry.1 }

def cleanup (s : ChildReaper) (waited : List Int) : ChildReaper :=
  dropAll (poll polls (reap polls s waited))

/-- The timer of the polling ends when everybody is dead. -/
def pollTimer (s : ChildReaper) : ChildReaper :=
  let checked := check polls s
  { checked with polling := !checked.allDead }

inductive Action
  | addProcess (process : String) (pid : Int) (ignore forget callback : Bool)
  | setQuitCallback
  | check
  | pollTimer
  | poll
  | sigchld (waited : List Int)
  | cleanup (waited : List Int)

def Starts (s : ChildReaper) : Prop :=
  s.procInfo = [] ∧ s.log = if s.quit then [.quitSet] else []

inductive Step : ChildReaper → Action → ChildReaper → Prop
  | addProcess {s s' : ChildReaper} {process : String} {pid : Int} {ignore forget callback : Bool}
      (done : addProcess polls s process pid ignore forget callback = .ok s') :
      Step s (.addProcess process pid ignore forget callback) s'
  | setQuitCallback (s : ChildReaper) : Step s .setQuitCallback (setQuitCallback s)
  | check (s : ChildReaper) : Step s .check (check polls s)
  | pollTimer {s : ChildReaper} (armed : s.polling = true) : Step s .pollTimer (pollTimer polls s)
  | poll (s : ChildReaper) : Step s .poll (poll polls s)
  | sigchld (s : ChildReaper) (waited : List Int) : Step s (.sigchld waited) (reap polls s waited)
  | cleanup (s : ChildReaper) (waited : List Int) : Step s (.cleanup waited) (cleanup polls s waited)

/-! ### What a check is made of -/

/-- One of the changes that a check makes. -/
inductive Turn : ChildReaper → ChildReaper → Prop
  | tick (s : ChildReaper) (sequence : Nat) : Turn s (s.tick sequence)
  | running {s : ChildReaper} {sequence : Nat} {procinfo : ProcInfo}
      (found : Dict.get s.procInfo sequence = some procinfo) (runs : procinfo.dead = false) :
      Turn s (s.setProcInfo sequence { procinfo with returncode := none, dead := false })
  | bury {s : ChildReaper} {sequence : Nat} {procinfo : ProcInfo} {code : Int}
      (found : Dict.get s.procInfo sequence = some procinfo) (runs : procinfo.dead = false)
      (exited : ∃ t, s.log.getLast? = some (.polled sequence t) ∧ polls t sequence = some code) :
      Turn s (s.bury sequence procinfo code)
  | quit {s : ChildReaper} (due : s.allDead = true) (set : s.quit = true) :
      Turn s { s with quit := false, log := s.log ++ [.quit] }

abbrev Turns : ChildReaper → ChildReaper → Prop := ReflTransGen (Turn polls)

variable {polls} {recheck : ChildReaper → ChildReaper} {s : ChildReaper}

theorem conclude_turns (s : ChildReaper) : Turns polls s s.conclude := by
  unfold ChildReaper.conclude
  split
  · next due =>
      rw [Bool.and_eq_true] at due
      exact .single (.quit due.1 due.2)
  · exact .refl

theorem addDeadWith_turns (rechecks : ∀ s, Turns polls s (recheck s)) (s : ChildReaper) (sequence : Nat) :
    Turns polls s (addDeadWith polls recheck s sequence) := by
  unfold addDeadWith
  split
  · exact .refl
  · next procinfo found =>
      split
      · exact .refl
      · next going =>
          have runs : procinfo.dead = false := by
            rw [Bool.or_eq_true, not_or, Bool.not_eq_true] at going
            exact going.1
          split
          · exact .tail (.single (.tick s sequence)) (.running found runs)
          · next code exited =>
              have buried : Turn polls (s.tick sequence) ((s.tick sequence).bury sequence procinfo code) :=
                .bury found runs ⟨s.clock, List.getLast?_concat, exited⟩
              exact (ReflTransGen.tail (.single (.tick s sequence)) buried).trans (rechecks _)

theorem pollProcess_turns (rechecks : ∀ s, Turns polls s (recheck s)) (s : ChildReaper)
    (sequence : Nat) : Turns polls s (pollProcess polls recheck s sequence) := by
  unfold pollProcess
  split
  · exact .refl
  · split
    · split
      · exact (ReflTransGen.single (.tick s sequence)).trans
          (addDeadWith_turns rechecks (s.tick sequence) sequence)
      · exact .single (.tick s sequence)
    · exact .refl

theorem foldl_turns {ι : Type} {f : ChildReaper → ι → ChildReaper} (each : ∀ s i, Turns polls s (f s i))
    (items : List ι) (s : ChildReaper) : Turns polls s (items.foldl f s) := by
  induction items generalizing s with
  | nil => exact .refl
  | cons i items ih => exact (each s i).trans (ih (f s i))

theorem pollWith_turns (rechecks : ∀ s, Turns polls s (recheck s)) (s : ChildReaper) :
    Turns polls s (pollWith polls recheck s) :=
  foldl_turns (pollProcess_turns rechecks) _ s

theorem checkFuel_turns (fuel : Nat) (s : ChildReaper) : Turns polls s (checkFuel polls fuel s) := by
  induction fuel generalizing s with
  | zero => exact .refl
  | succ fuel ih => exact (pollWith_turns ih s).trans (conclude_turns _)

theorem check_turns (s : ChildReaper) : Turns polls s (check polls s) := checkFuel_turns _ s

theorem poll_turns (s : ChildReaper) : Turns polls s (poll polls s) := pollWith_turns check_turns s

theorem addDeadPid_turns (s : ChildReaper) (pid : Int) : Turns polls s (addDeadPid polls s pid) :=
  foldl_turns (addDeadWith_turns check_turns) _ s

theorem reap_turns (s : ChildReaper) (waited : List Int) : Turns polls s (reap polls s waited) :=
  (poll_turns s).trans (foldl_turns addDeadPid_turns waited _)

theorem addDeadWith_dead {sequence : Nat} {procinfo : ProcInfo}
    (found : Dict.get s.procInfo sequence = some procinfo) (dead : procinfo.dead = true) :
    addDeadWith polls recheck s sequence = s := by
  rw [addDeadWith, found]
  dsimp only
  rw [dead, Bool.true_or, if_pos rfl]

/-- A process that is dead when it is added is not checked for. -/
theorem addProcess_appends {s' : ChildReaper} {process : String} {pid : Int}
    {ignore forget callback : Bool} (fresh : Dict.get s.procInfo (s.sequence + 1) = none)
    (done : addProcess polls s process pid ignore forget callback = .ok s') :
    ∃ procinfo, procinfo.process = true ∧ s' = s.append procinfo := by
  unfold addProcess at done
  split at done
  · cases done
  · cases done
    refine ⟨⟨pid, ignore, forget, (polls s.clock (s.sequence + 1)).isSome, polls s.clock (s.sequence + 1),
      callback, true⟩, rfl, ?_⟩
    split
    · next dead =>
        refine addDeadWith_dead ?_ dead
        unfold ChildReaper.append
        rw [Dict.get_append, if_pos rfl, fresh, Option.none_or]
    · rfl

/-! ### The fuel is enough -/

/-- How many processes can still die. -/
def ChildReaper.running (s : ChildReaper) : Nat := s.procInfo.countP fun entry => !entry.2.dead

theorem bury_running {sequence : Nat} {procinfo : ProcInfo}
    (found : Dict.get s.procInfo sequence = some procinfo) (runs : procinfo.dead = false) (code : Int) :
    (s.bury sequence procinfo code).running < s.running := by
  unfold ChildReaper.running ChildReaper.bury
  dsimp only
  split
  · exact Dict.countP_erase (Dict.get_mem found) (by simp [runs])
  · have counts := Dict.countP_set (fun entry : Nat × ProcInfo => !entry.2.dead) found
      { procinfo with returncode := some code, dead := true, callback := false, process := false }
    simp [runs] at counts
    omega

theorem Turn.running_le {s' : ChildReaper} (turn : Turn polls s s') : s'.running ≤ s.running := by
  cases turn with
  | tick => exact le_refl _
  | @running sequence procinfo found runs =>
      have counts := Dict.countP_set (fun entry : Nat × ProcInfo => !entry.2.dead) found
        { procinfo with returncode := none, dead := false }
      simp [runs] at counts
      exact le_of_eq counts
  | bury found runs exited => exact le_of_lt (bury_running found runs _)
  | quit => exact le_refl _

theorem Turns.running_le {s' : ChildReaper} (turns : Turns polls s s') : s'.running ≤ s.running := by
  induction turns with
  | refl => exact le_refl _
  | tail _ turn ih => exact le_trans turn.running_le ih

section

variable {recheck' : ChildReaper → ChildReaper} {bound : Nat}

theorem addDeadWith_congr (same : ∀ s : ChildReaper, s.running < bound → recheck s = recheck' s)
    (few : s.running ≤ bound) (sequence : Nat) :
    addDeadWith polls recheck s sequence = addDeadWith polls recheck' s sequence := by
  unfold addDeadWith
  split
  · rfl
  · next procinfo found =>
      split
      · rfl
      · next going =>
          have runs : procinfo.dead = false := by
            rw [Bool.or_eq_true, not_or, Bool.not_eq_true] at going
            exact going.1
          split
          · rfl
          · next code exited =>
              have fewer : ((s.tick sequence).bury sequence procinfo code).running < (s.tick sequence).running :=
                bury_running found runs code
              exact same _ (lt_of_lt_of_le fewer few)

theorem pollProcess_congr (same : ∀ s : ChildReaper, s.running < bound → recheck s = recheck' s)
    (few : s.running ≤ bound) (sequence : Nat) :
    pollProcess polls recheck s sequence = pollProcess polls recheck' s sequence := by
  unfold pollProcess
  rw [addDeadWith_congr (s := s.tick sequence) same few]

theorem pollWith_congr (rechecks : ∀ s, Turns polls s (recheck s))
    (same : ∀ t : ChildReaper, t.running < s.running → recheck t = recheck' t) :
    pollWith polls recheck s = pollWith polls recheck' s := by
  have folds (sequences : List Nat) : ∀ t : ChildReaper, t.running ≤ s.running →
      sequences.foldl (pollProcess polls recheck) t = sequences.foldl (pollProcess polls recheck') t := by
    induction sequences with
    | nil => exact fun _ _ => rfl
    | cons sequence sequences ih =>
        intro t few
        have fewer := Turns.running_le (pollProcess_turns rechecks t sequence)
        rw [List.foldl_cons, List.foldl_cons, ← pollProcess_congr same few]
        exact ih _ (le_trans fewer few)
  exact folds _ s (le_refl _)

end

theorem checkFuel_stable (fuel fuel' : Nat) (s : ChildReaper) (enough : s.running < fuel)
    (enough' : s.running < fuel') : checkFuel polls fuel s = checkFuel polls fuel' s := by
  induction fuel generalizing fuel' s with
  | zero => exact absurd enough (Nat.not_lt_zero _)
  | succ fuel ih =>
      cases fuel' with
      | zero => exact absurd enough' (Nat.not_lt_zero _)
      | succ fuel' =>
          rw [checkFuel, checkFuel, pollWith_congr (checkFuel_turns fuel)]
          intro t fewer
          exact ih fuel' t (by omega) (by omega)

/-- `check` is its own recursion. -/
theorem check_eq (s : ChildReaper) : check polls s = (poll polls s).conclude := by
  have most : s.running ≤ s.procInfo.length := List.countP_le_length
  rw [check, checkFuel, poll, pollWith_congr (checkFuel_turns _)]
  intro t fewer
  have most' : t.running ≤ t.procInfo.length := List.countP_le_length
  exact checkFuel_stable _ _ t (by omega) (by omega)

end Catlink.Children
