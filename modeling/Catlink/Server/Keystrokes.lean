import Catlink.Server.Keyboard
import Mathlib.Tactic

/-! A key that is pressed and released is typed once, also where releases alone are typed. -/

namespace Catlink.Keyboard

open MainLoop Presses Runs

/-- A key of a client, and the keycode that it has at the server. -/
structure ClientKey where
  client : Nat
  keyId : Nat × String
  keycode : Int
  real : 0 ≤ keycode

/-- The server, and whether the last packet of the key was a press. -/
structure Typing where
  server : KeyboardServer
  held : Bool

/-- How often the key was pressed. -/
def KeyboardServer.presses (s : KeyboardServer) (keycode : Int) : Nat := s.faked.count (keycode, true)

/-- The packet is about the key. -/
def Ours (k : ClientKey) (client : Nat) (packet : KeyAction) : Prop :=
  client = k.client ∧ packet.keyId = k.keyId

instance (k : ClientKey) (client : Nat) (packet : KeyAction) : Decidable (Ours k client packet) :=
  inferInstanceAs (Decidable (_ ∧ _))

/-- The key keeps its keycode, which no other key has, its client stays, and the keys are not cleared
while it is held; where releases are typed, it is pressed by a client that has its keyboard synced. -/
def Steady (k : ClientKey) (t : Typing) : Action → Prop
  | .keyAction client packet a =>
      (a.keycode = k.keycode ↔ Ours k client packet) ∧
      (a.resetFocus = true → t.held = false) ∧
      (Ours k client packet → a.isModifier = false) ∧
      (Ours k client packet → packet.pressed = true → ¬ t.server.windowGone packet.wid ∧
        ∀ ss, Dict.get t.server.sources k.client = some ss →
          ss.sync = true ∨ t.server.imCursorEnhancedMode = false)
  | .clear => t.held = false
  | .join client _ _ | .leave client => client ≠ k.client
  | _ => True

/-- Whether the key is held after the action. -/
def holds (k : ClientKey) (held : Bool) : Action → Bool
  | .keyAction client packet _ => if Ours k client packet then packet.pressed else held
  | _ => held

/-- The key is up, and its client is there. -/
def Starts (k : ClientKey) (t : Typing) : Prop :=
  t.held = false ∧ t.server.readonly = false ∧ k.keycode ∉ t.server.keysPressed.map Prod.fst ∧
    ∃ ss, Dict.get t.server.sources k.client = some ss ∧ ss.shortcutKeys = []

def Types (k : ClientKey) (t : Typing) (a : Action) (t' : Typing) : Prop :=
  Steady k t a ∧ Enabled t.server a ∧ t' = ⟨act t.server a, holds k t.held a⟩

/-! ### What is left alone -/

/-- Settings and connections stay as they are. -/
structure Frame (s s' : KeyboardServer) : Prop where
  readonly : s'.readonly = s.readonly
  enhanced : s'.imCursorEnhancedMode = s.imCursorEnhancedMode
  windows : s'.windows = s.windows
  sources : s'.sources = s.sources

variable {s : KeyboardServer} {k : Int}

theorem Frame.trans {s' s'' : KeyboardServer} (first : Frame s s') (second : Frame s' s'') : Frame s s'' :=
  ⟨second.readonly.trans first.readonly, second.enhanced.trans first.enhanced,
    second.windows.trans first.windows, second.sources.trans first.sources⟩

theorem cancelKeyRepeatTimer_frame (s : KeyboardServer) : Frame s (cancelKeyRepeatTimer s) := by
  unfold cancelKeyRepeatTimer
  split
  · exact ⟨rfl, rfl, rfl, rfl⟩
  · exact ⟨rfl, rfl, rfl, rfl⟩

/-- The timer of the repeats is not about the keys that are down. -/
theorem cancelKeyRepeatTimer_keys (s : KeyboardServer) :
    (cancelKeyRepeatTimer s).keysPressed = s.keysPressed ∧
      (cancelKeyRepeatTimer s).keysTimedout = s.keysTimedout ∧ (cancelKeyRepeatTimer s).faked = s.faked := by
  unfold cancelKeyRepeatTimer
  split
  · exact ⟨rfl, rfl, rfl⟩
  · exact ⟨rfl, rfl, rfl⟩

theorem keyRepeat_frame (s : KeyboardServer) (key : Key) (pressed : Bool) (delayMs : Int) :
    Frame s (keyRepeat s key pressed delayMs) := by
  have cancelled := cancelKeyRepeatTimer_frame s
  unfold keyRepeat
  dsimp only
  split
  · exact ⟨cancelled.readonly, cancelled.enhanced, cancelled.windows, cancelled.sources⟩
  · exact cancelled

theorem keyRepeat_keys (s : KeyboardServer) (key : Key) (pressed : Bool) (delayMs : Int) :
    (keyRepeat s key pressed delayMs).keysPressed = s.keysPressed ∧
      (keyRepeat s key pressed delayMs).keysTimedout = s.keysTimedout ∧
      (keyRepeat s key pressed delayMs).faked = s.faked := by
  have cancelled := cancelKeyRepeatTimer_keys s
  unfold keyRepeat
  dsimp only
  split
  · exact cancelled
  · exact cancelled

theorem strike_frame (s : KeyboardServer) (key : Key) (pressed sync keyTimedout : Bool) (keystr : String)
    (syntheticKeycode : Int) (syntheticKeyname : String) :
    Frame s (strike s key pressed sync keyTimedout keystr syntheticKeycode syntheticKeyname) := by
  unfold strike
  split
  · split
    · dsimp only
      split
      · exact ⟨rfl, rfl, rfl, rfl⟩
      · exact ⟨rfl, rfl, rfl, rfl⟩
    · exact ⟨rfl, rfl, rfl, rfl⟩
  · split
    · exact ⟨rfl, rfl, rfl, rfl⟩
    · split
      · exact ⟨rfl, rfl, rfl, rfl⟩
      · exact ⟨rfl, rfl, rfl, rfl⟩

theorem strike_timedout (s : KeyboardServer) (key : Key) (pressed sync keyTimedout : Bool) (keystr : String)
    (syntheticKeycode : Int) (syntheticKeyname : String) :
    (strike s key pressed sync keyTimedout keystr syntheticKeycode syntheticKeyname).keysTimedout =
      s.keysTimedout := by
  unfold strike
  split
  · split
    · dsimp only
      split
      · rfl
      · rfl
    · rfl
  · split
    · rfl
    · split
      · rfl
      · rfl

theorem clearKeysPressed_frame (s : KeyboardServer) : Frame s (clearKeysPressed s) := by
  have cancelled := cancelKeyRepeatTimer_frame s
  unfold clearKeysPressed
  split
  · exact ⟨rfl, rfl, rfl, rfl⟩
  · exact ⟨cancelled.readonly, cancelled.enhanced, cancelled.windows, cancelled.sources⟩

/-! ### What is pressed and what is down -/

theorem mem_press {keycode : Int} {name : String} :
    k ∈ (s.press keycode name).keysPressed.map Prod.fst ↔ k = keycode ∨ k ∈ s.keysPressed.map Prod.fst :=
  Dict.mem_keys_set

theorem mem_unpress {keycode : Int} :
    k ∈ (s.unpress keycode).keysPressed.map Prod.fst ↔ k ∈ s.keysPressed.map Prod.fst ∧ k ≠ keycode :=
  Dict.mem_keys_erase

theorem mem_tap {keycode : Int} {name : String} (up : keycode ∉ s.keysPressed.map Prod.fst) :
    k ∈ (s.tap keycode name).keysPressed.map Prod.fst ↔ k ∈ s.keysPressed.map Prod.fst := by
  rw [KeyboardServer.tap, mem_unpress, mem_press]
  constructor
  · rintro ⟨rfl | member, other⟩
    · exact absurd rfl other
    · exact member
  · intro member
    exact ⟨.inr member, fun same => up (same ▸ member)⟩

theorem presses_press (s : KeyboardServer) (keycode : Int) (name : String) :
    (s.press keycode name).presses k = s.presses k + if keycode = k then 1 else 0 := by
  simp [KeyboardServer.presses, KeyboardServer.press, List.count_append, List.count_singleton]

theorem presses_unpress (s : KeyboardServer) (keycode : Int) :
    (s.unpress keycode).presses k = s.presses k := by
  simp [KeyboardServer.presses, KeyboardServer.unpress, List.count_append]

/-- What happens to a key is not about the other ones. -/
theorem strike_other {key : Key} (other : k ≠ key.keycode) (pressed sync keyTimedout : Bool)
    (keystr : String) (syntheticKeycode : Int) (syntheticKeyname : String) :
    k ∈ (strike s key pressed sync keyTimedout keystr syntheticKeycode syntheticKeyname).keysPressed.map
      Prod.fst ↔ k ∈ s.keysPressed.map Prod.fst := by
  unfold strike
  split
  · split
    · dsimp only
      split
      · rw [mem_unpress, mem_press]
        simp [other]
      · rw [mem_press]
        simp [other]
    · rfl
  · split
    · rw [mem_unpress]
      simp [other]
    · split
      · next taps => exact mem_tap (syntheticTap_up taps)
      · rfl

/-- A key that is pressed stays down, unless its client takes care of the repeats. -/
theorem strike_press (key : Key) (sync keyTimedout : Bool) (keystr : String) (syntheticKeycode : Int)
    (syntheticKeyname : String) :
    key.keycode ∈ (strike s key true sync keyTimedout keystr syntheticKeycode
      syntheticKeyname).keysPressed.map Prod.fst ↔
        key.keycode ∈ s.keysPressed.map Prod.fst ∨ sync = true ∨ key.isMod = true := by
  unfold strike
  rw [if_pos rfl]
  split
  · next up =>
      dsimp only
      split
      · next tapped =>
          rw [mem_unpress, mem_press]
          simp [up, tapped.1, tapped.2]
      · next kept =>
          rw [mem_press]
          have either : sync = true ∨ key.isMod = true := by
            by_contra neither
            rw [not_or, Bool.not_eq_true, Bool.not_eq_true] at neither
            exact kept neither
          simp [either]
  · next held =>
      rw [not_not] at held
      simp [held]

theorem strike_press_count {key : Key} (up : key.keycode ∉ s.keysPressed.map Prod.fst)
    (sync keyTimedout : Bool) (keystr : String) (syntheticKeycode : Int) (syntheticKeyname : String) :
    (strike s key true sync keyTimedout keystr syntheticKeycode syntheticKeyname).presses key.keycode =
      s.presses key.keycode + 1 := by
  unfold strike
  rw [if_pos rfl, if_pos up]
  dsimp only
  split
  · rw [presses_unpress, presses_press, if_pos rfl]
  · rw [presses_press, if_pos rfl]

/-- A key that is released is up. -/
theorem strike_release (key : Key) (sync keyTimedout : Bool) (keystr : String) (syntheticKeycode : Int)
    (syntheticKeyname : String) :
    key.keycode ∉ (strike s key false sync keyTimedout keystr syntheticKeycode
      syntheticKeyname).keysPressed.map Prod.fst := by
  unfold strike
  rw [if_neg Bool.false_ne_true]
  split
  · rw [mem_unpress]
    simp
  · next up =>
      split
      · next taps => rwa [mem_tap (syntheticTap_up taps)]
      · exact up

/-- The release of a key that is down, or was until it timed out, types nothing. -/
theorem strike_release_count {key : Key} {keyTimedout : Bool}
    (before : s.imCursorEnhancedMode = false ∨ key.keycode ∈ s.keysPressed.map Prod.fst ∨
      keyTimedout = true) (sync : Bool) (keystr : String) (syntheticKeycode : Int) (syntheticKeyname : String) :
    (strike s key false sync keyTimedout keystr syntheticKeycode syntheticKeyname).presses k = s.presses k := by
  unfold strike
  rw [if_neg Bool.false_ne_true]
  split
  · exact presses_unpress s key.keycode
  · next up =>
      split
      · next taps =>
          obtain ⟨allowed, -⟩ := Option.ite_none_right_eq_some.mp taps
          rcases before with plain | held | timedout
          · rw [plain] at allowed
            exact absurd allowed.1 Bool.false_ne_true
          · exact absurd held up
          · rw [timedout] at allowed
            exact absurd allowed.2.1.symm Bool.false_ne_true
      · rfl

/-! ### `_handle_key` -/

theorem handleKey_frame (s : KeyboardServer) (key : Key) (pressed sync : Bool) (keystr : String)
    (syntheticKeycode : Int) (syntheticKeyname : String) :
    Frame s (handleKey s key pressed sync keystr syntheticKeycode syntheticKeyname) := by
  unfold handleKey
  split
  · exact ⟨rfl, rfl, rfl, rfl⟩
  split
  · exact ⟨rfl, rfl, rfl, rfl⟩
  dsimp only
  have struck := strike_frame { s with keysTimedout := Dict.erase s.keysTimedout key.keycode } key pressed
    sync (decide (key.keycode ∈ s.keysTimedout.map Prod.fst)) keystr syntheticKeycode syntheticKeyname
  have kept : Frame s { s with keysTimedout := Dict.erase s.keysTimedout key.keycode } := ⟨rfl, rfl, rfl, rfl⟩
  split
  · exact (kept.trans struck).trans (keyRepeat_frame _ _ _ _)
  · exact kept.trans struck

/-- `_handle_key` strikes the key, and forgets that it timed out. -/
theorem handleKey_keys (s : KeyboardServer) (key : Key) (pressed : Bool) (there : ¬ (pressed = true ∧ s.windowGone key.wid))
    (real : 0 ≤ key.keycode) (sync : Bool) (keystr : String) (syntheticKeycode : Int)
    (syntheticKeyname : String) :
    ∃ struck, struck = strike { s with keysTimedout := Dict.erase s.keysTimedout key.keycode } key pressed sync
        (decide (key.keycode ∈ s.keysTimedout.map Prod.fst)) keystr syntheticKeycode syntheticKeyname ∧
      (handleKey s key pressed sync keystr syntheticKeycode syntheticKeyname).keysPressed = struck.keysPressed ∧
      (handleKey s key pressed sync keystr syntheticKeycode syntheticKeyname).keysTimedout =
        Dict.erase s.keysTimedout key.keycode ∧
      (handleKey s key pressed sync keystr syntheticKeycode syntheticKeyname).faked = struck.faked := by
  refine ⟨_, rfl, ?_⟩
  have timedout := strike_timedout { s with keysTimedout := Dict.erase s.keysTimedout key.keycode } key pressed
    sync (decide (key.keycode ∈ s.keysTimedout.map Prod.fst)) keystr syntheticKeycode syntheticKeyname
  unfold handleKey
  rw [if_neg there, if_neg (by omega)]
  dsimp only
  split
  · obtain ⟨held, times, strokes⟩ := keyRepeat_keys
      (strike { s with keysTimedout := Dict.erase s.keysTimedout key.keycode } key pressed sync
        (decide (key.keycode ∈ s.keysTimedout.map Prod.fst)) keystr syntheticKeycode syntheticKeyname)
      key pressed
      (strike { s with keysTimedout := Dict.erase s.keysTimedout key.keycode } key pressed sync
        (decide (key.keycode ∈ s.keysTimedout.map Prod.fst)) keystr syntheticKeycode
        syntheticKeyname).keyRepeatDelay
    exact ⟨held, times.trans timedout, strokes⟩
  · exact ⟨rfl, timedout, rfl⟩

theorem handleKey_other {key : Key} (other : k ≠ key.keycode) (pressed sync : Bool) (keystr : String)
    (syntheticKeycode : Int) (syntheticKeyname : String) :
    (k ∈ (handleKey s key pressed sync keystr syntheticKeycode syntheticKeyname).keysPressed.map Prod.fst ↔
      k ∈ s.keysPressed.map Prod.fst) ∧
    (k ∈ (handleKey s key pressed sync keystr syntheticKeycode syntheticKeyname).keysTimedout.map Prod.fst ↔
      k ∈ s.keysTimedout.map Prod.fst) := by
  by_cases gone : pressed = true ∧ s.windowGone key.wid
  · unfold handleKey
    rw [if_pos gone]
    exact ⟨Iff.rfl, Iff.rfl⟩
  by_cases real : 0 ≤ key.keycode
  · obtain ⟨struck, rfl, held, timedout, -⟩ := handleKey_keys s key pressed gone real sync keystr syntheticKeycode
      syntheticKeyname
    rw [held, timedout, strike_other other, Dict.mem_keys_erase]
    exact ⟨Iff.rfl, and_iff_left other⟩
  · unfold handleKey
    rw [if_neg gone, if_pos (by omega)]
    exact ⟨Iff.rfl, Iff.rfl⟩

theorem handleKey_press {key : Key} (there : ¬ s.windowGone key.wid) (real : 0 ≤ key.keycode) (sync : Bool)
    (keystr : String) (syntheticKeycode : Int) (syntheticKeyname : String) :
    (key.keycode ∈ (handleKey s key true sync keystr syntheticKeycode syntheticKeyname).keysPressed.map Prod.fst ↔
      key.keycode ∈ s.keysPressed.map Prod.fst ∨ sync = true ∨ key.isMod = true) ∧
    (key.keycode ∉ s.keysPressed.map Prod.fst →
      (handleKey s key true sync keystr syntheticKeycode syntheticKeyname).presses key.keycode =
        s.presses key.keycode + 1) := by
  obtain ⟨struck, rfl, held, -, strokes⟩ := handleKey_keys s key true (fun both => there both.2) real sync
    keystr syntheticKeycode syntheticKeyname
  constructor
  · rw [held]
    exact strike_press key sync _ keystr syntheticKeycode syntheticKeyname
  · intro up
    have still : key.keycode ∉ ({ s with
      keysTimedout := Dict.erase s.keysTimedout key.keycode } : KeyboardServer).keysPressed.map Prod.fst := up
    unfold KeyboardServer.presses
    rw [strokes]
    exact strike_press_count still sync _ keystr syntheticKeycode syntheticKeyname

theorem handleKey_release {key : Key} (real : 0 ≤ key.keycode) (sync : Bool) (keystr : String)
    (syntheticKeycode : Int) (syntheticKeyname : String) :
    key.keycode ∉ (handleKey s key false sync keystr syntheticKeycode syntheticKeyname).keysPressed.map Prod.fst ∧
    (s.imCursorEnhancedMode = false ∨ key.keycode ∈ s.keysPressed.map Prod.fst ∨
        key.keycode ∈ s.keysTimedout.map Prod.fst →
      (handleKey s key false sync keystr syntheticKeycode syntheticKeyname).presses k = s.presses k) := by
  obtain ⟨struck, rfl, held, -, strokes⟩ := handleKey_keys s key false
    (fun both => Bool.false_ne_true both.1) real sync keystr syntheticKeycode syntheticKeyname
  constructor
  · rw [held]
    exact strike_release key sync _ keystr syntheticKeycode syntheticKeyname
  · intro before
    unfold KeyboardServer.presses
    rw [strokes]
    refine strike_release_count ?_ sync keystr syntheticKeycode syntheticKeyname
    rcases before with plain | there | timedout
    · exact .inl plain
    · exact .inr (.inl there)
    · exact .inr (.inr (decide_eq_true timedout))

theorem clearKeysPressed_keys (s : KeyboardServer) (writable : s.readonly = false) :
    (clearKeysPressed s).keysPressed = [] ∧ (clearKeysPressed s).presses k = s.presses k := by
  obtain ⟨-, -, strokes⟩ := cancelKeyRepeatTimer_keys s
  unfold clearKeysPressed
  rw [writable, if_neg Bool.false_ne_true]
  refine ⟨rfl, ?_⟩
  unfold KeyboardServer.presses
  dsimp only
  rw [strokes, List.count_append, Nat.add_eq_left, List.count_eq_zero]
  intro member
  obtain ⟨entry, -, same⟩ := List.mem_map.mp member
  cases same

/-! ### The clipboard shortcuts -/

/-- What becomes of a key that may be a clipboard shortcut. -/
inductive Shortcut (s : KeyboardServer) (client : Nat) (ss : Source) (keyId : Nat × String) (key : Key)
    (keystr : String) (now : Int) : Bool → KeyboardServer × Bool → Prop
  | plain {pressed : Bool} (off : ss.shortcutTap = false ∨ key.isMod = true) :
      Shortcut s client ss keyId key keystr now pressed (s, false)
  | released (on : ss.shortcutTap = true) (tapped : keyId ∈ ss.shortcutKeys.map Prod.fst) :
      Shortcut s client ss keyId key keystr now false
        (s.setSource client { ss with shortcutKeys := Dict.erase ss.shortcutKeys keyId }, true)
  | unknown (untapped : keyId ∉ ss.shortcutKeys.map Prod.fst) :
      Shortcut s client ss keyId key keystr now false (s, false)
  | pressed (on : ss.shortcutTap = true) :
      Shortcut s client ss keyId key keystr now true
        (s.setSource client { ss with shortcutKeys := Dict.erase ss.shortcutKeys keyId }, false)
  | repeated (tapped : keyId ∈ ss.shortcutKeys.map Prod.fst) :
      Shortcut s client ss keyId key keystr now true (s, true)
  | tapped (on : ss.shortcutTap = true) (action : key.isMod = false)
      (up : key.keycode ∉ s.keysPressed.map Prod.fst) :
      Shortcut s client ss keyId key keystr now true
        ((handleKey s key true false keystr (-1) "").setSource client
          { ss with shortcutKeys := Dict.set ss.shortcutKeys keyId now }, true)

theorem handleClipboardShortcut_cases (s : KeyboardServer) (client : Nat) (ss : Source) (keyId : Nat × String)
    (key : Key) (pressed : Bool) (keystr : String) (now : Int) :
    Shortcut s client ss keyId key keystr now pressed
      (handleClipboardShortcut s client ss keyId key pressed keystr now) := by
  unfold handleClipboardShortcut
  split
  · next off => exact .plain off
  next on =>
  rw [not_or, Bool.not_eq_false, Bool.not_eq_true] at on
  dsimp only
  cases pressed with
  | false =>
      rw [if_pos rfl]
      split
      · next tapped => exact .released on.1 (Dict.isSome_get.mp tapped)
      · next untapped => exact .unknown fun tapped => untapped (Dict.isSome_get.mpr tapped)
  | true =>
      rw [if_neg (by simp)]
      split
      · exact .pressed on.1
      next other =>
      rw [not_or, not_or] at other
      split
      · next recent =>
          cases found : Dict.get ss.shortcutKeys keyId with
          | none =>
              rw [found] at recent
              cases recent
          | some tapped => exact .repeated (Dict.mem_keys_of_get found)
      · exact .tapped on.1 on.2 other.2.1

/-! ### The invariant -/

/-- A key that is not held is up. One that is held is down, has timed out, or was tapped as a clipboard
shortcut, where releases are typed. -/
structure Tracks (k : ClientKey) (s : KeyboardServer) (held : Bool) (ss : Source) : Prop where
  client : Dict.get s.sources k.client = some ss
  writable : s.readonly = false
  up : held = false → k.keycode ∉ s.keysPressed.map Prod.fst ∧ k.keyId ∉ ss.shortcutKeys.map Prod.fst
  down : held = true → s.imCursorEnhancedMode = true → k.keycode ∈ s.keysPressed.map Prod.fst ∨
    k.keycode ∈ s.keysTimedout.map Prod.fst ∨ k.keyId ∈ ss.shortcutKeys.map Prod.fst
  tapped : k.keyId ∈ ss.shortcutKeys.map Prod.fst →
    k.keycode ∉ s.keysPressed.map Prod.fst ∧ ss.shortcutTap = true

section

variable {key : ClientKey} {held : Bool} {ss : Source}

theorem Tracks.congr {s' : KeyboardServer} (tracks : Tracks key s held ss) (frame : Frame s s')
    (pressed : key.keycode ∈ s'.keysPressed.map Prod.fst ↔ key.keycode ∈ s.keysPressed.map Prod.fst)
    (timedout : key.keycode ∈ s.keysTimedout.map Prod.fst → key.keycode ∈ s'.keysTimedout.map Prod.fst) :
    Tracks key s' held ss where
  client := by rw [frame.sources, tracks.client]
  writable := by rw [frame.readonly, tracks.writable]
  up up := by
    rw [pressed]
    exact tracks.up up
  down down enhanced := by
    rw [frame.enhanced] at enhanced
    rw [pressed]
    rcases tracks.down down enhanced with there | late | tap
    · exact .inl there
    · exact .inr (.inl (timedout late))
    · exact .inr (.inr tap)
  tapped tap := by
    rw [pressed]
    exact tracks.tapped tap

theorem Tracks.handleKey_other (tracks : Tracks key s held ss) {k : Key} (other : key.keycode ≠ k.keycode)
    (pressed sync : Bool) (keystr : String) (syntheticKeycode : Int) (syntheticKeyname : String) :
    Tracks key (handleKey s k pressed sync keystr syntheticKeycode syntheticKeyname) held ss := by
  obtain ⟨down, timedout⟩ := Keyboard.handleKey_other (s := s) other pressed sync keystr syntheticKeycode
    syntheticKeyname
  exact tracks.congr (handleKey_frame s k pressed sync keystr syntheticKeycode syntheticKeyname) down timedout.mpr

theorem Tracks.clear (tracks : Tracks key s held ss) (unheld : held = false) :
    Tracks key (clearKeysPressed s) held ss := by
  have frame := clearKeysPressed_frame s
  obtain ⟨empty, -⟩ := clearKeysPressed_keys (k := key.keycode) s tracks.writable
  refine ⟨by rw [frame.sources, tracks.client], by rw [frame.readonly, tracks.writable], ?_, ?_, ?_⟩
  · intro up
    rw [empty]
    exact ⟨List.not_mem_nil, (tracks.up up).2⟩
  · intro down
    rw [unheld] at down
    cases down
  · intro tap
    rw [empty]
    exact ⟨List.not_mem_nil, (tracks.tapped tap).2⟩

/-- Another client's connection. -/
theorem Tracks.setSource_other (tracks : Tracks key s held ss) {client : Nat} (other : client ≠ key.client)
    (ss' : Source) : Tracks key (s.setSource client ss') held ss where
  client := by
    rw [KeyboardServer.setSource, Dict.get_set, if_neg other, tracks.client]
  writable := tracks.writable
  up := tracks.up
  down := tracks.down
  tapped := tracks.tapped

/-- The connection of the client itself, where the key stays what it is. -/
theorem Tracks.setSource (tracks : Tracks key s held ss) {ss' : Source}
    (tap : ss'.shortcutTap = ss.shortcutTap)
    (keys : key.keyId ∈ ss'.shortcutKeys.map Prod.fst ↔ key.keyId ∈ ss.shortcutKeys.map Prod.fst) :
    Tracks key (s.setSource key.client ss') held ss' where
  client := by rw [KeyboardServer.setSource, Dict.get_set, if_pos rfl]
  writable := tracks.writable
  up := by
    rw [keys]
    exact tracks.up
  down := by
    rw [keys]
    exact tracks.down
  tapped := by
    rw [keys, tap]
    exact tracks.tapped

/-- The connection of a client changes, but not for this key. -/
theorem Tracks.setSource_any (tracks : Tracks key s held ss) {client : Nat} {old new : Source}
    (found : Dict.get s.sources client = some old) (tap : new.shortcutTap = old.shortcutTap)
    (keys : client = key.client →
      (key.keyId ∈ new.shortcutKeys.map Prod.fst ↔ key.keyId ∈ old.shortcutKeys.map Prod.fst)) :
    ∃ ss', Tracks key (s.setSource client new) held ss' := by
  by_cases same : client = key.client
  · subst same
    rw [tracks.client] at found
    cases found
    exact ⟨new, tracks.setSource tap (keys rfl)⟩
  · exact ⟨ss, tracks.setSource_other same new⟩

/-! ### One packet -/

/-- A press of the key. The first one types it once. -/
theorem press_ours (tracks : Tracks key s held ss) {k : Key} (own : k.keycode = key.keycode)
    (action : k.isMod = false) (there : ¬ s.windowGone k.wid)
    (synced : ss.sync = true ∨ s.imCursorEnhancedMode = false) {keystr : String} {now : Int}
    {handled : KeyboardServer × Bool}
    (cases : Shortcut s key.client ss key.keyId k keystr now true handled) (syntheticKeycode : Int)
    (syntheticKeyname : String) :
    (∃ ss', Tracks key (if handled.2 = true then handled.1
        else handleKey handled.1 k true ss.sync keystr syntheticKeycode syntheticKeyname) true ss') ∧
      (held = false → (if handled.2 = true then handled.1
        else handleKey handled.1 k true ss.sync keystr syntheticKeycode
          syntheticKeyname).presses key.keycode = s.presses key.keycode + 1) := by
  have real : 0 ≤ k.keycode := own ▸ key.real
  -- the key is handled as any other, and is not pending
  have typed {s' : KeyboardServer} {ss' : Source} (client : Dict.get s'.sources key.client = some ss')
      (writable : s'.readonly = false) (enhanced : s'.imCursorEnhancedMode = s.imCursorEnhancedMode)
      (windows : s'.windows = s.windows) (untapped : key.keyId ∉ ss'.shortcutKeys.map Prod.fst)
      (pressed : s'.keysPressed = s.keysPressed) (strokes : s'.faked = s.faked) :
      (∃ ss', Tracks key (handleKey s' k true ss.sync keystr syntheticKeycode syntheticKeyname) true ss') ∧
      (held = false → (handleKey s' k true ss.sync keystr syntheticKeycode
        syntheticKeyname).presses key.keycode = s.presses key.keycode + 1) := by
    have there : ¬ s'.windowGone k.wid := by
      unfold KeyboardServer.windowGone
      rw [windows]
      exact there
    have frame := handleKey_frame s' k true ss.sync keystr syntheticKeycode syntheticKeyname
    obtain ⟨stays, counts⟩ := handleKey_press there real ss.sync keystr syntheticKeycode syntheticKeyname
    constructor
    · refine ⟨ss', by rw [frame.sources, client], by rw [frame.readonly, writable], nofun, ?_, ?_⟩
      · intro _ mode
        rw [frame.enhanced, enhanced] at mode
        rw [← own]
        refine .inl (stays.mpr (.inr (.inl ?_)))
        rcases synced with sync | plain
        · exact sync
        · rw [plain] at mode
          cases mode
      · intro tap
        exact absurd tap untapped
    · intro unheld
      have up := (tracks.up unheld).1
      rw [← own, ← pressed] at up
      have once := counts up
      rw [own] at once
      rw [once]
      unfold KeyboardServer.presses
      rw [strokes]
  cases cases with
  | plain off =>
      rw [if_neg Bool.false_ne_true]
      refine typed tracks.client tracks.writable rfl rfl ?_ rfl rfl
      intro tap
      rcases off with off | mod
      · rw [(tracks.tapped tap).2] at off
        cases off
      · rw [action] at mod
        cases mod
  | pressed on =>
      rw [if_neg Bool.false_ne_true]
      refine typed (by rw [KeyboardServer.setSource, Dict.get_set, if_pos rfl]) tracks.writable rfl rfl ?_ rfl rfl
      rw [Dict.mem_keys_erase]
      exact fun both => both.2 rfl
  | repeated tap =>
      rw [if_pos rfl]
      refine ⟨⟨ss, tracks.client, tracks.writable, nofun, fun _ _ => .inr (.inr tap), tracks.tapped⟩, ?_⟩
      intro unheld
      exact absurd tap (tracks.up unheld).2
  | tapped on _ up =>
      rw [if_pos rfl]
      have frame := handleKey_frame s k true false keystr (-1) ""
      obtain ⟨stays, counts⟩ := handleKey_press there real false keystr (-1) ""
      have gone : key.keycode ∉ (handleKey s k true false keystr (-1) "").keysPressed.map Prod.fst := by
        rw [← own, stays]
        simp [up, action]
      constructor
      · refine ⟨_, by rw [KeyboardServer.setSource, Dict.get_set, if_pos rfl], ?_, nofun, ?_, ?_⟩
        · exact frame.readonly.trans tracks.writable
        · intro _ _
          exact .inr (.inr (Dict.mem_keys_set.mpr (.inl rfl)))
        · intro _
          exact ⟨gone, on⟩
      · intro _
        have once := counts up
        rw [own] at once
        exact once

/-- A release of the key. It types nothing when the key was held. -/
theorem release_ours (tracks : Tracks key s held ss) {k : Key} (own : k.keycode = key.keycode)
    (action : k.isMod = false) {keystr : String} {now : Int} {handled : KeyboardServer × Bool}
    (cases : Shortcut s key.client ss key.keyId k keystr now false handled) (syntheticKeycode : Int)
    (syntheticKeyname : String) :
    (∃ ss', Tracks key (if handled.2 = true then handled.1
        else handleKey handled.1 k false ss.sync keystr syntheticKeycode syntheticKeyname) false ss') ∧
      (held = true → (if handled.2 = true then handled.1
        else handleKey handled.1 k false ss.sync keystr syntheticKeycode
          syntheticKeyname).presses key.keycode = s.presses key.keycode) := by
  have real : 0 ≤ k.keycode := own ▸ key.real
  -- the key is handled as any other
  have typed (untapped : key.keyId ∉ ss.shortcutKeys.map Prod.fst) :
      (∃ ss', Tracks key (handleKey s k false ss.sync keystr syntheticKeycode syntheticKeyname) false ss') ∧
      (held = true → (handleKey s k false ss.sync keystr syntheticKeycode
        syntheticKeyname).presses key.keycode = s.presses key.keycode) := by
    have frame := handleKey_frame s k false ss.sync keystr syntheticKeycode syntheticKeyname
    obtain ⟨up, counts⟩ := handleKey_release (s := s) (k := key.keycode) real ss.sync keystr syntheticKeycode
      syntheticKeyname
    rw [own] at up counts
    constructor
    · refine ⟨ss, by rw [frame.sources, tracks.client], by rw [frame.readonly, tracks.writable],
        fun _ => ⟨up, untapped⟩, nofun, ?_⟩
      intro tap
      exact absurd tap untapped
    · intro down
      apply counts
      by_cases mode : s.imCursorEnhancedMode = true
      · rcases tracks.down down mode with there | late | tap
        · exact .inr (.inl there)
        · exact .inr (.inr late)
        · exact absurd tap untapped
      · exact .inl (Bool.eq_false_of_not_eq_true mode)
  cases cases with
  | plain off =>
      rw [if_neg Bool.false_ne_true]
      refine typed ?_
      intro tap
      rcases off with off | mod
      · rw [(tracks.tapped tap).2] at off
        cases off
      · rw [action] at mod
        cases mod
  | unknown untapped =>
      rw [if_neg Bool.false_ne_true]
      exact typed untapped
  | released on tap =>
      rw [if_pos rfl]
      have gone : key.keyId ∉ (Dict.erase ss.shortcutKeys key.keyId).map Prod.fst := by
        rw [Dict.mem_keys_erase]
        exact fun both => both.2 rfl
      refine ⟨⟨_, by rw [KeyboardServer.setSource, Dict.get_set, if_pos rfl], tracks.writable,
        fun _ => ⟨(tracks.tapped tap).1, gone⟩, nofun, fun still => absurd still gone⟩, fun _ => rfl⟩

/-- A packet about another key. -/
theorem deliver_other (tracks : Tracks key s held ss) {client : Nat} {old : Source} {keyId : Nat × String}
    (found : Dict.get s.sources client = some old) (apart : ¬ (client = key.client ∧ keyId = key.keyId))
    {k : Key} (other : key.keycode ≠ k.keycode) {keystr : String} {now : Int} {pressed : Bool}
    {handled : KeyboardServer × Bool}
    (cases : Shortcut s client old keyId k keystr now pressed handled) (sync : Bool) (syntheticKeycode : Int)
    (syntheticKeyname : String) :
    ∃ ss', Tracks key (if handled.2 = true then handled.1
        else handleKey handled.1 k pressed sync keystr syntheticKeycode syntheticKeyname) held ss' := by
  have erased : client = key.client → (key.keyId ∈ (Dict.erase old.shortcutKeys keyId).map Prod.fst ↔
      key.keyId ∈ old.shortcutKeys.map Prod.fst) := by
    intro same
    rw [Dict.mem_keys_erase]
    exact and_iff_left fun here => apart ⟨same, here.symm⟩
  cases cases with
  | plain off =>
      rw [if_neg Bool.false_ne_true]
      exact ⟨ss, tracks.handleKey_other other _ _ _ _ _⟩
  | unknown untapped =>
      rw [if_neg Bool.false_ne_true]
      exact ⟨ss, tracks.handleKey_other other _ _ _ _ _⟩
  | released on tap =>
      rw [if_pos rfl]
      exact tracks.setSource_any found rfl erased
  | pressed on =>
      rw [if_neg Bool.false_ne_true]
      have tracked : ∃ ss', Tracks key (s.setSource client { old with
          shortcutKeys := Dict.erase old.shortcutKeys keyId }) held ss' := tracks.setSource_any found rfl erased
      obtain ⟨ss', tracked⟩ := tracked
      exact ⟨ss', tracked.handleKey_other other _ _ _ _ _⟩
  | repeated tap =>
      rw [if_pos rfl]
      exact ⟨ss, tracks⟩
  | tapped on _ up =>
      rw [if_pos rfl]
      have still : Dict.get (handleKey s k true false keystr (-1) "").sources client = some old := by
        rw [(handleKey_frame s k true false keystr (-1) "").sources, found]
      refine (tracks.handleKey_other other true false keystr (-1) "").setSource_any still rfl ?_
      intro same
      rw [Dict.mem_keys_set]
      exact or_iff_right fun here => apart ⟨same, here.symm⟩

/-- The packet is delivered, once the focus is where it should be. -/
theorem keyAction_tracked (tracks : Tracks key s held ss) {client : Nat} {packet : KeyAction} {a : Answers}
    (steady : Steady key ⟨s, held⟩ (.keyAction client packet a)) :
    (∃ ss', Tracks key (processKeyAction s client packet a)
        (holds key held (.keyAction client packet a)) ss') ∧
      (Ours key client packet →
        (held = false → packet.pressed = true → (processKeyAction s client packet a).presses key.keycode =
          s.presses key.keycode + 1) ∧
        (held = true → packet.pressed = false → (processKeyAction s client packet a).presses key.keycode =
          s.presses key.keycode)) := by
  obtain ⟨coded, resets, action, press⟩ := steady
  -- after the change of focus
  have focused : ∃ focus, focus = (if a.resetFocus = true then clearKeysPressed s else s) ∧
      Tracks key focus held ss ∧ Frame s focus ∧ focus.presses key.keycode = s.presses key.keycode := by
    refine ⟨_, rfl, ?_⟩
    split
    · next reset =>
        exact ⟨tracks.clear (resets reset), clearKeysPressed_frame s,
          (clearKeysPressed_keys s tracks.writable).2⟩
    · exact ⟨tracks, ⟨rfl, rfl, rfl, rfl⟩, rfl⟩
  obtain ⟨focus, same, tracks', frame, count⟩ := focused
  unfold processKeyAction
  rw [tracks.writable, if_neg Bool.false_ne_true]
  by_cases ours : Ours key client packet
  · have own := coded.mpr ours
    have after : holds key held (.keyAction client packet a) = packet.pressed := if_pos ours
    have real : ¬ a.keycode < 0 := by
      rw [own]
      exact not_lt.mpr key.real
    obtain ⟨rfl, named⟩ := ours
    rw [after, tracks.client]
    dsimp only
    rw [← same, if_neg real, named]
    have handled := handleClipboardShortcut_cases focus key.client ss key.keyId
      ⟨packet.wid, packet.keyname, packet.keyval, a.keycode, packet.modifiers, a.isModifier⟩ packet.pressed
      packet.keystr a.now
    cases kind : packet.pressed with
    | true =>
        rw [kind] at handled
        obtain ⟨there, synced⟩ := press ⟨rfl, named⟩ kind
        have present : ¬ focus.windowGone packet.wid := by
          unfold KeyboardServer.windowGone
          rw [frame.windows]
          exact there
        have modes : ss.sync = true ∨ focus.imCursorEnhancedMode = false := by
          rw [frame.enhanced]
          exact synced ss tracks.client
        obtain ⟨tracked, once⟩ := press_ours tracks' own (action ⟨rfl, named⟩) present modes handled
          (if s.imCursorEnhancedMode = true ∧ true = false ∧ packet.keyname ∈ imEnterKeynames then
            (a.spaceKeycode, "space") else (a.keycode, packet.keyname)).1
          (if s.imCursorEnhancedMode = true ∧ true = false ∧ packet.keyname ∈ imEnterKeynames then
            (a.spaceKeycode, "space") else (a.keycode, packet.keyname)).2
        refine ⟨tracked, fun _ => ⟨fun unheld _ => ?_, nofun⟩⟩
        rw [once unheld, count]
    | false =>
        rw [kind] at handled
        obtain ⟨tracked, silent⟩ := release_ours tracks' own (action ⟨rfl, named⟩) handled
          (if s.imCursorEnhancedMode = true ∧ false = false ∧ packet.keyname ∈ imEnterKeynames then
            (a.spaceKeycode, "space") else (a.keycode, packet.keyname)).1
          (if s.imCursorEnhancedMode = true ∧ false = false ∧ packet.keyname ∈ imEnterKeynames then
            (a.spaceKeycode, "space") else (a.keycode, packet.keyname)).2
        refine ⟨tracked, fun _ => ⟨nofun, fun down _ => ?_⟩⟩
        rw [silent down, count]
  · have after : holds key held (.keyAction client packet a) = held := if_neg ours
    rw [after]
    refine ⟨?_, fun theirs => absurd theirs ours⟩
    have other : key.keycode ≠ a.keycode := fun own => ours (coded.mp own.symm)
    cases found : Dict.get s.sources client with
    | none => exact ⟨ss, tracks⟩
    | some old =>
        dsimp only
        rw [← same]
        split
        · exact ⟨ss, tracks'⟩
        · have handled := handleClipboardShortcut_cases focus client old packet.keyId
            ⟨packet.wid, packet.keyname, packet.keyval, a.keycode, packet.modifiers, a.isModifier⟩
            packet.pressed packet.keystr a.now
          have still : Dict.get focus.sources client = some old := by rw [frame.sources, found]
          exact deliver_other tracks' still ours other handled _ _ _

/-- The invariant is kept by everything that is steady for the key. -/
theorem act_tracked (tracks : Tracks key s held ss) {a : Action} (steady : Steady key ⟨s, held⟩ a) :
    ∃ ss', Tracks key (act s a) (holds key held a) ss' := by
  cases a with
  | keyAction client packet a => exact (keyAction_tracked tracks steady).1
  | keyRepeat client =>
      refine ⟨ss, tracks.congr ?_ ?_ ?_⟩
      · simp only [act, processKeyRepeat]
        split
        · exact ⟨rfl, rfl, rfl, rfl⟩
        · split
          · exact ⟨rfl, rfl, rfl, rfl⟩
          · exact ⟨rfl, rfl, rfl, rfl⟩
      · simp only [act, processKeyRepeat]
        split
        · rfl
        · split
          · rfl
          · rfl
      · simp only [act, processKeyRepeat]
        split
        · exact id
        · split
          · exact id
          · exact id
  | syncEnabled client sync =>
      simp only [act, processKeyboardSyncEnabledStatus, tracks.writable, if_neg Bool.false_ne_true]
      cases found : Dict.get s.sources client with
      | none => exact ⟨ss, tracks⟩
      | some old => exact tracks.setSource_any found rfl fun _ => Iff.rfl
  | timeout timer k delay now =>
      have fired : Tracks key { s with timers := s.timers.remove timer, keyRepeatTimer := 0 } held ss :=
        ⟨tracks.client, tracks.writable, tracks.up, tracks.down, tracks.tapped⟩
      simp only [act, keyRepeatTimeout, holds]
      by_cases own : key.keycode = k.keycode
      · have real : 0 ≤ k.keycode := own ▸ key.real
        have frame := handleKey_frame { s with timers := s.timers.remove timer, keyRepeatTimer := 0 } k false
          true "" (-1) ""
        have up := (handleKey_release (k := k.keycode)
          (s := { s with timers := s.timers.remove timer, keyRepeatTimer := 0 }) real true "" (-1) "").1
        rw [← own] at up
        refine ⟨ss, by rw [frame.sources, tracks.client], by rw [frame.readonly, tracks.writable], ?_, ?_, ?_⟩
        · intro unheld
          exact ⟨up, (tracks.up unheld).2⟩
        · intro _ _
          exact .inr (.inl (Dict.mem_keys_set.mpr (.inl own)))
        · intro tap
          exact ⟨up, (tracks.tapped tap).2⟩
      · have handled := fired.handleKey_other own false true "" (-1) ""
        exact ⟨ss, handled.congr ⟨rfl, rfl, rfl, rfl⟩ Iff.rfl fun late => Dict.mem_keys_set.mpr (.inr late)⟩
  | clear => exact ⟨ss, tracks.clear steady⟩
  | setRepeat delay interval => exact ⟨ss, tracks.congr ⟨rfl, rfl, rfl, rfl⟩ Iff.rfl id⟩
  | join client shortcutTap sync => exact ⟨ss, tracks.setSource_other steady _⟩
  | leave client =>
      refine ⟨ss, ?_, tracks.writable, tracks.up, tracks.down, tracks.tapped⟩
      simp only [act]
      rw [Dict.get_erase, if_neg steady, tracks.client]
  | windows windows => exact ⟨ss, tracks.client, tracks.writable, tracks.up, tracks.down, tracks.tapped⟩

end

/-! ### Every run -/

/-- While no other key has its keycode, whatever other keys and clients do, and however the timers fire:
the first press of a key types it once, and its release types nothing. -/
theorem key_typed_once {key : ClientKey} {t t' : Typing} {packet : KeyAction} {a : Answers}
    (run : Reachable (Starts key) (Types key) t)
    (taken : Types key t (.keyAction key.client packet a) t') (ours : packet.keyId = key.keyId) :
    (t.held = false → packet.pressed = true →
      t'.server.presses key.keycode = t.server.presses key.keycode + 1) ∧
    (t.held = true → packet.pressed = false →
      t'.server.presses key.keycode = t.server.presses key.keycode) := by
  have first (t : Typing) (first : Starts key t) : ∃ ss, Tracks key t.server t.held ss := by
    obtain ⟨unheld, writable, up, ss, client, untapped⟩ := first
    refine ⟨ss, client, writable, fun _ => ⟨up, ?_⟩, ?_, ?_⟩
    · rw [untapped]
      exact List.not_mem_nil
    · intro down
      rw [unheld] at down
      cases down
    · intro tap
      rw [untapped] at tap
      cases tap
  have tracked : ∃ ss, Tracks key t.server t.held ss := by
    refine run.invariant first fun t a t' kept taken => ?_
    obtain ⟨ss, tracks⟩ := kept
    obtain ⟨steady, -, rfl⟩ := taken
    exact act_tracked tracks steady
  obtain ⟨ss, tracks⟩ := tracked
  obtain ⟨steady, -, rfl⟩ := taken
  exact (keyAction_tracked tracks steady).2 ⟨rfl, ours⟩

/-- The key of the letter. -/
def letterKey : ClientKey := ⟨1, (38, "a"), 38, Int.natCast_nonneg 38⟩

/-- The letter is pressed, and then released. -/
theorem key_typed_once_letter : ∃ t t' : Typing, t.held = true ∧ t.server.presses 38 = 1 ∧
    t'.held = false ∧ t'.server.presses 38 = t.server.presses 38 := by
  have start : Starts letterKey ⟨act typist (.join 1 false true), false⟩ :=
    ⟨rfl, rfl, List.not_mem_nil, _, rfl, rfl⟩
  have there : ¬ typist.windowGone 1 := by decide
  have pressed : Types letterKey ⟨act typist (.join 1 false true), false⟩
      (.keyAction 1 (letter true) mapped)
      ⟨act (act typist (.join 1 false true)) (.keyAction 1 (letter true) mapped), true⟩ := by
    refine ⟨⟨⟨fun _ => ⟨rfl, rfl⟩, fun _ => rfl⟩, nofun, fun _ => rfl, fun _ _ => ⟨there, ?_⟩⟩, trivial, rfl⟩
    intro ss client
    cases client
    exact .inl rfl
  have released : Types letterKey
      ⟨act (act typist (.join 1 false true)) (.keyAction 1 (letter true) mapped), true⟩
      (.keyAction 1 (letter false) mapped)
      ⟨act (act (act typist (.join 1 false true)) (.keyAction 1 (letter true) mapped))
        (.keyAction 1 (letter false) mapped), false⟩ :=
    ⟨⟨⟨fun _ => ⟨rfl, rfl⟩, fun _ => rfl⟩, nofun, fun _ => rfl, nofun⟩, trivial, rfl⟩
  have run := Reachable.next (.start start) pressed
  exact ⟨_, _, rfl, rfl, rfl, (key_typed_once run released rfl).2 rfl rfl⟩

/-- Without keyboard sync the letter is typed by its press, and again by its release. -/
theorem unsynced_key_typed_twice : ∃ s : KeyboardServer, Reachable initial step s ∧
    s = act (act (act typist (.join 1 false false)) (.keyAction 1 (letter true) mapped))
      (.keyAction 1 (letter false) mapped) ∧
    s.faked = [(38, true), (38, false), (38, true), (38, false)] := by
  have joined : Reachable initial step (act typist (.join 1 false false)) :=
    .next (a := Action.join 1 false false) (.start ⟨false, true, [1], rfl⟩) ⟨trivial, rfl⟩
  have pressed := joined.next (a := Action.keyAction 1 (letter true) mapped) ⟨trivial, rfl⟩
  exact ⟨_, pressed.next (a := Action.keyAction 1 (letter false) mapped) ⟨trivial, rfl⟩, rfl, by decide⟩

end Catlink.Keyboard
