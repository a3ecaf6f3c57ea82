import Catlink.Lib.Dict
import Catlink.Lib.MainLoop
import Catlink.Lib.Presses
import Catlink.Lib.Runs
import Catlink.Python

/-! The keyboard of a server: the keys that its clients press, and what is pressed for them. Times are
in milliseconds. -/

namespace Catlink.Keyboard

open MainLoop Presses Runs

/-! ### Names -/

/-- `name.lower()`, of the name of a key -/
def lower (name : String) : String := String.ofList (name.toList.map Char.toLower)

/-- `CATLINK_IM_ENTER_KEYNAMES` -/
def imEnterKeynames : List String := ["Return", "KP_Enter", "ISO_Enter"]

/-- `catlink_clipboard_shortcut_key`: the modifiers are a set -/
def clipboardShortcutKey (name : String) (modifiers : List String) : String :=
  let active := modifiers.filter (· ∉ ["lock", "mod2"])
  if lower name ∈ ["c", "v", "x"] ∧ "control" ∈ active ∧ ∀ modifier ∈ active, modifier = "control" then
    lower name
  else ""

/-- `catlink_im_synthetic_tap_kind` -/
def imSyntheticTapKind (name keystr : String) : String :=
  if name ∈ imEnterKeynames then "space"
  else
    match keystr.toList with
    | [c] => if c.isAlphanum = true ∨ c = ' ' then "same" else ""
    | _ => ""

/-! ### The server -/

/-- The keyboard of a client connection. -/
structure Source where
  /-- `catlink_clipboard_shortcut_tap` -/
  shortcutTap : Bool
  /-- `catlink_clipboard_shortcut_keys`: when the key was tapped, by its keycode and its name -/
  shortcutKeys : List ((Nat × String) × Int) := []
  /-- `keyboard_config.sync` -/
  sync : Bool

/-- A key, with what `_handle_key` is told of it. -/
structure Key where
  wid : Int
  name : String
  keyval : Nat
  keycode : Int
  modifiers : List String
  isMod : Bool

structure KeyboardServer where
  readonly : Bool
  /-- `CATLINK_IM_CURSOR_ENHANCED_MODE` -/
  imCursorEnhancedMode : Bool
  keyRepeatDelay : Int := -1
  keyRepeatInterval : Int := -1
  keysPressed : List (Int × String) := []
  keysTimedout : List (Int × Int) := []
  keyRepeatTimer : Nat := 0
  /-- the calls of `_key_repeat_timeout`, with the key and its delay -/
  timers : Sources (Key × Int) := .start
  /-- the keys of `_id_to_window` -/
  windows : List Int
  sources : List (Nat × Source) := []
  /-- the calls of `press_key` of the keyboard device -/
  faked : List (Int × Bool) := []
  /-- the exceptions that ended the processing of a packet -/
  raised : List Exn := []

namespace KeyboardServer

def setSource (s : KeyboardServer) (client : Nat) (ss : Source) : KeyboardServer :=
  { s with sources := Dict.set s.sources client ss }

/-- `press` of `_handle_key` -/
def press (s : KeyboardServer) (keycode : Int) (name : String) : KeyboardServer :=
  { s with
    keysPressed := Dict.set s.keysPressed keycode name
    faked := s.faked ++ [(keycode, true)] }

/-- `unpress` of `_handle_key` -/
def unpress (s : KeyboardServer) (keycode : Int) : KeyboardServer :=
  { s with
    keysPressed := Dict.erase s.keysPressed keycode
    faked := s.faked ++ [(keycode, false)] }

/-- `tap` of `_handle_key` -/
def tap (s : KeyboardServer) (tapKeycode : Int) (tapName : String) : KeyboardServer :=
  (s.press tapKeycode tapName).unpress tapKeycode

end KeyboardServer

def cancelKeyRepeatTimer (s : KeyboardServer) : KeyboardServer :=
  if s.keyRepeatTimer = 0 then s
  else { s with timers := s.timers.remove s.keyRepeatTimer, keyRepeatTimer := 0 }

/-- `_key_repeat` -/
def keyRepeat (s : KeyboardServer) (key : Key) (pressed : Bool) (delayMs : Int) : KeyboardServer :=
  let s := cancelKeyRepeatTimer s
  if pressed = true then
    { s with
      keyRepeatTimer := s.timers.next
      timers := s.timers.add (key, min 1500 (max 250 delayMs)) }
  else s

/-- There is no such window any more. -/
def KeyboardServer.windowGone (s : KeyboardServer) (wid : Int) : Prop := wid ≠ 0 ∧ wid ∉ s.windows

instance (s : KeyboardServer) (wid : Int) : Decidable (s.windowGone wid) :=
  inferInstanceAs (Decidable (_ ∧ _))

/-- The key that is typed for a release without a press, if there is one: the input method of the
client may have kept the press for itself. -/
def syntheticTap (s : KeyboardServer) (key : Key) (keyTimedout : Bool) (keystr : String)
    (syntheticKeycode : Int) (syntheticKeyname : String) : Option (Int × String) :=
  let tapKind := imSyntheticTapKind key.name keystr
  let tap := if tapKind = "space" then (syntheticKeycode, syntheticKeyname) else (key.keycode, key.name)
  if s.imCursorEnhancedMode = true ∧ keyTimedout = false ∧ key.isMod = false ∧ ¬ s.windowGone key.wid ∧
      key.modifiers.filter (· ∉ ["lock", "mod2"]) = [] ∧ tapKind ≠ "" ∧ 0 < tap.1 ∧
      tap.1 ∉ s.keysPressed.map Prod.fst then
    some tap
  else none

/-- The key is pressed, released, or tapped. -/
def strike (s : KeyboardServer) (key : Key) (pressed sync keyTimedout : Bool) (keystr : String)
    (syntheticKeycode : Int) (syntheticKeyname : String) : KeyboardServer :=
  if pressed = true then
    if key.keycode ∉ s.keysPressed.map Prod.fst then
      let s := s.press key.keycode key.name
      -- the client manages the repeats, except those of modifiers
      if sync = false ∧ key.isMod = false then s.unpress key.keycode else s
    else s
  else if key.keycode ∈ s.keysPressed.map Prod.fst then s.unpress key.keycode
  else
    match syntheticTap s key keyTimedout keystr syntheticKeycode syntheticKeyname with
    | some tap => s.tap tap.1 tap.2
    | none => s

/-- `_handle_key` -/
def handleKey (s : KeyboardServer) (key : Key) (pressed sync : Bool) (keystr : String)
    (syntheticKeycode : Int) (syntheticKeyname : String) : KeyboardServer :=
  if pressed = true ∧ s.windowGone key.wid then s
  else if key.keycode < 0 then s
  else
    let keyTimedout := decide (key.keycode ∈ s.keysTimedout.map Prod.fst)
    let s := { s with keysTimedout := Dict.erase s.keysTimedout key.keycode }
    let s := strike s key pressed sync keyTimedout keystr syntheticKeycode syntheticKeyname
    if key.isMod = false ∧ sync = true ∧ 0 < s.keyRepeatDelay ∧ 0 < s.keyRepeatInterval then
      keyRepeat s key pressed s.keyRepeatDelay
    else s

/-- `_key_repeat_timeout`, from the timer with this number -/
def keyRepeatTimeout (s : KeyboardServer) (timer : Nat) (key : Key) (now : Int) : KeyboardServer :=
  let s := { s with timers := s.timers.remove timer, keyRepeatTimer := 0 }
  let s := handleKey s key false true "" (-1) ""
  { s with keysTimedout := Dict.set s.keysTimedout key.keycode now }

def clearKeysPressed (s : KeyboardServer) : KeyboardServer :=
  if s.readonly = true then s
  else
    let s := cancelKeyRepeatTimer s
    { s with
      faked := s.faked ++ s.keysPressed.map fun entry => (entry.1, false)
      keysPressed := [] }

/-! ### Packets -/

/-- A `key-action` packet. -/
structure KeyAction where
  wid : Int
  keyname : String
  pressed : Bool
  modifiers : List String
  keyval : Nat
  keystr : String
  clientKeycode : Nat
  group : Nat

/-- What others answer while the packet is processed. -/
structure Answers where
  /-- `get_keycode(..)` -/
  keycode : Int
  /-- `get_keycode(..)` of the space key -/
  spaceKeycode : Int
  isModifier : Bool
  /-- `_focus(..)` takes the focus away from all windows -/
  resetFocus : Bool
  /-- `monotonic()` -/
  now : Int

/-- `key_id` -/
def KeyAction.keyId (packet : KeyAction) : Nat × String := (packet.clientKeycode, lower packet.keyname)

/-- `catlink_handle_clipboard_shortcut`; true if nothing is left to be done -/
def handleClipboardShortcut (s : KeyboardServer) (client : Nat) (ss : Source) (keyId : Nat × String)
    (key : Key) (pressed : Bool) (keystr : String) (now : Int) : KeyboardServer × Bool :=
  if ss.shortcutTap = false ∨ key.isMod = true then (s, false)
  else
    let forget := { ss with shortcutKeys := Dict.erase ss.shortcutKeys keyId }
    if pressed = false then
      if (Dict.get ss.shortcutKeys keyId).isSome then (s.setSource client forget, true) else (s, false)
    else if clipboardShortcutKey key.name key.modifiers = "" ∨ key.keycode ∈ s.keysPressed.map Prod.fst ∨
        s.windowGone key.wid then
      (s.setSource client forget, false)
    -- the release may have been lost
    else if (Dict.get ss.shortcutKeys keyId).any (fun tapped => now - tapped < 60000) = true then (s, true)
    else
      -- the action key is not held down while its release is delayed
      ((handleKey s key true false keystr (-1) "").setSource client
        { ss with shortcutKeys := Dict.set ss.shortcutKeys keyId now }, true)

/-- `_process_key_action`, without what `make_keymask_match` does to the modifier keys -/
def processKeyAction (s : KeyboardServer) (client : Nat) (packet : KeyAction) (a : Answers) :
    KeyboardServer :=
  if s.readonly = true then s
  else
    match Dict.get s.sources client with
    | none => s
    | some ss =>
        let synthetic :=
          if s.imCursorEnhancedMode = true ∧ packet.pressed = false ∧ packet.keyname ∈ imEnterKeynames then
            (a.spaceKeycode, "space")
          else (a.keycode, packet.keyname)
        let s := if a.resetFocus = true then clearKeysPressed s else s
        -- negative keycodes are events without a key
        if a.keycode < 0 then s
        else
          let key : Key := ⟨packet.wid, packet.keyname, packet.keyval, a.keycode, packet.modifiers, a.isModifier⟩
          let handled :=
            handleClipboardShortcut s client ss packet.keyId key packet.pressed packet.keystr a.now
          if handled.2 = true then handled.1
          else handleKey handled.1 key packet.pressed ss.sync packet.keystr synthetic.1 synthetic.2

/-- `_process_key_repeat`: `get_keycode` is called without `pressed` -/
def processKeyRepeat (s : KeyboardServer) (client : Nat) : KeyboardServer :=
  if s.readonly = true then s
  else if (Dict.get s.sources client).isNone then s
  else
    { s with
      raised := s.raised ++ [.typeError
        "KeyboardConnection.get_keycode() missing 1 required positional argument: 'group'"] }

/-- `_process_keyboard_sync_enabled_status` -/
def processKeyboardSyncEnabledStatus (s : KeyboardServer) (client : Nat) (sync : Bool) : KeyboardServer :=
  if s.readonly = true then s
  else
    match Dict.get s.sources client with
    | none => s
    | some ss => s.setSource client { ss with sync := sync }

def setKeyboardRepeat (s : KeyboardServer) (delay interval : Int) : KeyboardServer :=
  { s with keyRepeatDelay := delay, keyRepeatInterval := interval }

/-! ### Runs -/

inductive Action
  | keyAction (client : Nat) (packet : KeyAction) (a : Answers)
  | keyRepeat (client : Nat)
  | syncEnabled (client : Nat) (sync : Bool)
  /-- a timer fires -/
  | timeout (timer : Nat) (key : Key) (delay now : Int)
  /-- `clear_keys_pressed`, of the last client, of the focus, or of `cleanup` -/
  | clear
  | setRepeat (delay interval : Int)
  /-- a client connects -/
  | join (client : Nat) (shortcutTap sync : Bool)
  | leave (client : Nat)
  | windows (windows : List Int)

def initial (s : KeyboardServer) : Prop :=
  ∃ readonly enhanced windows, s = { readonly := readonly, imCursorEnhancedMode := enhanced, windows := windows }

def act (s : KeyboardServer) : Action → KeyboardServer
  | .keyAction client packet a => processKeyAction s client packet a
  | .keyRepeat client => processKeyRepeat s client
  | .syncEnabled client sync => processKeyboardSyncEnabledStatus s client sync
  | .timeout timer key _ now => keyRepeatTimeout s timer key now
  | .clear => clearKeysPressed s
  | .setRepeat delay interval => setKeyboardRepeat s delay interval
  | .join client shortcutTap sync => s.setSource client { shortcutTap := shortcutTap, sync := sync }
  | .leave client => { s with sources := Dict.erase s.sources client }
  | .windows windows => { s with windows := windows }

/-- Only a timer that is armed fires. -/
def Enabled (s : KeyboardServer) : Action → Prop
  | .timeout timer key delay _ => (timer, key, delay) ∈ s.timers.sources
  | _ => True

def step (s : KeyboardServer) (a : Action) (s' : KeyboardServer) : Prop := Enabled s a ∧ s' = act s a

/-! ### The device -/

/-- The keys that the calls of `press_key` leave down are those of `keys_pressed`. -/
def Mirrored (s : KeyboardServer) : Prop := played [] s.faked = some (s.keysPressed.map Prod.fst)

variable {s : KeyboardServer}

theorem Mirrored.distinct (mirrored : Mirrored s) : (s.keysPressed.map Prod.fst).Nodup :=
  played_nodup List.nodup_nil mirrored

theorem Mirrored.press (mirrored : Mirrored s) {keycode : Int} (up : keycode ∉ s.keysPressed.map Prod.fst)
    (name : String) : Mirrored (s.press keycode name) := by
  have played := press_up up
  unfold Mirrored KeyboardServer.press
  rw [played_append, mirrored, Option.bind_some, played, Dict.set_keys, if_neg up]

theorem Mirrored.unpress (mirrored : Mirrored s) {keycode : Int}
    (held : keycode ∈ s.keysPressed.map Prod.fst) : Mirrored (s.unpress keycode) := by
  have played := release_down held
  unfold Mirrored KeyboardServer.unpress
  rw [played_append, mirrored, Option.bind_some, played, Dict.erase, List.filter_map]
  rfl

theorem Mirrored.tap (mirrored : Mirrored s) {keycode : Int} (up : keycode ∉ s.keysPressed.map Prod.fst)
    (name : String) : Mirrored (s.tap keycode name) :=
  (mirrored.press up name).unpress (Dict.mem_keys_set.mpr (.inl rfl))

theorem syntheticTap_up {key : Key} {keyTimedout : Bool} {keystr syntheticKeyname : String}
    {syntheticKeycode : Int} {tap : Int × String}
    (taps : syntheticTap s key keyTimedout keystr syntheticKeycode syntheticKeyname = some tap) :
    tap.1 ∉ s.keysPressed.map Prod.fst := by
  obtain ⟨allowed, same⟩ := Option.ite_none_right_eq_some.mp taps
  cases same
  exact allowed.2.2.2.2.2.2.2

/-- One window, and releases are typed where the input method of the client kept the press. -/
def typist : KeyboardServer where
  readonly := false
  imCursorEnhancedMode := true
  windows := [1]

/-- The letter, and what it is at the server. -/
def letter (pressed : Bool) : KeyAction := ⟨1, "a", pressed, [], 97, "a", 38, 0⟩

def mapped : Answers := ⟨38, 65, false, false, 0⟩

end Catlink.Keyboard
