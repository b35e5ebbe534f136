import PalmWebKit.Logic.Runs

/-!
# Sticky keys

`EditorStickyState` turns key events into shifted and optional characters.  It
holds one node for each of its states, with flags that are cleared only while
a dirty bit says that some may be set.
-/

namespace PalmWebKit
namespace Editing

inductive StickyState
  | normal
  | shiftSingleHidden
  | shiftSingle
  | shiftLock
  | numSingle
  | numLock
  deriving DecidableEq, Repr

inductive TextCaretType
  | normal
  | circle
  | disc
  | arrow
  | arrowFilled
  deriving DecidableEq, Repr

/-- What becomes of the key; the bits of the mask are never combined. -/
inductive Transition
  | normal
  | blockKey
  | retainPreviousState
  deriving DecidableEq, Repr

/-- `KeyStateNode`, less the state it stands for. -/
structure KeyStateNode where
  prevState : StickyState
  punctuationAssert : Bool
  spaceAssert : Bool
  deriving DecidableEq, Repr

/-- A row of the key map of the device. -/
structure KeyMapRow where
  normal : UInt16
  shift : UInt16
  opt : UInt16
  deriving DecidableEq, Repr

/-- The key codes and the key map of the device, with `u_isalpha` and
`u_toupper`. -/
structure Keyboard where
  keyShift : Nat
  keyAlt : Nat
  keyReturn : Nat
  keyBackspace : Nat
  keySpace : Nat
  keyPageUp : Nat
  keyPageDown : Nat
  keyPeriod : Nat
  keyExclamation : Nat
  keyQuestion : Nat
  deviceKeymap : List KeyMapRow
  isAlpha : UInt16 → Bool
  toUpper : UInt16 → UInt16

namespace Keyboard

variable (keyboard : Keyboard)

def isMetaKey (key : UInt16) : Prop := key.toNat = keyboard.keyShift ∨ key.toNat = keyboard.keyAlt

def isControlKey (key : UInt16) : Prop :=
  key.toNat = keyboard.keyReturn ∨ key.toNat = keyboard.keyBackspace ∨
    key.toNat = keyboard.keySpace ∨ key.toNat = keyboard.keyPageUp ∨
    key.toNat = keyboard.keyPageDown

instance (key : UInt16) : Decidable (keyboard.isMetaKey key) := inferInstanceAs (Decidable (_ ∨ _))

instance (key : UInt16) : Decidable (keyboard.isControlKey key) :=
  inferInstanceAs (Decidable (_ ∨ _))

def modWithShift (key : UInt16) : UInt16 :=
  match keyboard.deviceKeymap.find? (·.normal = key) with
  | some row => row.shift
  | none => keyboard.toUpper key

def modWithOpt (key : UInt16) : UInt16 :=
  match keyboard.deviceKeymap.find? (·.normal = key) with
  | some row => row.opt
  | none => key

/-- `modifyKeyEvent` under a held meta key; the walk goes on behind a row that
was found. -/
def modifyKeyEvent (metaKey key : UInt16) : UInt16 :=
  if metaKey.toNat = keyboard.keyShift then
    keyboard.deviceKeymap.foldl
      (fun keyCode row => if row.normal = keyCode then row.shift else keyCode) key
  else if metaKey.toNat = keyboard.keyAlt then
    keyboard.deviceKeymap.foldl
      (fun keyCode row => if row.normal = keyCode then row.opt else keyCode) key
  else key

end Keyboard

def isStateShiftVariant : StickyState → Bool
  | .shiftSingleHidden => true
  | .shiftSingle => true
  | .shiftLock => true
  | _ => false

def isStateNumVariant : StickyState → Bool
  | .numSingle => true
  | .numLock => true
  | _ => false

def textCaretType : StickyState → TextCaretType
  | .normal => .normal
  | .shiftSingleHidden => .normal
  | .shiftSingle => .arrow
  | .shiftLock => .arrowFilled
  | .numSingle => .circle
  | .numLock => .disc

structure EditorStickyState where
  key : UInt16
  titleCaseEnabled : Bool
  steFeatures : Bool
  singleAndLockStatesEnabled : Bool
  prevRawKeyCode : UInt16
  previousKeyState : Option StickyState
  currentKeyState : StickyState
  states : StickyState → KeyStateNode
  dirtyBit : Bool

/-- The calls on the sticky state.  A key event carries whether there is an
editor client and whether it can undo an automatic replacement. -/
inductive StickyEvent
  | feedKeyEvent
      (isKeyDown : Bool)
      (key modifier : UInt16)
      (canUndoAutoReplace : Option Bool)
  | reset (state : StickyState)
  | setKeyState (state : StickyState)
  | setStateNumLock
  | setStateShiftLock
  | setStateNumSingle
  | setStateShiftSingle
  | enableSmartTextFeatures (state : StickyState)
  | disableSmartTextFeatures
  | enableTitleCase
  | disableTitleCase
  | enableSingleAndLockStates (enable : Bool)
  | undidPreviousAutocap
  deriving DecidableEq, Repr

namespace EditorStickyState

/-! ## Nodes and flags -/

def updateNode (editor : EditorStickyState) (state : StickyState)
    (update : KeyStateNode → KeyStateNode) : EditorStickyState :=
  { editor with
    states := Function.update editor.states state (update (editor.states state)) }

def setPunctuationAssert (editor : EditorStickyState) (state : StickyState) : EditorStickyState :=
  editor.updateNode state ({ · with punctuationAssert := true })

def clearPunctuationAssert (editor : EditorStickyState) (state : StickyState) : EditorStickyState :=
  editor.updateNode state ({ · with punctuationAssert := false })

def setSpaceAssert (editor : EditorStickyState) (state : StickyState) : EditorStickyState :=
  editor.updateNode state ({ · with spaceAssert := true })

def clearSpaceAssert (editor : EditorStickyState) (state : StickyState) : EditorStickyState :=
  editor.updateNode state ({ · with spaceAssert := false })

def setStateDirtyBit (editor : EditorStickyState) : EditorStickyState :=
  { editor with dirtyBit := true }

def resetPreviousRawKeyCode (editor : EditorStickyState) : EditorStickyState :=
  { editor with prevRawKeyCode := 0 }

/-- `getState`, which notes in the node what state it is reached from. -/
def getState (editor : EditorStickyState) (state prevState : StickyState) : EditorStickyState :=
  editor.updateNode state ({ · with prevState := prevState })

def clearAllStateFlags (editor : EditorStickyState) : EditorStickyState :=
  if editor.dirtyBit then
    { editor with
      states := fun state =>
        { editor.states state with punctuationAssert := false, spaceAssert := false }
      dirtyBit := false }
  else editor

def setKeyState (editor : EditorStickyState) (state : StickyState) : EditorStickyState :=
  let editor := editor.clearAllStateFlags
  { editor with currentKeyState := if editor.steFeatures then state else .normal }

def reset (editor : EditorStickyState) (resetState : StickyState) : EditorStickyState :=
  let editor := ({ editor with key := 0 } : EditorStickyState).setKeyState resetState
  { editor with previousKeyState := none, prevRawKeyCode := 0 }

/-- The constructor. -/
def new (enabled : Bool) : EditorStickyState :=
  reset
    { key := 0
      titleCaseEnabled := false
      steFeatures := enabled
      singleAndLockStatesEnabled := true
      prevRawKeyCode := 0
      previousKeyState := none
      currentKeyState := .normal
      states := fun _ => ⟨.normal, false, false⟩
      dirtyBit := true } .normal

/-- `setStateNumLock` and the like. -/
def setState (editor : EditorStickyState) (state : StickyState) : EditorStickyState :=
  if editor.singleAndLockStatesEnabled then
    let editor := editor.clearPunctuationAssert editor.currentKeyState
    let editor := editor.clearSpaceAssert editor.currentKeyState
    { editor with currentKeyState := state }
  else editor

def setStateNumLock (editor : EditorStickyState) : EditorStickyState := editor.setState .numLock

def setStateShiftLock (editor : EditorStickyState) : EditorStickyState := editor.setState .shiftLock

def setStateNumSingle (editor : EditorStickyState) : EditorStickyState := editor.setState .numSingle

def setStateShiftSingle (editor : EditorStickyState) : EditorStickyState :=
  editor.setState .shiftSingle

def undidPreviousAutocap (editor : EditorStickyState) : EditorStickyState :=
  { editor with previousKeyState := none, prevRawKeyCode := 0 }

def disableSmartTextFeatures (editor : EditorStickyState) : EditorStickyState :=
  ({ editor with steFeatures := false, titleCaseEnabled := false } :
    EditorStickyState).reset .normal

def enableSmartTextFeatures (editor : EditorStickyState)
    (resetState : StickyState) : EditorStickyState :=
  ({ editor with steFeatures := true } : EditorStickyState).reset resetState

def enableTitleCase (editor : EditorStickyState) : EditorStickyState :=
  ({ editor with titleCaseEnabled := true } : EditorStickyState).reset .normal

def disableTitleCase (editor : EditorStickyState) : EditorStickyState :=
  ({ editor with titleCaseEnabled := false } : EditorStickyState).reset .normal

def enableSingleAndLockStates (editor : EditorStickyState) (enable : Bool) : EditorStickyState :=
  ({ editor with singleAndLockStatesEnabled := enable } : EditorStickyState).reset .normal

/-! ## Transitions on a key down -/

variable (keyboard : Keyboard)

def isTerminalPunctuationKey (editor : EditorStickyState) (key : UInt16) : Prop :=
  let key := keyboard.modifyKeyEvent editor.key key
  key.toNat = keyboard.keyReturn ∨ key.toNat = keyboard.keyPeriod ∨
    key.toNat = keyboard.keyExclamation ∨ key.toNat = keyboard.keyQuestion

instance (editor : EditorStickyState) (key : UInt16) :
    Decidable (editor.isTerminalPunctuationKey keyboard key) := inferInstanceAs (Decidable (_ ∨ _))

def didAutocapPreviousKeypress (editor : EditorStickyState) : Prop :=
  editor.currentKeyState = .normal ∧ editor.previousKeyState = some .shiftSingleHidden ∧
    editor.prevRawKeyCode ≠ 0 ∧
    ¬ editor.isTerminalPunctuationKey keyboard editor.prevRawKeyCode

instance (editor : EditorStickyState) :
    Decidable (editor.didAutocapPreviousKeypress keyboard) := inferInstanceAs (Decidable (_ ∧ _))

/-- Leave a transition for a state. -/
def goTo (editor : EditorStickyState) (state prevState : StickyState)
    (transition : Transition) : EditorStickyState × StickyState × Transition :=
  (editor.getState state prevState, state, transition)

/-- `KeyStateNode_Normal::transition` -/
def transitionNormal (editor : EditorStickyState)
    (key : UInt16) : EditorStickyState × StickyState × Transition :=
  if editor.singleAndLockStatesEnabled ∧ key.toNat = keyboard.keyShift then
    editor.goTo .shiftSingle .normal .normal
  else if editor.singleAndLockStatesEnabled ∧ key.toNat = keyboard.keyAlt then
    editor.goTo .numSingle .normal .normal
  else if editor.steFeatures = false then
    editor.goTo .normal .normal .normal
  else if key.toNat = keyboard.keyReturn then
    editor.goTo .shiftSingleHidden .normal .normal
  else if editor.isTerminalPunctuationKey keyboard key then
    ((editor.setPunctuationAssert .normal).setStateDirtyBit).goTo
      .normal .normal .normal
  else if editor.titleCaseEnabled ∧ key.toNat = keyboard.keySpace then
    let (editor, nextState, transition) :=
      (editor.clearPunctuationAssert .normal).goTo .shiftSingleHidden .normal .normal
    -- the dirty bit stays as it is
    (editor.setSpaceAssert nextState, nextState, transition)
  else if (editor.states .normal).punctuationAssert ∧ key.toNat = keyboard.keySpace then
    let (editor, nextState, transition) :=
      (editor.clearPunctuationAssert .normal).goTo .shiftSingleHidden .normal .normal
    (editor.setSpaceAssert nextState, nextState, transition)
  else if key.toNat = keyboard.keyBackspace ∧ editor.didAutocapPreviousKeypress keyboard then
    (editor.clearSpaceAssert .normal).goTo .normal .normal .retainPreviousState
  else
    (editor.clearPunctuationAssert .normal).goTo .normal .normal .normal

/-- `KeyStateNode_ShiftSingleHidden::transition` -/
def transitionShiftSingleHidden (editor : EditorStickyState)
    (key : UInt16) : EditorStickyState × StickyState × Transition :=
  if editor.singleAndLockStatesEnabled ∧ key.toNat = keyboard.keyShift then
    editor.goTo .shiftSingle .shiftSingleHidden .normal
  else if editor.singleAndLockStatesEnabled ∧ key.toNat = keyboard.keyAlt then
    editor.goTo .numSingle .shiftSingleHidden .normal
  else if editor.steFeatures = false then
    editor.goTo .normal .shiftSingleHidden .normal
  else if key.toNat = keyboard.keyReturn then
    editor.goTo .shiftSingleHidden .shiftSingleHidden .normal
  else if key.toNat = keyboard.keySpace then
    ((editor.setSpaceAssert .shiftSingleHidden).setStateDirtyBit).goTo
      .shiftSingleHidden .shiftSingleHidden .normal
  else
    let editor := editor.resetPreviousRawKeyCode
    if (editor.states .shiftSingleHidden).spaceAssert ∧ key.toNat = keyboard.keyBackspace then
      (editor.clearSpaceAssert .shiftSingleHidden).goTo
        .normal .shiftSingleHidden .normal
    else if key.toNat = keyboard.keyBackspace then
      (editor, editor.currentKeyState, .normal)
    else
      (editor.clearSpaceAssert .shiftSingleHidden).goTo
        .normal .shiftSingleHidden .normal

/-- `KeyStateNode_ShiftSingle::transition` -/
def transitionShiftSingle (editor : EditorStickyState)
    (key : UInt16) : EditorStickyState × StickyState × Transition :=
  if key.toNat = keyboard.keyShift then
    editor.goTo .shiftLock .shiftSingle .normal
  else if key.toNat = keyboard.keyAlt then
    editor.goTo .numSingle .shiftSingle .normal
  else if editor.steFeatures = false then
    editor.goTo .normal .shiftSingle .normal
  else if key.toNat = keyboard.keyReturn then
    let editor := (editor.getState .shiftSingle .shiftSingle).setSpaceAssert .shiftSingle
    editor.setStateDirtyBit.goTo .shiftSingle .shiftSingle .normal
  else if editor.isTerminalPunctuationKey keyboard key then
    let editor := (editor.getState .normal .shiftSingle).setPunctuationAssert .normal
    editor.setStateDirtyBit.goTo .normal .shiftSingle .normal
  else if key.toNat = keyboard.keySpace then
    ((editor.setSpaceAssert .shiftSingle).setStateDirtyBit).goTo
      .shiftSingle .shiftSingle .normal
  else if (editor.states .shiftSingle).spaceAssert ∧ key.toNat = keyboard.keyBackspace then
    (editor.clearSpaceAssert .shiftSingle).goTo .normal .shiftSingle .blockKey
  else
    (editor.clearSpaceAssert .shiftSingle).goTo .normal .shiftSingle .normal

/-- `KeyStateNode_ShiftLock::transition` -/
def transitionShiftLock (editor : EditorStickyState) (key : UInt16)
    (canUndoAutoReplace : Option Bool) : EditorStickyState × StickyState × Transition :=
  if key.toNat = keyboard.keyShift then
    editor.goTo .normal .shiftLock .normal
  else if key.toNat = keyboard.keyAlt then
    editor.goTo .numSingle .shiftLock .normal
  else if editor.steFeatures = false then
    editor.goTo .shiftLock .shiftLock .normal
  else if key.toNat = keyboard.keySpace then
    ((editor.setSpaceAssert .shiftLock).setStateDirtyBit).goTo
      .shiftLock .shiftLock .normal
  else if (editor.states .shiftLock).spaceAssert then
    if key.toNat = keyboard.keyBackspace then
      if canUndoAutoReplace = some false then
        (editor.clearSpaceAssert .shiftLock).goTo .normal .shiftLock .blockKey
      else
        editor.goTo .shiftLock .shiftLock .normal
    else
      (editor.clearSpaceAssert .shiftLock).goTo .shiftLock .shiftLock .normal
  else
    editor.goTo .shiftLock .shiftLock .normal

/-- `KeyStateNode_NumSingle::transition` -/
def transitionNumSingle (editor : EditorStickyState)
    (key : UInt16) : EditorStickyState × StickyState × Transition :=
  if key.toNat = keyboard.keyShift then
    editor.goTo .shiftSingle .numSingle .normal
  else if key.toNat = keyboard.keyAlt then
    editor.goTo .numLock .numSingle .normal
  else if editor.steFeatures = false then
    editor.goTo .normal .numSingle .normal
  else if key.toNat = keyboard.keyReturn then
    let editor := (editor.getState .shiftSingle .numSingle).setSpaceAssert .shiftSingle
    editor.setStateDirtyBit.goTo .shiftSingle .numSingle .normal
  else if editor.isTerminalPunctuationKey keyboard key then
    -- the dirty bit stays as it is
    ((editor.getState .normal .numSingle).setPunctuationAssert .normal).goTo
      .normal .numSingle .normal
  else if (editor.states .numSingle).prevState = .shiftLock ∧
      keyboard.isAlpha (keyboard.modWithOpt key) then
    editor.goTo (editor.states .numSingle).prevState .numSingle .normal
  else
    editor.goTo .normal .numSingle .normal

/-- `KeyStateNode_NumLock::transition` -/
def transitionNumLock (editor : EditorStickyState)
    (key : UInt16) : EditorStickyState × StickyState × Transition :=
  if key.toNat = keyboard.keyShift then
    editor.goTo .shiftSingle .numLock .normal
  else if key.toNat = keyboard.keyAlt then
    editor.goTo .normal .numLock .normal
  else if editor.steFeatures = false then
    editor.goTo .numLock .numLock .normal
  else if key.toNat = keyboard.keySpace then
    ((editor.setSpaceAssert .numLock).setStateDirtyBit).goTo .numLock .numLock .normal
  else if (editor.states .numLock).spaceAssert ∧ key.toNat = keyboard.keyBackspace then
    (editor.clearSpaceAssert .numLock).goTo .normal .numLock .blockKey
  else
    (editor.clearSpaceAssert .numLock).goTo .numLock .numLock .normal

def transition (editor : EditorStickyState) (key : UInt16) (canUndoAutoReplace : Option Bool) :
    EditorStickyState × StickyState × Transition :=
  match editor.currentKeyState with
  | .normal => editor.transitionNormal keyboard key
  | .shiftSingleHidden => editor.transitionShiftSingleHidden keyboard key
  | .shiftSingle => editor.transitionShiftSingle keyboard key
  | .shiftLock => editor.transitionShiftLock keyboard key canUndoAutoReplace
  | .numSingle => editor.transitionNumSingle keyboard key
  | .numLock => editor.transitionNumLock keyboard key

/-- `modifyKey` of the node of a state. -/
def modifyKey (editor : EditorStickyState) (state : StickyState) (key : UInt16) : UInt16 :=
  match state with
  | .normal => key
  | .shiftSingleHidden =>
    if keyboard.isMetaKey key ∨ keyboard.isControlKey key then key
    else keyboard.modWithShift key
  | .shiftSingle =>
    let optKey := keyboard.modWithOpt key
    if isStateNumVariant (editor.states .shiftSingle).prevState ∧ keyboard.isAlpha optKey then
      keyboard.toUpper optKey
    else keyboard.modWithShift key
  | .shiftLock => keyboard.modWithShift key
  | .numSingle | .numLock =>
    let key := keyboard.modWithOpt key
    if isStateShiftVariant (editor.states state).prevState ∧ keyboard.isAlpha key then
      keyboard.toUpper key
    else key

/-- `feedKeyEvent`, with the key it leaves and the caret it returns.  On a key
up every transition returns at once. -/
def feedKeyEvent (editor : EditorStickyState) (isKeyDown : Bool) (rawKey : UInt16)
    (canUndoAutoReplace : Option Bool) : EditorStickyState × UInt16 × TextCaretType :=
  if isKeyDown then
    let key := editor.modifyKey keyboard editor.currentKeyState rawKey
    let (moved, newState, transition) := editor.transition keyboard key canUndoAutoReplace
    let moved :=
      { moved with
        previousKeyState := some moved.currentKeyState
        currentKeyState := newState
        prevRawKeyCode :=
          if keyboard.isControlKey rawKey ∨ keyboard.isMetaKey rawKey then
            moved.prevRawKeyCode
          else rawKey }
    let moved :=
      if transition = .retainPreviousState then
        { moved with
          previousKeyState := editor.previousKeyState
          prevRawKeyCode := editor.prevRawKeyCode }
      else moved
    (moved, if transition = .blockKey then 0 else key, textCaretType moved.currentKeyState)
  else
    let key :=
      match editor.previousKeyState with
      | none => rawKey
      | some state => editor.modifyKey keyboard state rawKey
    (editor, key, textCaretType editor.currentKeyState)

def step (editor : EditorStickyState) : StickyEvent → EditorStickyState
  | .feedKeyEvent isKeyDown key _ canUndoAutoReplace =>
    (editor.feedKeyEvent keyboard isKeyDown key canUndoAutoReplace).1
  | .reset state => editor.reset state
  | .setKeyState state => editor.setKeyState state
  | .setStateNumLock => editor.setStateNumLock
  | .setStateShiftLock => editor.setStateShiftLock
  | .setStateNumSingle => editor.setStateNumSingle
  | .setStateShiftSingle => editor.setStateShiftSingle
  | .enableSmartTextFeatures state => editor.enableSmartTextFeatures state
  | .disableSmartTextFeatures => editor.disableSmartTextFeatures
  | .enableTitleCase => editor.enableTitleCase
  | .disableTitleCase => editor.disableTitleCase
  | .enableSingleAndLockStates enable => editor.enableSingleAndLockStates enable
  | .undidPreviousAutocap => editor.undidPreviousAutocap

end EditorStickyState
end Editing
end PalmWebKit
