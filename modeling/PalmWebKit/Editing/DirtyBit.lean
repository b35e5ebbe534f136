import PalmWebKit.Editing.StickyState

/-!
# The dirty bit of the sticky state

Clearing the flags of all nodes is skipped while the dirty bit is false, so the
bit has to be set whenever a flag is.  Two transitions set a flag without it.
-/

namespace PalmWebKit
namespace Editing
namespace EditorStickyState

/-- No node has a flag set. -/
def FlagsClear (editor : EditorStickyState) : Prop :=
  ∀ state, (editor.states state).spaceAssert = false ∧
    (editor.states state).punctuationAssert = false

/-- Where the dirty bit is false the flags are clear. -/
def DirtyBitSound (editor : EditorStickyState) : Prop := editor.dirtyBit = false → editor.FlagsClear

/-- The events that are there to clear all flags. -/
def Clears : StickyEvent → Prop
  | .reset _ => True
  | .setKeyState _ => True
  | .enableSmartTextFeatures _ => True
  | .disableSmartTextFeatures => True
  | .enableTitleCase => True
  | .disableTitleCase => True
  | .enableSingleAndLockStates _ => True
  | _ => False

/-- After a reset and after `setKeyState` the flags are clear. -/
def ClearedBy (keyboard : Keyboard) (editor : EditorStickyState) (event : StickyEvent) : Prop :=
  Clears event → (editor.step keyboard event).FlagsClear

/-- The key is no modifier key the normal state looks at, smart text is on, and
the key capitalizes the next word because title case is on. -/
def TitleCaseSpace (keyboard : Keyboard) (editor : EditorStickyState) (key : UInt16) : Prop :=
  (editor.singleAndLockStatesEnabled →
      key.toNat ≠ keyboard.keyShift ∧ key.toNat ≠ keyboard.keyAlt) ∧
    editor.steFeatures = true ∧
    key.toNat ≠ keyboard.keyReturn ∧
    ¬ editor.isTerminalPunctuationKey keyboard key ∧
    editor.titleCaseEnabled = true ∧
    key.toNat = keyboard.keySpace

/-- The key ends a sentence while the optional characters are on for one key. -/
def OptionalPunctuation (keyboard : Keyboard) (editor : EditorStickyState) (key : UInt16) : Prop :=
  key.toNat ≠ keyboard.keyShift ∧ key.toNat ≠ keyboard.keyAlt ∧ editor.steFeatures = true ∧
    key.toNat ≠ keyboard.keyReturn ∧
    editor.isTerminalPunctuationKey keyboard key

/-- A key down that sets a flag and leaves the dirty bit. -/
def SetsFlagSilently (keyboard : Keyboard) (editor : EditorStickyState) (key : UInt16) : Prop :=
  (editor.currentKeyState = .normal ∧ editor.TitleCaseSpace keyboard key) ∨
    (editor.currentKeyState = .numSingle ∧ editor.OptionalPunctuation keyboard key)

/-- The condition on an event: such a key down happens while the bit is set. -/
def DirtyWhereSilent (keyboard : Keyboard) (editor : EditorStickyState) : StickyEvent → Prop
  | .feedKeyEvent true key _ _ =>
    editor.SetsFlagSilently keyboard
      (editor.modifyKey keyboard editor.currentKeyState key) →
    editor.dirtyBit = true
  | _ => True

/-! ## Nodes and flags -/

section Flags

variable {editor : EditorStickyState}

@[simp] theorem dirtyBit_updateNode (state : StickyState) (update : KeyStateNode → KeyStateNode) :
    (editor.updateNode state update).dirtyBit = editor.dirtyBit := rfl

theorem DirtyBitSound.of_dirtyBit (dirty : editor.dirtyBit = true) : editor.DirtyBitSound := by
  intro clean
  rw [dirty] at clean
  cases clean

/-- An update that sets no flag keeps the dirty bit sound. -/
theorem DirtyBitSound.updateNode (sound : editor.DirtyBitSound) (state : StickyState)
    {update : KeyStateNode → KeyStateNode}
    (spaceKept : ∀ node, node.spaceAssert = false → (update node).spaceAssert = false)
    (punctuationKept : ∀ node, node.punctuationAssert = false →
      (update node).punctuationAssert = false) :
    (editor.updateNode state update).DirtyBitSound := by
  intro clean other
  have clear := sound clean other
  rw [EditorStickyState.updateNode]
  by_cases same : other = state
  · subst same
    simp only [Function.update_self]
    exact ⟨spaceKept _ clear.1, punctuationKept _ clear.2⟩
  · simp only [Function.update_of_ne same]
    exact clear

theorem DirtyBitSound.getState (sound : editor.DirtyBitSound) (state prevState : StickyState) :
    (editor.getState state prevState).DirtyBitSound :=
  sound.updateNode state (fun _ clear => clear) (fun _ clear => clear)

theorem DirtyBitSound.clearSpaceAssert (sound : editor.DirtyBitSound) (state : StickyState) :
    (editor.clearSpaceAssert state).DirtyBitSound :=
  sound.updateNode state (fun _ _ => rfl) (fun _ clear => clear)

theorem DirtyBitSound.clearPunctuationAssert (sound : editor.DirtyBitSound) (state : StickyState) :
    (editor.clearPunctuationAssert state).DirtyBitSound :=
  sound.updateNode state (fun _ clear => clear) (fun _ _ => rfl)

theorem DirtyBitSound.goTo (sound : editor.DirtyBitSound) (state prevState : StickyState)
    (transition : Transition) :
    (editor.goTo state prevState transition).1.DirtyBitSound := sound.getState state prevState

theorem dirtyBitSound_setStateDirtyBit : editor.setStateDirtyBit.DirtyBitSound := .of_dirtyBit rfl

/-- Where a flag was just set, the dirty bit is sound only if it is set. -/
theorem dirtyBitSound_iff_of_spaceAssert {state : StickyState}
    (isSet : (editor.states state).spaceAssert = true) :
    editor.DirtyBitSound ↔ editor.dirtyBit = true := by
  constructor
  · intro sound
    cases dirty : editor.dirtyBit with
    | true => rfl
    | false =>
      rw [(sound dirty state).1] at isSet
      cases isSet
  · exact DirtyBitSound.of_dirtyBit

theorem dirtyBitSound_iff_of_punctuationAssert {state : StickyState}
    (isSet : (editor.states state).punctuationAssert = true) :
    editor.DirtyBitSound ↔ editor.dirtyBit = true := by
  constructor
  · intro sound
    cases dirty : editor.dirtyBit with
    | true => rfl
    | false =>
      rw [(sound dirty state).2] at isSet
      cases isSet
  · exact DirtyBitSound.of_dirtyBit

/-! ## Clearing -/

/-- A clearing that is skipped finds nothing to clear. -/
theorem DirtyBitSound.flagsClear_clearAllStateFlags (sound : editor.DirtyBitSound) :
    editor.clearAllStateFlags.FlagsClear := by
  rw [clearAllStateFlags]
  split
  · exact fun _ => ⟨rfl, rfl⟩
  next clean => exact sound (by simpa using clean)

theorem DirtyBitSound.flagsClear_setKeyState (sound : editor.DirtyBitSound) (state : StickyState) :
    (editor.setKeyState state).FlagsClear := sound.flagsClear_clearAllStateFlags

theorem DirtyBitSound.flagsClear_reset (sound : editor.DirtyBitSound) (state : StickyState) :
    (editor.reset state).FlagsClear := by
  have cleared : ({ editor with key := 0 } : EditorStickyState).DirtyBitSound := sound
  exact cleared.flagsClear_setKeyState state

theorem FlagsClear.dirtyBitSound (clear : editor.FlagsClear) : editor.DirtyBitSound :=
  fun _ => clear

theorem dirtyBitSound_new (enabled : Bool) : (new enabled).DirtyBitSound := by
  apply FlagsClear.dirtyBitSound
  exact (DirtyBitSound.of_dirtyBit rfl).flagsClear_reset .normal

theorem DirtyBitSound.setState (sound : editor.DirtyBitSound) (state : StickyState) :
    (editor.setState state).DirtyBitSound := by
  rw [EditorStickyState.setState]
  split
  · exact (sound.clearPunctuationAssert _).clearSpaceAssert _
  · exact sound

theorem DirtyBitSound.flagsClear_step (sound : editor.DirtyBitSound) {event : StickyEvent}
    (clears : Clears event) (keyboard : Keyboard) : (editor.step keyboard event).FlagsClear := by
  cases event with
  | reset state => exact sound.flagsClear_reset state
  | setKeyState state => exact sound.flagsClear_setKeyState state
  | enableSmartTextFeatures state =>
    have enabled : ({ editor with steFeatures := true } : EditorStickyState).DirtyBitSound := sound
    exact enabled.flagsClear_reset state
  | disableSmartTextFeatures =>
    have disabled : ({ editor with
      steFeatures := false, titleCaseEnabled := false } : EditorStickyState).DirtyBitSound := sound
    exact disabled.flagsClear_reset .normal
  | enableTitleCase =>
    have enabled : ({ editor with titleCaseEnabled := true } :
      EditorStickyState).DirtyBitSound := sound
    exact enabled.flagsClear_reset .normal
  | disableTitleCase =>
    have disabled : ({ editor with titleCaseEnabled := false } :
      EditorStickyState).DirtyBitSound := sound
    exact disabled.flagsClear_reset .normal
  | enableSingleAndLockStates enable =>
    have enabled : ({ editor with singleAndLockStatesEnabled := enable } :
      EditorStickyState).DirtyBitSound := sound
    exact enabled.flagsClear_reset .normal
  | feedKeyEvent isKeyDown key modifier canUndoAutoReplace | setStateNumLock | setStateShiftLock
  | setStateNumSingle | setStateShiftSingle | undidPreviousAutocap => exact clears.elim

end Flags

/-! ## Transitions -/

section Transitions

variable
  {keyboard : Keyboard}
  {editor : EditorStickyState}

theorem dirtyBitSound_transitionNormal_iff (sound : editor.DirtyBitSound) (key : UInt16) :
    (editor.transitionNormal keyboard key).1.DirtyBitSound ↔
      (editor.TitleCaseSpace keyboard key → editor.dirtyBit = true) := by
  unfold transitionNormal
  split
  next shift =>
    refine iff_of_true (sound.goTo _ _ _) ?_
    intro silent
    exact absurd shift.2 (silent.1 shift.1).1
  split
  next alt =>
    refine iff_of_true (sound.goTo _ _ _) ?_
    intro silent
    exact absurd alt.2 (silent.1 alt.1).2
  next notShift notAlt =>
  split
  next disabled =>
    refine iff_of_true (sound.goTo _ _ _) ?_
    intro silent
    exact absurd silent.2.1 (by simp [disabled])
  next enabled =>
  split
  next isReturn => exact iff_of_true (sound.goTo _ _ _) fun silent => absurd isReturn silent.2.2.1
  next notReturn =>
  split
  next terminal =>
    refine iff_of_true (dirtyBitSound_setStateDirtyBit.goTo _ _ _) ?_
    exact fun silent => absurd terminal silent.2.2.2.1
  next notTerminal =>
  split
  next titleCase =>
    have silent : editor.TitleCaseSpace keyboard key := by
      refine ⟨fun single => ⟨?_, ?_⟩, by simpa using enabled, notReturn, notTerminal, titleCase⟩
      · exact fun isShift => notShift ⟨single, isShift⟩
      · exact fun isAlt => notAlt ⟨single, isAlt⟩
    have isSet : (((editor.clearPunctuationAssert .normal).getState
        .shiftSingleHidden .normal).setSpaceAssert .shiftSingleHidden).states
          .shiftSingleHidden |>.spaceAssert := by
      simp [setSpaceAssert, updateNode]
    refine (dirtyBitSound_iff_of_spaceAssert isSet).trans ?_
    exact ⟨fun dirty _ => dirty, fun dirty => dirty silent⟩
  next notTitleCase =>
  have notSilent : ¬ editor.TitleCaseSpace keyboard key := fun silent => notTitleCase silent.2.2.2.2
  split
  next asserted =>
    -- the flag was set before, so the bit is set
    have dirty : editor.dirtyBit = true := by
      cases dirty : editor.dirtyBit with
      | true => rfl
      | false => exact absurd asserted.1 (by simp [(sound dirty .normal).2])
    exact iff_of_true (.of_dirtyBit dirty) fun _ => dirty
  split
  · exact iff_of_true ((sound.clearSpaceAssert _).goTo _ _ _)
      fun silent => absurd silent notSilent
  · exact iff_of_true ((sound.clearPunctuationAssert _).goTo _ _ _)
      fun silent => absurd silent notSilent

theorem dirtyBitSound_transitionNumSingle_iff (sound : editor.DirtyBitSound) (key : UInt16) :
    (editor.transitionNumSingle keyboard key).1.DirtyBitSound ↔
      (editor.OptionalPunctuation keyboard key → editor.dirtyBit = true) := by
  unfold transitionNumSingle
  split
  next isShift => exact iff_of_true (sound.goTo _ _ _) fun silent => absurd isShift silent.1
  next notShift =>
  split
  next isAlt => exact iff_of_true (sound.goTo _ _ _) fun silent => absurd isAlt silent.2.1
  next notAlt =>
  split
  next disabled =>
    refine iff_of_true (sound.goTo _ _ _) ?_
    intro silent
    exact absurd silent.2.2.1 (by simp [disabled])
  next enabled =>
  split
  next isReturn =>
    exact iff_of_true (dirtyBitSound_setStateDirtyBit.goTo _ _ _)
      fun silent => absurd isReturn silent.2.2.2.1
  next notReturn =>
  split
  next terminal =>
    have silent : editor.OptionalPunctuation keyboard key :=
      ⟨notShift, notAlt, by simpa using enabled, notReturn, terminal⟩
    have isSet : ((((editor.getState .normal .numSingle).setPunctuationAssert
        .normal).getState .normal .numSingle).states .normal).punctuationAssert := by
      simp [getState, setPunctuationAssert, updateNode]
    refine (dirtyBitSound_iff_of_punctuationAssert isSet).trans ?_
    exact ⟨fun dirty _ => dirty, fun dirty => dirty silent⟩
  next notTerminal =>
  have notSilent : ¬ editor.OptionalPunctuation keyboard key :=
    fun silent => notTerminal silent.2.2.2.2
  split <;> exact iff_of_true (sound.goTo _ _ _) fun silent => absurd silent notSilent

theorem DirtyBitSound.transitionShiftSingleHidden (sound : editor.DirtyBitSound) (key : UInt16) :
    (editor.transitionShiftSingleHidden keyboard key).1.DirtyBitSound := by
  have resetSound : editor.resetPreviousRawKeyCode.DirtyBitSound := sound
  unfold EditorStickyState.transitionShiftSingleHidden
  split
  · exact sound.goTo _ _ _
  split
  · exact sound.goTo _ _ _
  split
  · exact sound.goTo _ _ _
  split
  · exact sound.goTo _ _ _
  split
  · exact dirtyBitSound_setStateDirtyBit.goTo _ _ _
  dsimp only
  split
  · exact (resetSound.clearSpaceAssert _).goTo _ _ _
  split
  · exact resetSound
  · exact (resetSound.clearSpaceAssert _).goTo _ _ _

theorem DirtyBitSound.transitionShiftSingle (sound : editor.DirtyBitSound) (key : UInt16) :
    (editor.transitionShiftSingle keyboard key).1.DirtyBitSound := by
  unfold EditorStickyState.transitionShiftSingle
  split
  · exact sound.goTo _ _ _
  split
  · exact sound.goTo _ _ _
  split
  · exact sound.goTo _ _ _
  split
  · exact dirtyBitSound_setStateDirtyBit.goTo _ _ _
  split
  · exact dirtyBitSound_setStateDirtyBit.goTo _ _ _
  split
  · exact dirtyBitSound_setStateDirtyBit.goTo _ _ _
  split <;> exact (sound.clearSpaceAssert _).goTo _ _ _

theorem DirtyBitSound.transitionShiftLock (sound : editor.DirtyBitSound) (key : UInt16)
    (canUndoAutoReplace : Option Bool) :
    (editor.transitionShiftLock keyboard key canUndoAutoReplace).1.DirtyBitSound := by
  unfold EditorStickyState.transitionShiftLock
  split
  · exact sound.goTo _ _ _
  split
  · exact sound.goTo _ _ _
  split
  · exact sound.goTo _ _ _
  split
  · exact dirtyBitSound_setStateDirtyBit.goTo _ _ _
  split
  · split
    · split
      · exact (sound.clearSpaceAssert _).goTo _ _ _
      · exact sound.goTo _ _ _
    · exact (sound.clearSpaceAssert _).goTo _ _ _
  · exact sound.goTo _ _ _

theorem DirtyBitSound.transitionNumLock (sound : editor.DirtyBitSound) (key : UInt16) :
    (editor.transitionNumLock keyboard key).1.DirtyBitSound := by
  unfold EditorStickyState.transitionNumLock
  split
  · exact sound.goTo _ _ _
  split
  · exact sound.goTo _ _ _
  split
  · exact sound.goTo _ _ _
  split
  · exact dirtyBitSound_setStateDirtyBit.goTo _ _ _
  split <;> exact (sound.clearSpaceAssert _).goTo _ _ _

/-- From a sound state a transition is sound exactly when no flag is set
silently under a clean bit. -/
theorem dirtyBitSound_transition_iff (sound : editor.DirtyBitSound) (key : UInt16)
    (canUndoAutoReplace : Option Bool) :
    (editor.transition keyboard key canUndoAutoReplace).1.DirtyBitSound ↔
      (editor.SetsFlagSilently keyboard key → editor.dirtyBit = true) := by
  unfold transition SetsFlagSilently
  cases current : editor.currentKeyState with
  | normal => simpa using dirtyBitSound_transitionNormal_iff sound key
  | numSingle => simpa using dirtyBitSound_transitionNumSingle_iff sound key
  | shiftSingleHidden => simpa using sound.transitionShiftSingleHidden key
  | shiftSingle => simpa using sound.transitionShiftSingle key
  | shiftLock => simpa using sound.transitionShiftLock key canUndoAutoReplace
  | numLock => simpa using sound.transitionNumLock key

end Transitions

/-! ## Runs -/

/-- What a key event does to nodes and dirty bit is what its transition does. -/
theorem dirtyBitSound_feedKeyEvent_iff {keyboard : Keyboard} {editor : EditorStickyState}
    {key : UInt16} {canUndoAutoReplace : Option Bool} :
    (editor.feedKeyEvent keyboard true key canUndoAutoReplace).1.DirtyBitSound ↔
      (editor.transition keyboard
        (editor.modifyKey keyboard editor.currentKeyState key)
          canUndoAutoReplace).1.DirtyBitSound := by
  simp only [feedKeyEvent, if_true]
  split <;> exact Iff.rfl

theorem DirtyBitSound.step_iff {keyboard : Keyboard} {editor : EditorStickyState}
    (sound : editor.DirtyBitSound) (event : StickyEvent) :
    (editor.step keyboard event).DirtyBitSound ↔
      editor.DirtyWhereSilent keyboard event := by
  by_cases clears : Clears event
  · refine iff_of_true (sound.flagsClear_step clears keyboard).dirtyBitSound ?_
    cases event <;> trivial
  · cases event with
    | feedKeyEvent isKeyDown key modifier canUndoAutoReplace =>
      cases isKeyDown with
      | true =>
        exact dirtyBitSound_feedKeyEvent_iff.trans
          (dirtyBitSound_transition_iff sound _ _)
      | false => exact iff_of_true sound trivial
    | setStateNumLock | setStateShiftLock | setStateNumSingle | setStateShiftSingle =>
      exact iff_of_true (sound.setState _) trivial
    | undidPreviousAutocap => exact iff_of_true sound trivial
    | reset state | setKeyState state | enableSmartTextFeatures state | disableSmartTextFeatures
    | enableTitleCase | disableTitleCase | enableSingleAndLockStates enable =>
      exact absurd trivial clears

/-- Over a run of events the flags of every state with a clean dirty bit are
clear, and every reset and `setKeyState` clears the flags, exactly when no key
down sets a flag silently under a clean bit. -/
theorem dirtyBitSound_run_iff (keyboard : Keyboard) (enabled : Bool) (events : List StickyEvent) :
    ((∀ editor ∈ Runs.visited (step keyboard) (new enabled) events, DirtyBitSound editor) ∧
      Runs.StepsMeet (step keyboard) (ClearedBy keyboard) (new enabled) events) ↔
      Runs.StepsMeet (step keyboard) (DirtyWhereSilent keyboard) (new enabled)
        events := by
  have decides : ∀ editor event, DirtyBitSound editor →
      (DirtyBitSound (step keyboard editor event) ↔ DirtyWhereSilent keyboard editor event) :=
    fun _ event sound => sound.step_iff event
  rw [Runs.visited_iff_stepsMeet_of_invariant (fun _ sound => sound)
    (fun editor event sound => (decides editor event sound).2)
    (fun editor event sound => (decides editor event sound).1)
    events (dirtyBitSound_new enabled)]
  refine and_iff_left_of_imp ?_
  apply Runs.stepsMeet_of_invariant
    (fun editor event sound => (decides editor event sound).2)
    _ events (dirtyBitSound_new enabled)
  exact fun _ _ sound _ clears => sound.flagsClear_step clears keyboard

/-- A space under title case sets the flag of the hidden shift state, and the
next reset leaves it set. -/
theorem flag_left_by_title_case :
    ¬ ∀ (keyboard : Keyboard) (enabled : Bool) (events : List StickyEvent),
      (∀ editor ∈ Runs.visited (step keyboard) (new enabled) events, DirtyBitSound editor) ∧
      Runs.StepsMeet (step keyboard) (ClearedBy keyboard) (new enabled) events := by
  intro always
  have cleared := (always ⟨1, 2, 13, 8, 32, 3, 4, 46, 33, 63, [],
    fun _ => false, id⟩ true
    [.enableTitleCase, .feedKeyEvent true 32 0 none, .reset .normal]).2
  have flags := cleared.2.2.1 trivial .shiftSingleHidden
  exact absurd flags.1 (by decide)

end EditorStickyState
end Editing
end PalmWebKit
