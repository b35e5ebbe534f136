import PalmWebKit.Network.DirectLoader

/-!
# Deliveries of the direct loader

The loader follows the delivery protocol as long as a `data:` URL has a comma
and is not in base64, and no client cancels its own request inside
`didReceiveResponse` or `didReceiveData`: nothing is delivered without a comma,
base64 data gets two responses, and the loader looks for a cancel only behind
`willSendRequest`.
-/

namespace PalmWebKit
namespace Network

open List

/-- A reaction cancels a request. -/
def Cancels (actions : List ClientAction) (handle : HandleId) : Prop := .cancel handle ∈ actions

/-- A reaction cancels a request or takes its client away. -/
def Drops (actions : List ClientAction) (handle : HandleId) : Prop :=
  .cancel handle ∈ actions ∨ .clearClient handle ∈ actions

instance (actions : List ClientAction) (handle : HandleId) :
    Decidable (Cancels actions handle) := inferInstanceAs (Decidable (_ ∈ _))

instance (actions : List ClientAction) (handle : HandleId) :
    Decidable (Drops actions handle) := inferInstanceAs (Decidable (_ ∨ _))

namespace DirectLoader

/-- The request was cancelled or has lost its client. -/
def Gone (loader : DirectLoader) (handle : HandleId) : Prop :=
  loader.cancelled handle = true ∨ loader.hasClient handle = false

instance (loader : DirectLoader) (handle : HandleId) :
    Decidable (loader.Gone handle) := inferInstanceAs (Decidable (_ ∨ _))

def queued (loader : DirectLoader) : List HandleId := loader.queue.map DirectLoaderQueuedItem.handle

/-- No client has got a call that the protocol does not allow. -/
def Legal (loader : DirectLoader) : Prop := ∀ handle, phaseAt loader.trace handle ≠ none

/-- The bookkeeping of the queue, with the handles that are taken out of it
and still to be processed. -/
structure Shape (loader : DirectLoader) (pending : List HandleId) : Prop where
  nodup : (pending ++ loader.queued).Nodup
  old : ∀ handle ∈ pending ++ loader.queued, handle < loader.nextHandle
  loaded : ∀ handle < loader.nextHandle, handle ∈ pending ++ loader.queued ∨
    (handle, .release) ∈ loader.trace
  freshKept : ∀ handle, loader.nextHandle ≤ handle → ¬loader.Gone handle

/-- Every request is in the phase of its stage, unless it is gone, and nothing
has happened to the requests that wait. -/
structure Sound (loader : DirectLoader) (pending : List HandleId)
    (stage : HandleId → DeliveryPhase) : Prop where
  phase : ∀ handle, phaseAt loader.trace handle =
    some (if loader.Gone handle then .gone else stage handle)
  awaiting : ∀ handle, handle ∈ pending ++ loader.queued ∨
    loader.nextHandle ≤ handle → stage handle = .awaiting

theorem Sound.legal {loader : DirectLoader} {pending : List HandleId}
    {stage : HandleId → DeliveryPhase} (sound : loader.Sound pending stage) : loader.Legal := by
  intro handle illegal
  rw [sound.phase] at illegal
  cases illegal

/-- An event of one request moves its stage. -/
theorem Sound.event {loader after : DirectLoader} {pending waiting : List HandleId}
    {stage : HandleId → DeliveryPhase} {handle : HandleId} {event : DeliveryEvent}
    {later : DeliveryPhase} (sound : loader.Sound pending stage)
    (trace : after.trace = loader.trace ++ [(handle, event)])
    (moved : (if loader.Gone handle then .gone else stage handle).next event =
      some (if after.Gone handle then .gone else later))
    (others : ∀ other, other ≠ handle → (after.Gone other ↔ loader.Gone other))
    (waits : ∀ other, other ∈ waiting ++ after.queued ∨ after.nextHandle ≤ other →
      other ≠ handle → other ∈ pending ++ loader.queued ∨ loader.nextHandle ≤ other)
    (handleWaits : handle ∈ waiting ++ after.queued ∨ after.nextHandle ≤ handle →
      later = .awaiting) : after.Sound waiting (Function.update stage handle later) where
  phase := by
    intro other
    rw [trace]
    by_cases same : other = handle
    · rw [same, phaseAt, KeyedMonitor.phaseAt_append_self, ← phaseAt, sound.phase,
        Option.bind_some, moved, Function.update_self]
    · rw [phaseAt, KeyedMonitor.phaseAt_append_of_ne (Ne.symm same), ← phaseAt,
        sound.phase, Function.update_of_ne same]
      simp only [others other same]
  awaiting := by
    intro other isWaiting
    by_cases same : other = handle
    · rw [same] at isWaiting ⊢
      rw [Function.update_self]
      exact handleWaits isWaiting
    · rw [Function.update_of_ne same]
      exact sound.awaiting other (waits other isWaiting same)

/-! ## What clients do -/

section Actions

variable {loader : DirectLoader} {pending : List HandleId}
  {stage : HandleId → DeliveryPhase}

theorem trace_prefix_cancelQueued (handle : HandleId) :
    loader.trace <+: (loader.cancelQueued handle).trace := by
  rw [cancelQueued]
  split
  · exact prefix_append _ _
  · exact prefix_refl _

theorem trace_prefix_act (action : ClientAction) : loader.trace <+: (loader.act action).trace := by
  cases action with
  | cancel handle =>
    rw [act, cancel]
    split
    · have recorded : loader.trace <+: (loader.setCancelled handle).trace := prefix_append _ _
      exact recorded.trans (trace_prefix_cancelQueued handle)
    · exact prefix_refl _
  | clearClient handle =>
    rw [act, clearClient]
    split
    · exact prefix_append _ _
    · exact prefix_refl _
  | load path => exact prefix_refl _

theorem trace_prefix_foldl_act (actions : List ClientAction) :
    loader.trace <+: (actions.foldl act loader).trace := by
  induction actions generalizing loader with
  | nil => exact prefix_refl _
  | cons action actions ih => exact (trace_prefix_act action).trans ih

/-- A violation of the protocol stays one. -/
theorem not_legal_of_extended {later : DirectLoader} (extended : loader.trace <+: later.trace)
    (illegal : ¬loader.Legal) : ¬later.Legal := by
  rw [Legal, not_forall] at illegal
  obtain ⟨handle, violated⟩ := illegal
  rw [not_not] at violated
  intro legal
  exact legal handle (KeyedMonitor.phaseAt_eq_none_of_prefix extended violated)

theorem cancelQueued_frame (handle : HandleId) : (loader.cancelQueued handle).calls = loader.calls ∧
      (loader.cancelQueued handle).nextHandle = loader.nextHandle ∧
      (loader.cancelQueued handle).cancelled = loader.cancelled ∧
      (loader.cancelQueued handle).hasClient = loader.hasClient := by
  rw [cancelQueued]
  split <;> exact ⟨rfl, rfl, rfl, rfl⟩

/-- What an action does to the calls and to the handles in use. -/
theorem act_frame (action : ClientAction) : (loader.act action).calls = loader.calls ∧
      loader.nextHandle ≤ (loader.act action).nextHandle := by
  cases action with
  | cancel handle =>
    rw [act, cancel]
    split
    · have frame := (loader.setCancelled handle).cancelQueued_frame handle
      exact ⟨frame.1, frame.2.1.ge⟩
    · exact ⟨rfl, le_refl _⟩
  | clearClient handle =>
    rw [act, clearClient]
    split <;> exact ⟨rfl, le_refl _⟩
  | load path => exact ⟨rfl, Nat.le_succ _⟩

variable {handle : HandleId}

variable (old : handle < loader.nextHandle)
include old

theorem cancelled_act (action : ClientAction) :
    (loader.act action).cancelled handle = true ↔
      loader.cancelled handle = true ∨ action = .cancel handle := by
  cases action with
  | cancel other =>
    rw [act, cancel]
    by_cases same : handle = other
    · rw [← same, if_pos old, (cancelQueued_frame handle).2.2.1]
      simp [setCancelled, record]
    · have unchanged : ClientAction.cancel other ≠ .cancel handle := by
        intro equal
        cases equal
        exact same rfl
      split
      · rw [(cancelQueued_frame other).2.2.1]
        simp [setCancelled, record, same, unchanged]
      · simp [unchanged]
  | clearClient other =>
    rw [act, clearClient]
    split <;> simp [record]
  | load path => simp [act, load]

theorem hasClient_act (action : ClientAction) :
    (loader.act action).hasClient handle = false ↔
      loader.hasClient handle = false ∨ action = .clearClient handle := by
  cases action with
  | cancel other =>
    rw [act, cancel]
    split
    · rw [(cancelQueued_frame other).2.2.2]
      simp [setCancelled, record]
    · simp
  | clearClient other =>
    rw [act, clearClient]
    by_cases same : handle = other
    · rw [← same, if_pos old]
      simp [record]
    · have unchanged : ClientAction.clearClient other ≠ .clearClient handle := by
        intro equal
        cases equal
        exact same rfl
      split
      · simp [record, same, unchanged]
      · simp [unchanged]
  | load path => simp [act, load]

theorem gone_act (action : ClientAction) :
    (loader.act action).Gone handle ↔
      loader.Gone handle ∨ action = .cancel handle ∨ action = .clearClient handle := by
  rw [Gone, cancelled_act old, hasClient_act old]
  exact or_or_or_comm

omit old

theorem Shape.setCancelled (shape : loader.Shape pending) (old : handle < loader.nextHandle) :
    (loader.setCancelled handle).Shape pending where
  nodup := shape.nodup
  old := shape.old
  loaded := by
    intro other isOld
    exact (shape.loaded other isOld).imp_right (mem_append_left _)
  freshKept := by
    intro other fresh gone
    have ne : other ≠ handle := (lt_of_lt_of_le old fresh).ne'
    have same : (loader.setCancelled handle).cancelled other =
        loader.cancelled other := Function.update_of_ne ne _ _
    rw [Gone, same] at gone
    exact shape.freshKept other fresh gone

theorem queued_cancelQueued (handle : HandleId) : (loader.cancelQueued handle).queued =
      loader.queued.filter fun other => other ≠ handle := by
  rw [DirectLoader.cancelQueued]
  split
  · exact (filter_map (p := fun other => decide (other ≠ handle))).symm
  · rename_i absent
    symm
    rw [filter_eq_self]
    intro other member
    obtain ⟨item, inQueue, rfl⟩ := mem_map.1 member
    exact decide_eq_true fun same => absent ⟨item, inQueue, same⟩

theorem release_mem_cancelQueued (inQueue : handle ∈ loader.queued) :
    (handle, .release) ∈ (loader.cancelQueued handle).trace := by
  rw [DirectLoader.cancelQueued, if_pos (by simpa [queued] using inQueue)]
  exact mem_append_right _ (.head _)

theorem Shape.cancelQueued (shape : loader.Shape pending) (handle : HandleId) :
    (loader.cancelQueued handle).Shape pending := by
  have frame := loader.cancelQueued_frame handle
  have kept : (pending ++ (loader.cancelQueued handle).queued).Sublist
      (pending ++ loader.queued) := by
    rw [queued_cancelQueued]
    exact List.Sublist.append_left filter_sublist _
  constructor
  · exact shape.nodup.sublist kept
  · intro other member
    rw [frame.2.1]
    exact shape.old other (kept.subset member)
  · intro other isOld
    rw [frame.2.1] at isOld
    obtain held | released := shape.loaded other isOld
    · by_cases inQueue : other ∈ loader.queued
      · by_cases same : other = handle
        · rw [same] at inQueue ⊢
          exact .inr (release_mem_cancelQueued inQueue)
        · refine .inl (mem_append_right _ ?_)
          rw [queued_cancelQueued]
          exact mem_filter.2 ⟨inQueue, decide_eq_true same⟩
      · exact .inl (mem_append_left _ ((mem_append.1 held).resolve_right inQueue))
    · exact .inr ((trace_prefix_cancelQueued handle).subset released)
  · intro other fresh
    rw [frame.2.1] at fresh
    rw [Gone, frame.2.2.1, frame.2.2.2]
    exact shape.freshKept other fresh

theorem Shape.clearClient (shape : loader.Shape pending) (handle : HandleId) :
    (loader.clearClient handle).Shape pending := by
  rw [DirectLoader.clearClient]
  split
  · rename_i old
    refine ⟨shape.nodup, shape.old, ?_, ?_⟩
    · intro other isOld
      exact (shape.loaded other isOld).imp_right (mem_append_left _)
    · intro other fresh gone
      have ne : other ≠ handle := (lt_of_lt_of_le old fresh).ne'
      rw [Gone, record] at gone
      dsimp only at gone
      rw [Function.update_of_ne ne] at gone
      exact shape.freshKept other fresh gone
  · exact shape

theorem queued_load (path : WString) :
    (loader.load path).queued = loader.queued ++ [loader.nextHandle] := by
  rw [queued, DirectLoader.load, map_append]
  rfl

theorem Shape.load (shape : loader.Shape pending) (path : WString) :
    (loader.load path).Shape pending := by
  have fresh : loader.nextHandle ∉ pending ++ loader.queued := fun member =>
    lt_irrefl _ (shape.old _ member)
  constructor
  · rw [queued_load, ← append_assoc]
    exact nodup_append_comm.2 (nodup_cons.2 ⟨fresh, shape.nodup⟩)
  · intro other member
    rw [queued_load, ← append_assoc, mem_append, mem_singleton] at member
    obtain held | rfl := member
    · exact Nat.lt_succ_of_lt (shape.old other held)
    · exact Nat.lt_succ_self _
  · intro other isOld
    rw [queued_load, ← append_assoc]
    obtain earlier | rfl := Nat.lt_succ_iff_lt_or_eq.1 isOld
    · exact (shape.loaded other earlier).imp_left (mem_append_left _)
    · exact .inl (mem_append_right _ (.head _))
  · intro other isFresh
    exact shape.freshKept other (le_trans (Nat.le_succ _) isFresh)

theorem Shape.act (shape : loader.Shape pending) (action : ClientAction) :
    (loader.act action).Shape pending := by
  cases action with
  | cancel handle =>
    rw [DirectLoader.act, cancel]
    split
    · rename_i old
      exact (shape.setCancelled old).cancelQueued handle
    · exact shape
  | clearClient handle => exact shape.clearClient handle
  | load path => exact shape.load path

theorem Sound.setCancelled (sound : loader.Sound pending stage) (handle : HandleId) :
    (loader.setCancelled handle).Sound pending stage := by
  have isGone : (loader.setCancelled handle).Gone handle := .inl (Function.update_self _ _ _)
  have moved : (loader.setCancelled handle).Sound pending
      (Function.update stage handle (stage handle)) := by
    apply sound.event rfl
    · rw [if_pos isGone, DeliveryPhase.next_cancel]
    · intro other ne
      have same : (loader.setCancelled handle).cancelled other =
          loader.cancelled other := Function.update_of_ne ne _ _
      rw [Gone, same]
      exact Iff.rfl
    · exact fun other isWaiting _ => isWaiting
    · exact sound.awaiting handle
  rwa [Function.update_eq_self] at moved

/-- Items leave the queue of a request that is gone. -/
theorem Sound.cancelQueued (sound : loader.Sound pending stage) (isGone : loader.Gone handle) :
    (loader.cancelQueued handle).Sound pending stage := by
  have queue := loader.queued_cancelQueued handle
  have waits : ∀ other, other ∈ pending ++ (loader.cancelQueued handle).queued ∨
        (loader.cancelQueued handle).nextHandle ≤ other →
      other ∈ pending ++ loader.queued ∨ loader.nextHandle ≤ other := by
    intro other isWaiting
    rw [queue, (loader.cancelQueued_frame handle).2.1] at isWaiting
    exact isWaiting.imp_left fun member =>
      (List.Sublist.append_left filter_sublist pending).subset member
  by_cases inQueue : ∃ item ∈ loader.queue, item.handle = handle
  · have moved : (loader.cancelQueued handle).Sound pending
        (Function.update stage handle (stage handle)) := by
      have goneAfter : (loader.cancelQueued handle).Gone handle := by
        rw [Gone, (loader.cancelQueued_frame handle).2.2.1,
          (loader.cancelQueued_frame handle).2.2.2]
        exact isGone
      have trace : (loader.cancelQueued handle).trace =
          loader.trace ++ [(handle, .release)] := by
        rw [DirectLoader.cancelQueued, if_pos inQueue]
        rfl
      apply sound.event trace
      · rw [if_pos isGone, if_pos goneAfter]
        rfl
      · intro other _
        rw [Gone, (loader.cancelQueued_frame handle).2.2.1,
          (loader.cancelQueued_frame handle).2.2.2]
        exact Iff.rfl
      · exact fun other isWaiting _ => waits other isWaiting
      · exact fun isWaiting => sound.awaiting handle (waits handle isWaiting)
    rwa [Function.update_eq_self] at moved
  · rw [DirectLoader.cancelQueued, if_neg inQueue]
    exact sound

theorem Sound.clearClient (sound : loader.Sound pending stage) (handle : HandleId) :
    (loader.clearClient handle).Sound pending stage := by
  by_cases old : handle < loader.nextHandle
  · have clearedTrace : (loader.clearClient handle).trace =
        loader.trace ++ [(handle, .clearClient)] := by
      rw [DirectLoader.clearClient, if_pos old]
      rfl
    have cleared : (loader.clearClient handle).hasClient =
        Function.update loader.hasClient handle false := by
      rw [DirectLoader.clearClient, if_pos old]
      rfl
    have same : (loader.clearClient handle).cancelled = loader.cancelled ∧
        (loader.clearClient handle).queued = loader.queued ∧
        (loader.clearClient handle).nextHandle = loader.nextHandle := by
      rw [DirectLoader.clearClient, if_pos old]
      exact ⟨rfl, rfl, rfl⟩
    have isGone : (loader.clearClient handle).Gone handle := by
      refine .inr ?_
      rw [cleared, Function.update_self]
    have moved : (loader.clearClient handle).Sound pending
        (Function.update stage handle (stage handle)) := by
      apply sound.event clearedTrace
      · rw [if_pos isGone, DeliveryPhase.next_clearClient]
      · intro other ne
        rw [Gone, same.1, cleared, Function.update_of_ne ne]
        exact Iff.rfl
      · rw [same.2.1, same.2.2]
        exact fun other isWaiting _ => isWaiting
      · rw [same.2.1, same.2.2]
        exact sound.awaiting handle
    rwa [Function.update_eq_self] at moved
  · rw [DirectLoader.clearClient, if_neg old]
    exact sound

theorem Sound.load (sound : loader.Sound pending stage) (path : WString) :
    (loader.load path).Sound pending stage where
  phase := sound.phase
  awaiting := by
    intro other isWaiting
    apply sound.awaiting
    rw [queued_load, ← append_assoc, mem_append, mem_singleton] at isWaiting
    obtain (held | rfl) | fresh := isWaiting
    · exact .inl held
    · exact .inr (le_refl _)
    · exact .inr (le_trans (Nat.le_succ _) fresh)

theorem Sound.act (sound : loader.Sound pending stage) (action : ClientAction) :
    (loader.act action).Sound pending stage := by
  cases action with
  | cancel handle =>
    rw [DirectLoader.act, cancel]
    split
    · exact (sound.setCancelled handle).cancelQueued
        (.inl (Function.update_self _ _ _))
    · exact sound
  | clearClient handle => exact sound.clearClient handle
  | load path => exact sound.load path

theorem foldl_act_frame (actions : List ClientAction) :
    (actions.foldl act loader).calls = loader.calls ∧
      loader.nextHandle ≤ (actions.foldl act loader).nextHandle := by
  induction actions generalizing loader with
  | nil => exact ⟨rfl, le_refl _⟩
  | cons action actions ih =>
    have frame := loader.act_frame action
    have rest := @ih (loader.act action)
    exact ⟨rest.1.trans frame.1, le_trans frame.2 rest.2⟩

/-- What clients do inside a call keeps the bookkeeping. -/
theorem Shape.foldl_act (shape : loader.Shape pending) (actions : List ClientAction) :
    (actions.foldl DirectLoader.act loader).Shape pending := by
  induction actions generalizing loader with
  | nil => exact shape
  | cons action actions ih => exact ih (shape.act action)

/-- What clients do inside a call keeps the stages. -/
theorem Sound.foldl_act (sound : loader.Sound pending stage) (actions : List ClientAction) :
    (actions.foldl DirectLoader.act loader).Sound pending stage := by
  induction actions generalizing loader with
  | nil => exact sound
  | cons action actions ih => exact ih (sound.act action)

theorem cancelled_foldl_act (old : handle < loader.nextHandle) (actions : List ClientAction) :
    (actions.foldl act loader).cancelled handle = true ↔
      loader.cancelled handle = true ∨ Cancels actions handle := by
  induction actions generalizing loader with
  | nil => simp [Cancels]
  | cons action actions ih =>
    rw [foldl_cons, ih
      (lt_of_lt_of_le old (loader.act_frame action).2), cancelled_act old, or_assoc]
    simp only [Cancels, mem_cons, eq_comm]

theorem gone_foldl_act (old : handle < loader.nextHandle) (actions : List ClientAction) :
    (actions.foldl act loader).Gone handle ↔
      loader.Gone handle ∨ Drops actions handle := by
  induction actions generalizing loader with
  | nil => simp [Drops]
  | cons action actions ih =>
    rw [foldl_cons, ih
      (lt_of_lt_of_le old (loader.act_frame action).2), gone_act old, or_assoc]
    simp only [Drops, mem_cons, eq_comm]
    rw [or_or_or_comm]

end Actions

/-! ## Calls -/

/-- The phase of a request whose stage is known. -/
def phaseOf (loader : DirectLoader) (stage : HandleId → DeliveryPhase)
    (handle : HandleId) : DeliveryPhase :=
  if loader.Gone handle then .gone else stage handle

/-- A property decides whether a state is legal, and legal states are sound. -/
def Settles (loader : DirectLoader) (pending : List HandleId) (ok : Prop) : Prop :=
  (ok → ∃ stage, loader.Sound pending stage) ∧ (loader.Legal → ok)

/-- The calls are allowed from a phase on and leave a request that may be
released, for the reactions from a count on. -/
def Conforms (reactions : Reactions)
    (handle : HandleId) : Nat → DeliveryPhase → List ClientCall → Prop
  | _, phase, [] => phase.next .release ≠ none
  | count, phase, clientCall :: clientCalls =>
    ∃ later, phase.next (.call clientCall) = some later ∧ Conforms reactions handle (count + 1)
        (if Drops (reactions count) handle then .gone else later) clientCalls

/-- The same behind a `willSendRequest`, inside which the request may be
cancelled. -/
def ConformsUnlessCancelled (reactions : Reactions) (handle : HandleId) (count : Nat)
    (phase : DeliveryPhase) (clientCalls : List ClientCall) : Prop :=
  ∃ later, phase.next (.call .willSendRequest) = some later ∧ (Cancels (reactions count) handle ∨
      Conforms reactions handle (count + 1)
        (if Drops (reactions count) handle then .gone else later) clientCalls)

section Calls

variable {reactions : Reactions} {loader : DirectLoader} {handle : HandleId}
  {pending : List HandleId} {stage : HandleId → DeliveryPhase}

/-- The loader at the moment of a call. -/
def calling (loader : DirectLoader) (handle : HandleId) (clientCall : ClientCall) : DirectLoader :=
  { loader.record handle (.call clientCall) with calls := loader.calls + 1 }

theorem trace_prefix_call (clientCall : ClientCall) :
    loader.trace <+: (loader.call reactions handle clientCall).trace := by
  have recorded : loader.trace <+: (loader.calling handle clientCall).trace :=
    prefix_append _ _
  exact recorded.trans (trace_prefix_foldl_act _)

theorem trace_prefix_deliver (clientCalls : List ClientCall) :
    loader.trace <+: (loader.deliver reactions handle clientCalls).trace := by
  induction clientCalls generalizing loader with
  | nil => exact prefix_refl _
  | cons clientCall clientCalls ih => exact (trace_prefix_call clientCall).trans ih

theorem Shape.record (shape : loader.Shape pending) (handle : HandleId) (event : DeliveryEvent) :
    (loader.record handle event).Shape pending where
  nodup := shape.nodup
  old := shape.old
  loaded := fun other isOld => (shape.loaded other isOld).imp_right (mem_append_left _)
  freshKept := shape.freshKept

theorem Shape.call (shape : loader.Shape pending) (handle : HandleId) (clientCall : ClientCall) :
    (loader.call reactions handle clientCall).Shape pending := by
  have recorded := shape.record handle (.call clientCall)
  have atCall : (loader.calling handle clientCall).Shape pending :=
    ⟨recorded.nodup, recorded.old, recorded.loaded, recorded.freshKept⟩
  exact atCall.foldl_act _

theorem Shape.deliver (shape : loader.Shape pending) (handle : HandleId)
    (clientCalls : List ClientCall) :
    (loader.deliver reactions handle clientCalls).Shape pending := by
  induction clientCalls generalizing loader with
  | nil => exact shape
  | cons clientCall clientCalls ih => exact ih (shape.call handle clientCall)

theorem calls_call (clientCall : ClientCall) :
    (loader.call reactions handle clientCall).calls = loader.calls + 1 := (foldl_act_frame _).1

theorem gone_call (old : handle < loader.nextHandle) (clientCall : ClientCall) :
    (loader.call reactions handle clientCall).Gone handle ↔
      loader.Gone handle ∨ Drops (reactions loader.calls) handle := by
  have atCall : handle < (loader.calling handle clientCall).nextHandle := old
  exact gone_foldl_act atCall _

theorem cancelled_call (old : handle < loader.nextHandle) (clientCall : ClientCall) :
    (loader.call reactions handle clientCall).cancelled handle = true ↔
      loader.cancelled handle = true ∨ Cancels (reactions loader.calls) handle := by
  have atCall : handle < (loader.calling handle clientCall).nextHandle := old
  exact cancelled_foldl_act atCall _

/-- The request in hand is not waiting. -/
theorem Shape.not_waiting (shape : loader.Shape (handle :: pending)) :
    ¬(handle ∈ pending ++ loader.queued ∨ loader.nextHandle ≤ handle) := by
  rintro (waiting | fresh)
  · exact (nodup_cons.1 shape.nodup).1 waiting
  · exact not_lt.2 fresh (shape.old handle (.head _))

variable {clientCall : ClientCall}

/-- A call that the protocol allows. -/
theorem Sound.call (sound : loader.Sound pending stage) (shape : loader.Shape (handle :: pending))
    {later : DeliveryPhase}
    (moved : (loader.phaseOf stage handle).next (.call clientCall) = some later) :
    (loader.call reactions handle clientCall).Sound pending
      (Function.update stage handle later) := by
  have kept : ¬loader.Gone handle := by
    intro isGone
    rw [phaseOf, if_pos isGone, DeliveryPhase.next_gone_call] at moved
    cases moved
  have atCall : (loader.calling handle clientCall).Sound pending
      (Function.update stage handle later) := by
    apply sound.event rfl
    · rw [if_neg (show ¬(loader.calling handle clientCall).Gone handle from kept)]
      exact moved
    · exact fun other _ => Iff.rfl
    · exact fun other isWaiting _ => isWaiting
    · exact fun isWaiting => absurd isWaiting shape.not_waiting
  exact atCall.foldl_act _

/-- A call that the protocol does not allow. -/
theorem not_legal_call (sound : loader.Sound pending stage)
    (refused : (loader.phaseOf stage handle).next (.call clientCall) = none) :
    ¬(loader.call reactions handle clientCall).Legal := by
  have atCall : ¬(loader.calling handle clientCall).Legal := by
    intro legal
    apply legal handle
    change phaseAt (loader.trace ++ [(handle, .call clientCall)]) handle = none
    rw [phaseAt, KeyedMonitor.phaseAt_append_self, ← phaseAt, sound.phase]
    exact refused
  exact not_legal_of_extended (trace_prefix_foldl_act _) atCall

/-- One call, and whatever follows it. -/
theorem settles_call (ok : DeliveryPhase → Prop) (sound : loader.Sound pending stage)
    (shape : loader.Shape (handle :: pending)) {last : DirectLoader}
    (extended : (loader.call reactions handle clientCall).trace <+: last.trace)
    (continued : ∀ later, (loader.call reactions handle clientCall).Sound pending
          (Function.update stage handle later) →
        (loader.call reactions handle clientCall).phaseOf
            (Function.update stage handle later) handle =
          (if Drops (reactions loader.calls) handle then .gone else later) →
        ¬loader.Gone handle →
        last.Settles pending
          (ok (if Drops (reactions loader.calls) handle then .gone else later))) :
    last.Settles pending
      (∃ later, (loader.phaseOf stage handle).next (.call clientCall) = some later ∧
        ok (if Drops (reactions loader.calls) handle then .gone else later)) := by
  cases moved : (loader.phaseOf stage handle).next (.call clientCall) with
  | none =>
    refine ⟨?_, fun legal => ?_⟩
    · rintro ⟨later, isLater, -⟩
      cases isLater
    · exact absurd legal
        (not_legal_of_extended extended (not_legal_call sound moved))
  | some later =>
    have kept : ¬loader.Gone handle := by
      intro isGone
      rw [phaseOf, if_pos isGone, DeliveryPhase.next_gone_call] at moved
      cases moved
    have old := shape.old handle (.head _)
    have phase : (loader.call reactions handle clientCall).phaseOf
        (Function.update stage handle later) handle =
          (if Drops (reactions loader.calls) handle then .gone else later) := by
      simp only [phaseOf, gone_call old, kept, false_or, Function.update_self]
    obtain ⟨sufficient, necessary⟩ := continued later (sound.call shape moved) phase kept
    refine ⟨?_, fun legal => ⟨later, rfl, necessary legal⟩⟩
    rintro ⟨other, same, isOk⟩
    cases same
    exact sufficient isOk

/-- Letting go of the request in hand. -/
theorem settles_release (sound : loader.Sound pending stage)
    (shape : loader.Shape (handle :: pending)) : (loader.record handle .release).Settles pending
      ((loader.phaseOf stage handle).next .release ≠ none) := by
  constructor
  · intro allowed
    refine ⟨Function.update stage handle (stage handle), ?_⟩
    apply sound.event rfl
    · change (loader.phaseOf stage handle).next .release = some (loader.phaseOf stage handle)
      cases phase : loader.phaseOf stage handle with
      | awaiting | receiving =>
        rw [phase] at allowed
        exact absurd rfl allowed
      | ended | gone => rfl
    · exact fun other _ => Iff.rfl
    · exact fun other isWaiting _ => isWaiting
    · exact fun isWaiting => absurd isWaiting shape.not_waiting
  · intro legal refused
    apply legal handle
    change phaseAt (loader.trace ++ [(handle, .release)]) handle = none
    rw [phaseAt, KeyedMonitor.phaseAt_append_self, ← phaseAt, sound.phase]
    exact refused

/-- A list of calls and the release of the request. -/
theorem settles_deliver (clientCalls : List ClientCall) (sound : loader.Sound pending stage)
    (shape : loader.Shape (handle :: pending)) :
    ((loader.deliver reactions handle clientCalls).record handle .release).Settles
      pending
      (Conforms reactions handle loader.calls (loader.phaseOf stage handle)
        clientCalls) := by
  induction clientCalls generalizing loader stage with
  | nil => exact settles_release sound shape
  | cons clientCall clientCalls ih =>
    apply settles_call
      (fun phase => Conforms reactions handle (loader.calls + 1) phase clientCalls)
      sound shape
    · exact (trace_prefix_deliver clientCalls).trans (prefix_append _ _)
    · intro later soundCall phase _
      have settled := ih soundCall (shape.call handle clientCall)
      rwa [phase, calls_call] at settled

theorem trace_prefix_deliverUnlessCancelled (clientCalls : List ClientCall) : loader.trace <+:
      (loader.deliverUnlessCancelled reactions handle clientCalls).trace := by
  rw [deliverUnlessCancelled]
  split
  · exact trace_prefix_call .willSendRequest
  · exact (trace_prefix_call .willSendRequest).trans
      (trace_prefix_deliver clientCalls)

/-- Calls behind a `willSendRequest` and the release of the request. -/
theorem settles_deliverUnlessCancelled (clientCalls : List ClientCall)
    (sound : loader.Sound pending stage) (shape : loader.Shape (handle :: pending)) :
    ((loader.deliverUnlessCancelled reactions handle clientCalls).record handle
      .release).Settles pending
      (ConformsUnlessCancelled reactions handle loader.calls
        (loader.phaseOf stage handle) clientCalls) := by
  have old := shape.old handle (.head _)
  apply settles_call
    (fun phase => Cancels (reactions loader.calls) handle ∨
      Conforms reactions handle (loader.calls + 1) phase clientCalls)
    sound shape
  · rw [deliverUnlessCancelled]
    split
    · exact prefix_append _ _
    · exact (trace_prefix_deliver clientCalls).trans (prefix_append _ _)
  · intro later soundCall phase kept
    have notCancelled : ¬loader.cancelled handle = true := fun isCancelled =>
      kept (.inl isCancelled)
    rw [deliverUnlessCancelled]
    by_cases cancels : Cancels (reactions loader.calls) handle
    · rw [if_pos ((cancelled_call old _).2 (Or.inr cancels))]
      have settled := settles_release soundCall
        (shape.call handle .willSendRequest)
      rw [phase, if_pos (show Drops (reactions loader.calls) handle from Or.inl cancels)] at settled
      exact ⟨fun _ => settled.1 nofun, fun _ => .inl cancels⟩
    · rw [if_neg (by
        rw [cancelled_call old]
        exact not_or.2 ⟨notCancelled, cancels⟩), or_iff_right cancels]
      have settled := @settles_deliver reactions _ _ _ _ clientCalls soundCall
        (shape.call handle .willSendRequest)
      rwa [phase, calls_call] at settled

end Calls

/-! ## Requests -/

/-- The condition under which a request that is processed gets its deliveries.
Its client must not drop it inside `didReceiveResponse` or `didReceiveData`; a
`data:` URL needs a comma and a client, and with base64 data the request must
be cancelled inside `willSendRequest`. -/
def ItemDelivers (env : LoaderPlatform) (reactions : Reactions)
    (files : WString → Option LocalFile) (loader : DirectLoader)
    (item : DirectLoaderQueuedItem) : Prop :=
  let keeps := fun call => ¬Drops (reactions (loader.calls + call)) item.handle
  if env.protocolIsData item.path then
    match WString.find item.path 44 with
    | none => loader.hasClient item.handle = false
    | some index =>
      let parts := splitDataUrl item.path index
      let charset := env.extractCharsetFromMediaType parts.mediaType
      loader.hasClient item.handle = true ∧ keeps 0 ∧
        if parts.base64 then Cancels (reactions (loader.calls + 1)) item.handle
        else
          0 < (env.decodeURLEscapeSequencesWith charset parts.data).length → keeps 1
  else
    loader.hasClient item.handle = true →
      match readLocalFile (files (env.path item.path)) with
      | some _ => Cancels (reactions loader.calls) item.handle ∨ keeps 0 ∧ keeps 1 ∧ keeps 2
      | none => keeps 0

section Items

variable {reactions : Reactions} {loader : DirectLoader} {handle : HandleId}
  {pending : List HandleId} {stage : HandleId → DeliveryPhase}

variable
  {count : Nat}
  {clientCall : ClientCall}
  {clientCalls : List ClientCall}

/-- Nothing more is allowed to a request that is gone. -/
theorem not_conforms_gone : ¬Conforms reactions handle count .gone (clientCall :: clientCalls) := by
  rintro ⟨later, moved, -⟩
  rw [DeliveryPhase.next_gone_call] at moved
  cases moved

variable {ending : ClientCall}

/-- The end of a load. -/
theorem conforms_ending (isEnd : ending.IsEnd) :
    Conforms reactions handle count .receiving [ending] := by
  refine ⟨.ended, ?_, ?_⟩
  · cases ending <;> first | rfl | exact absurd isEnd id
  · split <;> exact nofun

/-- Data and then the end of a load. -/
theorem conforms_data_iff {count lengthReceived : Nat} {data : StdString} (isEnd : ending.IsEnd) :
    Conforms reactions handle count .receiving
        [.didReceiveData data lengthReceived, ending] ↔
      ¬Drops (reactions count) handle := by
  constructor
  · rintro ⟨later, -, rest⟩ drops
    rw [if_pos drops] at rest
    exact not_conforms_gone rest
  · intro keeps
    refine ⟨.receiving, rfl, ?_⟩
    rw [if_neg keeps]
    exact conforms_ending isEnd

variable {response : ResourceResponse}

/-- A response and what follows it. -/
theorem conforms_response_iff : Conforms reactions handle count .awaiting
        (.didReceiveResponse response :: clientCall :: clientCalls) ↔
      ¬Drops (reactions count) handle ∧ Conforms reactions handle (count + 1) .receiving
          (clientCall :: clientCalls) := by
  constructor
  · rintro ⟨later, moved, rest⟩
    have keeps : ¬Drops (reactions count) handle := by
      intro drops
      rw [if_pos drops] at rest
      exact not_conforms_gone rest
    rw [if_neg keeps] at rest
    cases moved
    exact ⟨keeps, rest⟩
  · rintro ⟨keeps, rest⟩
    refine ⟨.receiving, rfl, ?_⟩
    rwa [if_neg keeps]

/-- A second response is never allowed. -/
theorem not_conforms_second_response {phase : DeliveryPhase} (notAwaiting : phase ≠ .awaiting) :
    ¬Conforms reactions handle count phase
      (.didReceiveResponse response :: clientCalls) := by
  rintro ⟨later, moved, -⟩
  cases phase with
  | awaiting => exact notAwaiting rfl
  | receiving | ended | gone => cases moved

/-- A whole load behind a `willSendRequest`. -/
theorem conformsUnlessCancelled_iff {count lengthReceived : Nat} {data : StdString}
    (isEnd : ending.IsEnd) : ConformsUnlessCancelled reactions handle count .awaiting
        [.didReceiveResponse response, .didReceiveData data lengthReceived, ending] ↔
      Cancels (reactions count) handle ∨
        ¬Drops (reactions count) handle ∧ ¬Drops (reactions (count + 1)) handle ∧
          ¬Drops (reactions (count + 2)) handle := by
  constructor
  · rintro ⟨later, moved, cancels | rest⟩
    · exact .inl cancels
    · cases moved
      by_cases drops : Drops (reactions count) handle
      · rw [if_pos drops] at rest
        exact absurd rest not_conforms_gone
      · rw [if_neg drops, conforms_response_iff, conforms_data_iff isEnd] at rest
        exact .inr ⟨drops, rest⟩
  · rintro (cancels | ⟨keeps, rest⟩)
    · exact ⟨.awaiting, rfl, .inl cancels⟩
    · refine ⟨.awaiting, rfl, .inr ?_⟩
      rw [if_neg keeps, conforms_response_iff, conforms_data_iff isEnd]
      exact rest

theorem Settles.congr {ok other : Prop} (settles : loader.Settles pending ok) (same : ok ↔ other) :
    loader.Settles pending other := by
  rwa [propext same] at settles

/-- The first call of a request that waits needs a client. -/
theorem conforms_phaseOf_iff (awaiting : stage handle = .awaiting) :
    Conforms reactions handle loader.calls (loader.phaseOf stage handle)
        (clientCall :: clientCalls) ↔
      ¬loader.Gone handle ∧ Conforms reactions handle loader.calls .awaiting
          (clientCall :: clientCalls) := by
  rw [phaseOf, awaiting]
  by_cases isGone : loader.Gone handle
  · rw [if_pos isGone]
    exact iff_of_false not_conforms_gone fun both => both.1 isGone
  · rw [if_neg isGone, and_iff_right isGone]

variable (sound : loader.Sound pending stage)
include sound

/-- Base64 data: a response, and a second one behind `willSendRequest`. -/
theorem settles_base64 {first second : ResourceResponse} (shape : loader.Shape (handle :: pending))
    (awaiting : stage handle = .awaiting) :
    (((loader.call reactions handle (.didReceiveResponse first)).deliverUnlessCancelled
      reactions handle (.didReceiveResponse second :: clientCalls)).record handle
        .release).Settles pending
      (¬loader.Gone handle ∧ ¬Drops (reactions loader.calls) handle ∧
        Cancels (reactions (loader.calls + 1)) handle) := by
  have settled : (((loader.call reactions handle
        (.didReceiveResponse first)).deliverUnlessCancelled reactions handle
          (.didReceiveResponse second :: clientCalls)).record handle
            .release).Settles pending
        (∃ later, (loader.phaseOf stage handle).next
            (.call (.didReceiveResponse first)) = some later ∧
          ConformsUnlessCancelled reactions handle (loader.calls + 1)
            (if Drops (reactions loader.calls) handle then .gone else later)
            (.didReceiveResponse second :: clientCalls)) := by
    apply settles_call
      (fun phase => ConformsUnlessCancelled reactions handle (loader.calls + 1) phase
        (.didReceiveResponse second :: clientCalls))
      sound shape
    · exact (trace_prefix_deliverUnlessCancelled _).trans (prefix_append _ _)
    · intro later soundCall phase _
      have rest := @settles_deliverUnlessCancelled reactions _ handle _ _
        (.didReceiveResponse second :: clientCalls) soundCall
        (shape.call handle (.didReceiveResponse first))
      rwa [phase, calls_call] at rest
  apply settled.congr
  rw [phaseOf, awaiting]
  by_cases isGone : loader.Gone handle
  · rw [if_pos isGone]
    refine iff_of_false ?_ fun all => all.1 isGone
    rintro ⟨later, moved, -⟩
    cases moved
  rw [if_neg isGone, and_iff_right isGone]
  constructor
  · rintro ⟨later, moved, afterwards, redirected, rest⟩
    cases moved
    by_cases drops : Drops (reactions loader.calls) handle
    · rw [if_pos drops] at redirected
      cases redirected
    · rw [if_neg drops] at redirected
      cases redirected
      refine ⟨drops, rest.resolve_right ?_⟩
      apply not_conforms_second_response
      split <;> exact nofun
  · rintro ⟨keeps, cancels⟩
    refine ⟨.receiving, rfl, .receiving, ?_, .inl cancels⟩
    rw [if_neg keeps]
    rfl

/-- The processing of a `data:` URL. -/
theorem settles_processDataUrl {env : LoaderPlatform} {files : WString → Option LocalFile}
    {item : DirectLoaderQueuedItem} (shape : loader.Shape (item.handle :: pending))
    (awaiting : stage item.handle = .awaiting) (notCancelled : loader.cancelled item.handle = false)
    (isData : env.protocolIsData item.path = true) :
    ((loader.processDataUrl env reactions item).record item.handle .release).Settles pending
        (ItemDelivers env reactions files loader item) := by
  have gone_iff : loader.Gone item.handle ↔ loader.hasClient item.handle = false := by
    rw [Gone, notCancelled, or_iff_right Bool.false_ne_true]
  have kept_iff : loader.hasClient item.handle = true ↔ ¬loader.Gone item.handle := by
    rw [gone_iff, Bool.not_eq_false]
  rw [processDataUrl, ItemDelivers, if_pos isData]
  cases WString.find item.path 44 with
  | none =>
    apply (settles_release sound shape).congr
    rw [phaseOf, awaiting]
    rw [← gone_iff]
    by_cases isGone : loader.Gone item.handle
    · rw [if_pos isGone]
      exact iff_of_true nofun isGone
    · rw [if_neg isGone]
      exact iff_of_false (fun allowed => allowed rfl) isGone
  | some index =>
    dsimp only
    rw [kept_iff]
    cases (splitDataUrl item.path index).base64 with
    | true => exact settles_base64 sound shape awaiting
    | false =>
      apply (settles_deliver _ sound shape).congr
      rw [cons_append, conforms_phaseOf_iff awaiting]
      apply and_congr_right
      intro _
      split
      · rename_i hasData
        rw [singleton_append, conforms_response_iff,
          conforms_data_iff (show ClientCall.IsEnd .didFinishLoading from trivial)]
        exact and_congr_right fun _ => (imp_iff_right hasData).symm
      · rename_i noData
        rw [nil_append, conforms_response_iff]
        exact and_congr_right fun _ => iff_of_true (conforms_ending trivial)
          fun hasData => absurd hasData noData

/-- The processing of a local file. -/
theorem settles_processLocalFile {env : LoaderPlatform} {files : WString → Option LocalFile}
    {item : DirectLoaderQueuedItem} (shape : loader.Shape (item.handle :: pending))
    (awaiting : stage item.handle = .awaiting) (notCancelled : loader.cancelled item.handle = false)
    (isFile : env.protocolIsData item.path = false) :
    ((loader.processLocalFile env reactions files item).record item.handle
      .release).Settles pending
        (ItemDelivers env reactions files loader item) := by
  have gone_iff : loader.Gone item.handle ↔ loader.hasClient item.handle = false := by
    rw [Gone, notCancelled, or_iff_right Bool.false_ne_true]
  rw [processLocalFile, ItemDelivers, if_neg (Bool.eq_false_iff.1 isFile)]
  cases hasClient : loader.hasClient item.handle with
  | false =>
    have isGone : loader.Gone item.handle := gone_iff.2 hasClient
    apply (settles_release sound shape).congr
    rw [phaseOf, if_pos isGone]
    refine iff_of_true nofun fun isTrue => ?_
    cases isTrue
  | true =>
    have kept : ¬loader.Gone item.handle := by
      rw [gone_iff, hasClient]
      exact Bool.noConfusion
    cases readLocalFile (files (env.path item.path)) with
    | none =>
      apply (settles_deliver _ sound shape).congr
      rw [conforms_phaseOf_iff awaiting, and_iff_right kept,
        conforms_response_iff, and_iff_left (conforms_ending
          (show ClientCall.IsEnd (.didFail _) from trivial))]
      exact (imp_iff_right rfl).symm
    | some data =>
      apply (settles_deliverUnlessCancelled _ sound shape).congr
      rw [phaseOf, if_neg kept, awaiting, conformsUnlessCancelled_iff
        (show ClientCall.IsEnd .didFinishLoading from trivial)]
      exact (imp_iff_right rfl).symm

end Items

/-! ## The queue -/

/-- The condition under which an item of the queue is served as it should be;
nothing is asked of items that are deferred or cancelled. -/
def ServiceDelivers (env : LoaderPlatform) (reactions : Reactions)
    (surroundings : Surroundings) (loader : DirectLoader) (item : DirectLoaderQueuedItem) : Prop :=
  surroundings.isSystemSuspending item.handle = false → loader.cancelled item.handle = false →
      ItemDelivers env reactions surroundings.files loader item

section Service

variable {env : LoaderPlatform} {reactions : Reactions}
  {surroundings : Surroundings} {loader : DirectLoader} {pending : List HandleId}
  {stage : HandleId → DeliveryPhase}

theorem Shape.deliverUnlessCancelled (shape : loader.Shape pending) (handle : HandleId)
    (clientCalls : List ClientCall) :
    (loader.deliverUnlessCancelled reactions handle clientCalls).Shape pending := by
  rw [DirectLoader.deliverUnlessCancelled]
  split
  · exact shape.call handle .willSendRequest
  · exact (shape.call handle .willSendRequest).deliver handle clientCalls

theorem Shape.processItem (shape : loader.Shape pending) (item : DirectLoaderQueuedItem) :
    (loader.processItem env reactions surroundings.files item).Shape
      pending := by
  rw [DirectLoader.processItem]
  split
  · rw [processDataUrl]
    split
    · exact shape
    · dsimp only
      split
      · exact (shape.call item.handle _).deliverUnlessCancelled item.handle _
      · exact shape.deliver item.handle _
  · rw [processLocalFile]
    split
    · exact shape
    · split
      · exact shape.deliverUnlessCancelled item.handle _
      · exact shape.deliver item.handle _

/-- Letting go of the request in hand. -/
theorem Shape.release {handle : HandleId} (shape : loader.Shape (handle :: pending)) :
    (loader.record handle .release).Shape pending where
  nodup := (nodup_cons.1 shape.nodup).2
  old := fun other member => shape.old other (.tail _ member)
  loaded := by
    intro other isOld
    obtain held | released := shape.loaded other isOld
    · rw [cons_append, mem_cons] at held
      obtain rfl | waiting := held
      · exact .inr (mem_append_right _ (.head _))
      · exact .inl waiting
    · exact .inr (mem_append_left _ released)
  freshKept := shape.freshKept

theorem Shape.serviceItem {item : DirectLoaderQueuedItem}
    (shape : loader.Shape (item.handle :: pending)) :
    (loader.serviceItem env reactions surroundings item).Shape pending := by
  rw [DirectLoader.serviceItem]
  split
  · have same : (pending ++ queued { loader with queue := loader.queue ++ [item] }).Perm
        (item.handle :: pending ++ loader.queued) := by
      rw [queued, map_append, ← append_assoc]
      exact perm_append_singleton _ _
    refine ⟨same.nodup_iff.2 shape.nodup, ?_, ?_, shape.freshKept⟩
    · exact fun other member => shape.old other (same.subset member)
    · intro other isOld
      exact (shape.loaded other isOld).imp_left fun held => same.symm.subset held
  · split
    · exact shape.release
    · exact (shape.processItem item).release

theorem Sound.tail {handle : HandleId} (sound : loader.Sound (handle :: pending) stage) :
    loader.Sound pending stage where
  phase := sound.phase
  awaiting := fun other isWaiting =>
    sound.awaiting other (isWaiting.imp_left (.tail _))

/-- One turn of the loop over the queue. -/
theorem settles_serviceItem {item : DirectLoaderQueuedItem}
    (sound : loader.Sound (item.handle :: pending) stage)
    (shape : loader.Shape (item.handle :: pending)) :
    (loader.serviceItem env reactions surroundings item).Settles pending
      (ServiceDelivers env reactions surroundings loader item) := by
  have awaiting : stage item.handle = .awaiting :=
    sound.awaiting item.handle (.inl (.head _))
  rw [serviceItem, ServiceDelivers]
  cases suspending : surroundings.isSystemSuspending item.handle with
  | true =>
    rw [if_pos rfl]
    refine ⟨fun _ => ⟨stage, sound.phase, ?_⟩, fun _ isFalse => ?_⟩
    · intro other isWaiting
      apply sound.awaiting
      rw [queued, map_append, ← append_assoc] at isWaiting
      exact isWaiting.imp_left fun held => (perm_append_singleton _ _).subset held
    · cases isFalse
  | false =>
    rw [imp_iff_right rfl]
    cases notCancelled : loader.cancelled item.handle with
    | true =>
      apply (settles_release sound.tail shape).congr
      rw [phaseOf, if_pos (show loader.Gone item.handle from Or.inl notCancelled)]
      refine iff_of_true nofun fun isFalse => ?_
      cases isFalse
    | false =>
      rw [imp_iff_right rfl, processItem]
      cases protocol : env.protocolIsData item.path with
      | true =>
        exact settles_processDataUrl sound.tail shape awaiting notCancelled
          protocol
      | false =>
        exact settles_processLocalFile sound.tail shape awaiting notCancelled
          protocol

theorem trace_prefix_serviceItem (item : DirectLoaderQueuedItem) : loader.trace <+:
      (loader.serviceItem env reactions surroundings item).trace := by
  have processed : loader.trace <+:
      (loader.processItem env reactions surroundings.files item).trace := by
    rw [processItem]
    split
    · rw [processDataUrl]
      split
      · exact prefix_refl _
      · dsimp only
        split
        · exact (trace_prefix_call _).trans (trace_prefix_deliverUnlessCancelled _)
        · exact trace_prefix_deliver _
    · rw [processLocalFile]
      split
      · exact prefix_refl _
      · split
        · exact trace_prefix_deliverUnlessCancelled _
        · exact trace_prefix_deliver _
  rw [serviceItem]
  split
  · exact prefix_refl _
  · split
    · exact prefix_append _ _
    · exact processed.trans (prefix_append _ _)

theorem trace_prefix_final (items : List DirectLoaderQueuedItem) : loader.trace <+:
      (Runs.final (serviceItem env reactions surroundings) loader items).trace := by
  induction items generalizing loader with
  | nil => exact prefix_refl _
  | cons item items ih => exact (trace_prefix_serviceItem item).trans ih

theorem Shape.final (items : List DirectLoaderQueuedItem)
    (shape : loader.Shape (items.map DirectLoaderQueuedItem.handle)) :
    (Runs.final (DirectLoader.serviceItem env reactions surroundings) loader
      items).Shape [] := by
  induction items generalizing loader with
  | nil => exact shape
  | cons item items ih => exact ih shape.serviceItem

/-- The loop over the queue. -/
theorem settles_final (items : List DirectLoaderQueuedItem)
    (sound : loader.Sound (items.map DirectLoaderQueuedItem.handle) stage)
    (shape : loader.Shape (items.map DirectLoaderQueuedItem.handle)) :
    (Runs.final (serviceItem env reactions surroundings) loader items).Settles []
      (Runs.StepsMeet (serviceItem env reactions surroundings)
        (ServiceDelivers env reactions surroundings) loader items) := by
  induction items generalizing loader stage with
  | nil => exact ⟨fun _ => ⟨stage, sound⟩, fun _ => trivial⟩
  | cons item items ih =>
    obtain ⟨sufficient, necessary⟩ :=
      @settles_serviceItem env reactions surroundings _ _ _ item sound shape
    rw [Runs.stepsMeet_cons]
    by_cases served : ServiceDelivers env reactions surroundings loader item
    · obtain ⟨later, soundLater⟩ := sufficient served
      rw [and_iff_right served]
      exact ih soundLater shape.serviceItem
    · refine ⟨fun both => absurd both.1 served, fun legal => ?_⟩
      exact absurd legal (not_legal_of_extended (trace_prefix_final items)
        fun legalNow => served (necessary legalNow))

/-- A request that is reached while the system is not suspending is let go of. -/
theorem release_mem_final (notSuspending : ∀ handle, surroundings.isSystemSuspending handle = false)
    (items : List DirectLoaderQueuedItem) : ∀ item ∈ items, (item.handle, .release) ∈
      (Runs.final (serviceItem env reactions surroundings) loader items).trace := by
  induction items generalizing loader with
  | nil => exact nofun
  | cons item items ih =>
    rw [forall_mem_cons]
    refine ⟨?_, ih⟩
    apply (trace_prefix_final items).subset
    rw [serviceItem, notSuspending, if_neg Bool.false_ne_true]
    split <;> exact mem_append_right _ (.head _)

end Service

/-! ## Runs -/

/-- Every request gets its deliveries: no client gets a call that the protocol
does not allow, every request is in the queue or let go of, and the queue is
served by the next firing of the timer outside a suspend. -/
structure Delivered (env : LoaderPlatform) (reactions : Reactions)
    (loader : DirectLoader) : Prop where
  legal : loader.Legal
  loaded : ∀ handle < loader.nextHandle, handle ∈ loader.queued ∨ (handle, .release) ∈ loader.trace
  timer : loader.queue ≠ [] → loader.timerActive = true
  served : ∀ surroundings, (∀ handle, surroundings.isSystemSuspending handle = false) →
    ∀ item ∈ loader.queue, (item.handle, .release) ∈
      (loader.step env reactions (.timerFired surroundings)).trace

/-- The condition under which an operation serves its requests. -/
def StepDelivers (env : LoaderPlatform) (reactions : Reactions)
    (loader : DirectLoader) : Operation → Prop
  | .act _ => True
  | .timerFired surroundings =>
    loader.timerActive = true → Runs.StepsMeet (serviceItem env reactions surroundings)
        (ServiceDelivers env reactions surroundings)
        { loader with queue := [], timerActive := false } loader.queue

/-- The invariant of a run that serves its requests. -/
structure Good (loader : DirectLoader) : Prop where
  shape : loader.Shape []
  timer : loader.queue ≠ [] → loader.timerActive = true
  sound : ∃ stage, loader.Sound [] stage

section Runs

variable {env : LoaderPlatform} {reactions : Reactions} {loader : DirectLoader}

theorem good_start : start.Good where
  shape := ⟨.nil, nofun, nofun, fun handle _ isGone => by
    obtain isTrue | isFalse := isGone
    · cases isTrue
    · cases isFalse⟩
  timer := fun notEmpty => absurd rfl notEmpty
  sound := ⟨fun _ => .awaiting, fun handle => rfl, fun _ _ => rfl⟩

theorem Good.delivered (good : loader.Good) : loader.Delivered env reactions where
  legal := by
    obtain ⟨stage, sound⟩ := good.sound
    exact sound.legal
  loaded := good.shape.loaded
  timer := good.timer
  served := by
    intro surroundings notSuspending item inQueue
    rw [step, if_pos (good.timer (ne_nil_of_mem inQueue))]
    exact release_mem_final notSuspending loader.queue item inQueue

/-- The timer is active while there is something in the queue. -/
theorem timer_act (timer : loader.queue ≠ [] → loader.timerActive = true) (action : ClientAction) :
    (loader.act action).queue ≠ [] → (loader.act action).timerActive = true := by
  cases action with
  | cancel handle =>
    rw [act, cancel]
    split
    · rw [cancelQueued]
      split
      · intro notEmpty
        apply timer
        rintro isEmpty
        apply notEmpty
        change loader.queue.filter _ = []
        rw [isEmpty]
        rfl
      · exact timer
    · exact timer
  | clearClient handle =>
    rw [act, clearClient]
    split <;> exact timer
  | load path => exact fun _ => rfl

theorem Good.act (good : loader.Good) (action : ClientAction) : (loader.act action).Good where
  shape := good.shape.act action
  timer := timer_act good.timer action
  sound := by
    obtain ⟨stage, sound⟩ := good.sound
    exact ⟨stage, sound.act action⟩

/-- The queue as the timer takes it over. -/
theorem Good.taken (good : loader.Good) :
    Shape { loader with queue := [], timerActive := false } loader.queued ∧
      ∃ stage, Sound { loader with queue := [], timerActive := false }
        loader.queued stage := by
  obtain ⟨stage, sound⟩ := good.sound
  have same : loader.queued ++
      queued { loader with queue := [], timerActive := false } = [] ++ loader.queued :=
    append_nil _
  refine ⟨⟨?_, ?_, ?_, good.shape.freshKept⟩, stage, sound.phase, ?_⟩
  · rw [same]
    exact good.shape.nodup
  · rw [same]
    exact good.shape.old
  · rw [same]
    exact good.shape.loaded
  · rw [same]
    exact sound.awaiting

/-- A firing of the timer. -/
theorem settles_timerFired (good : loader.Good) (surroundings : Surroundings) :
    (loader.serviceQueueTimerFired env reactions surroundings).Settles []
      (Runs.StepsMeet (serviceItem env reactions surroundings)
        (ServiceDelivers env reactions surroundings)
        { loader with queue := [], timerActive := false } loader.queue) := by
  obtain ⟨shape, stage, sound⟩ := good.taken
  obtain ⟨sufficient, necessary⟩ :=
    @settles_final env reactions surroundings _ _ loader.queue sound shape
  refine ⟨fun served => ?_, necessary⟩
  obtain ⟨later, soundLater⟩ := sufficient served
  exact ⟨later, soundLater.phase, soundLater.awaiting⟩

theorem Good.timerFired (good : loader.Good) (surroundings : Surroundings)
    (served : Runs.StepsMeet (serviceItem env reactions surroundings)
      (ServiceDelivers env reactions surroundings)
      { loader with queue := [], timerActive := false } loader.queue) :
    (loader.serviceQueueTimerFired env reactions surroundings).Good where
  shape := by
    have shape : Shape _ [] := @Shape.final env reactions surroundings _
      loader.queue good.taken.1
    exact ⟨shape.nodup, shape.old, shape.loaded, shape.freshKept⟩
  timer := by
    intro notEmpty
    rw [serviceQueueTimerFired] at notEmpty ⊢
    rw [Bool.or_eq_true, Bool.not_eq_true', isEmpty_eq_false_iff]
    exact .inr notEmpty
  sound := (settles_timerFired good surroundings).1 served

theorem Good.step (op : Operation) (good : loader.Good)
    (served : loader.StepDelivers env reactions op) :
    (loader.step env reactions op).Good := by
  cases op with
  | act action => exact good.act action
  | timerFired surroundings =>
    rw [DirectLoader.step]
    split
    · rename_i active
      exact good.timerFired surroundings (served active)
    · exact good

theorem stepDelivers_of_legal (op : Operation) (good : loader.Good)
    (legal : (loader.step env reactions op).Legal) :
    loader.StepDelivers env reactions op := by
  cases op with
  | act action => trivial
  | timerFired surroundings =>
    intro active
    rw [DirectLoader.step, if_pos active] at legal
    exact (settles_timerFired good surroundings).2 legal

/-- A platform that takes every URL for a `data:` URL. -/
def dataPlatform : LoaderPlatform where
  protocolIsData := fun _ => true
  path := id
  string := id
  extractMIMETypeFromMediaType := id
  extractCharsetFromMediaType := fun _ => []
  decodeURLEscapeSequences := id
  decodeURLEscapeSequencesWith := fun _ => id
  base64Decode := fun _ => []
  getMIMETypeForPath := fun _ => []

end Runs

end DirectLoader

end Network
end PalmWebKit
