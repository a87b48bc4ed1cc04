import Wyostat.Lib.Run
import Wyostat.Lib.Script
import Mathlib.Data.PNat.Defs

/-! The dial of the dashboard, a template of the node-red flow. A drag moves its target, and so
does every message from the flow, to which the device publishes its target on every poll. -/
namespace Wyostat.ThermostatDial
open Machine Script

def diameter : ℚ := 400
def minValue : ℚ := 40
def maxValue : ℚ := 90
def rangeValue : ℚ := maxValue - minValue
def dragLockAxisDistance : ℚ := 15

inductive HvacState where
  | off | heating | cooling
  deriving DecidableEq, Repr

def HvacState.text : HvacState → List Char
  | .off => ['o', 'f', 'f']
  | .heating => ['h', 'e', 'a', 't', 'i', 'n', 'g']
  | .cooling => ['c', 'o', 'o', 'l', 'i', 'n', 'g']

structure Point where
  x : ℚ
  y : ℚ
  deriving DecidableEq, Repr

inductive Axis where
  | x | y
  deriving DecidableEq, Repr

/-- `_drag`; its start point is not read before the first drag has set it. -/
structure Drag where
  inProgress : Bool := false
  startPoint : Point := ⟨0, 0⟩
  startTemperature : Number := .num 0
  lockAxis : Option Axis := none
  deriving DecidableEq, Repr

/-- The properties of the dial, its drag, and the timeouts that have been set but have neither run
nor been cleared, each with the position of its event. -/
structure Dial where
  targetTemperature : Number := .num minValue
  ambientTemperature : Number := .num minValue
  hvacState : HvacState := .off
  hasLeaf : Bool := false
  away : Bool := false
  drag : Drag := {}
  timeouts : List (ℕ × Point) := []
  startDelay : Option ℕ := none
  nextTimeout : ℕ := 0
  deriving DecidableEq, Repr

def restrictToRange (val : Number) (min max : ℚ) : Number :=
  if val.lt (.num min) then .num min
  else if (Number.num max).lt val then .num max
  else val

def roundWhole (x : Number) : Number := x.round

def restrictTargetTemperature (t : Number) : Number :=
  restrictToRange (roundWhole t) minValue maxValue

def setTargetTemperature (val : Number) (s : Dial) : Dial :=
  { s with targetTemperature := restrictTargetTemperature val }

/-- Other values are not taken over. -/
def setHvacState (val : Value) (s : Dial) : Dial :=
  match [HvacState.off, .heating, .cooling].find? fun h => val = .string h.text with
  | some h => { s with hvacState := h }
  | none => s

structure Message where
  topic : String
  payload : Value
  deriving DecidableEq, Repr

/-- The watcher of `msg`. -/
def watch (m : Message) (s : Dial) : Dial :=
  if m.topic = "ambient_temperature" then
    { s with ambientTemperature := roundWhole m.payload.toNumber }
  else if m.topic = "target_temperature" then setTargetTemperature m.payload.toNumber s
  else if m.topic = "hvac_state" then setHvacState m.payload s
  else if m.topic = "has_leaf" then { s with hasLeaf := m.payload.toBoolean }
  else if m.topic = "away" then { s with away := m.payload.toBoolean }
  else s

/-- The drag begins a second later, when the timeout runs. -/
def dragStart (p : Point) (s : Dial) : Dial :=
  { s with
    timeouts := (s.nextTimeout, p) :: s.timeouts
    startDelay := some s.nextTimeout
    nextTimeout := s.nextTimeout + 1 }

def runTimeout (id : ℕ) (s : Dial) : Dial :=
  match s.timeouts.find? fun timeout => timeout.1 = id with
  | some (_, p) =>
    { s with
      timeouts := s.timeouts.filter fun timeout => timeout.1 ≠ id
      drag :=
        { inProgress := true
          startPoint := p
          startTemperature :=
            if s.targetTemperature.truthy then s.targetTemperature else .num minValue
          lockAxis := none } }
  | none => s

/-- The axis is locked once the pointer has moved far enough along it. -/
def lock (lockAxis : Option Axis) (dx dy : ℚ) : Option Axis :=
  match lockAxis with
  | some axis => some axis
  | none =>
    if dragLockAxisDistance < |dy| then some .y
    else if dragLockAxisDistance < |dx| then some .x
    else none

/-- `width` is the `clientWidth` of the element, which has one when it can be dragged. -/
def dragMove (width : ℕ+) (p : Point) (s : Dial) : Dial :=
  if s.drag.inProgress then
    let dy := s.drag.startPoint.y - p.y
    let dx := p.x - s.drag.startPoint.x
    let lockAxis := lock s.drag.lockAxis dx dy
    let dxy :=
      match lockAxis with
      | some .x => dx
      | some .y => dy
      | none => if |dx| < |dy| then dy else dx
    let dValue := dxy * (diameter / (width : ℕ)) / diameter * rangeValue
    setTargetTemperature (roundWhole (s.drag.startTemperature.add dValue))
      { s with drag := { s.drag with lockAxis := lockAxis } }
  else s

def dragEnd (s : Dial) : Dial :=
  { s with
    timeouts := s.timeouts.filter fun timeout => s.startDelay ≠ some timeout.1
    drag := { s.drag with inProgress := false } }

/-- The temperatures with which `dragEnd` calls `onSetTargetTemperature`. -/
def dragEndCalls (s : Dial) : List Number :=
  if s.drag.inProgress && s.targetTemperature.differs s.drag.startTemperature then
    [s.targetTemperature]
  else []

inductive Event where
  | dragStart (p : Point)
  | timeout (id : ℕ)
  | dragMove (p : Point)
  | dragEnd
  | message (m : Message)
  deriving DecidableEq, Repr

def step (width : ℕ+) (s : Dial) : Event → Dial
  | .dragStart p => dragStart p s
  | .timeout id => runTimeout id s
  | .dragMove p => dragMove width p s
  | .dragEnd => dragEnd s
  | .message m => watch m s

def calls (s : Dial) : Event → List Number
  | .dragEnd => dragEndCalls s
  | .dragStart _ | .timeout _ | .dragMove _ | .message _ => []

/-- A drag begins when a timeout runs that has not been cleared. -/
def Dial.begins (s : Dial) : Event → Bool
  | .timeout id => (s.timeouts.find? fun timeout => timeout.1 = id).isSome
  | .dragStart _ | .dragMove _ | .dragEnd | .message _ => false

/-- The dial, and the target with which its last drag began. -/
structure Dragging where
  dial : Dial := {}
  began : Number := .num minValue
  deriving DecidableEq, Repr

def Dragging.step (width : ℕ+) (x : Dragging) (e : Event) : Dragging :=
  ⟨ThermostatDial.step width x.dial e,
    if x.dial.begins e then x.dial.targetTemperature else x.began⟩

/-- The dial as a drag leaves it that has moved to `p` after the events before. -/
def dragged (width : ℕ+) (before : List Event) (p : Point) : Dragging :=
  (run (Dragging.step width) {} before).step width (.dragMove p)

/-- The target that a message sets. -/
def Message.target? (m : Message) : Option Number :=
  if m.topic = "target_temperature" then some (restrictTargetTemperature m.payload.toNumber)
  else none

section Messages
variable {width : ℕ+}

theorem setHvacState_drag (val : Value) (s : Dial) : (setHvacState val s).drag = s.drag := by
  unfold setHvacState
  split <;> rfl

theorem setHvacState_target (val : Value) (s : Dial) :
    (setHvacState val s).targetTemperature = s.targetTemperature := by
  unfold setHvacState
  split <;> rfl

theorem watch_drag (m : Message) (s : Dial) : (watch m s).drag = s.drag := by
  unfold watch
  split_ifs
  · rfl
  · rfl
  · exact setHvacState_drag ..
  all_goals rfl

theorem watch_target (m : Message) (s : Dial) :
    (watch m s).targetTemperature = m.target?.getD s.targetTemperature := by
  unfold watch Message.target?
  by_cases ht : m.topic = "target_temperature"
  · rw [if_neg (by rw [ht]; decide), if_pos ht, if_pos ht]
    rfl
  · rw [if_neg ht, if_neg ht]
    split_ifs
    · rfl
    · exact setHvacState_target ..
    all_goals rfl

theorem run_messages (width : ℕ+) (ms : List Message) (s : Dial) :
    (run (step width) s (ms.map .message)).drag = s.drag ∧
      (run (step width) s (ms.map .message)).targetTemperature =
        ((ms.filterMap Message.target?).getLast?).getD s.targetTemperature := by
  induction ms generalizing s with
  | nil => exact ⟨rfl, rfl⟩
  | cons m ms ih =>
    obtain ⟨hdrag, htarget⟩ := ih (watch m s)
    refine ⟨hdrag.trans (watch_drag m s), htarget.trans ?_⟩
    rw [watch_target, List.filterMap_cons]
    cases m.target? with
    | none => rfl
    | some t => cases h : (ms.filterMap Message.target?).getLast? <;> simp [List.getLast?_cons, h]

theorem outputs_messages (ms : List Message) (es : List Event) (s : Dial) :
    outputs (step width) calls s (ms.map .message ++ es) =
      outputs (step width) calls (run (step width) s (ms.map .message)) es := by
  induction ms generalizing s with
  | nil => rfl
  | cons m ms ih => exact ih (watch m s)

end Messages

section Drags
variable {width : ℕ+} {x : Dragging}

theorem dragMove_drag (p : Point) (s : Dial) :
    (dragMove width p s).drag = { s.drag with lockAxis := (dragMove width p s).drag.lockAxis } := by
  unfold dragMove
  split_ifs <;> rfl

/-- A drag in progress knows the target with which it began, unless that was NaN. -/
def Dragging.Kept (x : Dragging) : Prop :=
  x.dial.drag.inProgress = true →
    x.dial.drag.startTemperature = if x.began.truthy then x.began else .num minValue

theorem kept_step (x : Dragging) (e : Event) (h : x.Kept) : (x.step width e).Kept := by
  cases e with
  | dragStart p => exact h
  | timeout id =>
    cases htimeout : x.dial.timeouts.find? fun timeout => timeout.1 = id with
    | none =>
      have hsame : x.step width (.timeout id) = x := by
        simp [Dragging.step, step, runTimeout, Dial.begins, htimeout]
      rw [hsame]
      exact h
    | some timeout =>
      intro
      simp [Dragging.step, step, runTimeout, Dial.begins, htimeout]
  | dragMove p =>
    change (dragMove width p x.dial).drag.inProgress = true →
      (dragMove width p x.dial).drag.startTemperature = _
    rw [dragMove_drag]
    exact h
  | dragEnd => rintro ⟨⟩
  | message m =>
    change (watch m x.dial).drag.inProgress = true → (watch m x.dial).drag.startTemperature = _
    rw [watch_drag]
    exact h

theorem kept_dragged (width : ℕ+) (before : List Event) (p : Point) :
    (dragged width before p).Kept := by
  have hstart : ({} : Dragging).Kept := by rintro ⟨⟩
  exact kept_step _ _ (always_of_step kept_step hstart before).last

end Drags

/-- A drag whose last move sets another target than the drag began with sends that target, once,
if and only if no later message has left another target, and unless the drag began with NaN and
the target is the least one. -/
theorem drag_sent_iff {width : ℕ+} {before : List Event} {p : Point}
    (hdrag : (run (Dragging.step width) {} before).dial.drag.inProgress = true)
    (hnew : (dragged width before p).dial.targetTemperature.differs
      (dragged width before p).began = true) (after : List Message) :
    outputs (step width) calls (dragged width before p).dial (after.map .message ++ [.dragEnd]) =
        [(dragged width before p).dial.targetTemperature] ↔
      (∀ t ∈ (after.filterMap Message.target?).getLast?,
        t = (dragged width before p).dial.targetTemperature) ∧
      ((dragged width before p).began.truthy = true ∨
        (dragged width before p).dial.targetTemperature ≠ .num minValue) := by
  have hprogress : (dragged width before p).dial.drag.inProgress = true :=
    (congrArg Drag.inProgress (dragMove_drag p _)).trans hdrag
  have hstart := kept_dragged width before p hprogress
  generalize dragged width before p = x at hnew hprogress hstart ⊢
  have hdiffers : x.dial.targetTemperature.differs x.dial.drag.startTemperature = true ↔
      x.began.truthy = true ∨ x.dial.targetTemperature ≠ .num minValue := by
    rw [hstart]
    by_cases hbegan : x.began.truthy = true
    · rw [if_pos hbegan]
      exact iff_of_true hnew (.inl hbegan)
    · rw [if_neg hbegan, Number.differs_num_iff, or_iff_right hbegan]
  obtain ⟨hrun, htarget⟩ := run_messages width after x.dial
  have hcalls : outputs (step width) calls x.dial (after.map .message ++ [.dragEnd]) =
      dragEndCalls (run (step width) x.dial (after.map .message)) :=
    (outputs_messages after _ x.dial).trans (List.append_nil _)
  rw [hcalls, dragEndCalls, hrun, htarget, hprogress, ← hdiffers]
  cases (after.filterMap Message.target?).getLast? with
  | none => simp
  | some t =>
    simp only [Option.getD_some, Bool.true_and, Option.mem_def, Option.some.injEq, forall_eq']
    constructor
    · intro h
      split_ifs at h with ht
      have heq := List.singleton_inj.mp h
      exact ⟨heq, heq ▸ ht⟩
    · rintro ⟨rfl, ht⟩
      rw [if_pos ht]

/-- The target is reported as 68 degrees, and a drag begins in the middle of the dial. -/
def begun : List Event :=
  [.message ⟨"target_temperature", .string ['6', '8']⟩, .dragStart ⟨200, 200⟩, .timeout 0]

/-- A drag up to 72 degrees, which another client sets as well before the release. -/
theorem drag_sent_iff_begun :
    outputs (step 400) calls (dragged 400 begun ⟨200, 168⟩).dial
        ([⟨"target_temperature", .string ['7', '2']⟩].map .message ++ [.dragEnd]) =
        [(dragged 400 begun ⟨200, 168⟩).dial.targetTemperature] ↔
      (∀ t ∈ ([(⟨"target_temperature", .string ['7', '2']⟩ : Message)].filterMap
          Message.target?).getLast?,
        t = (dragged 400 begun ⟨200, 168⟩).dial.targetTemperature) ∧
      ((dragged 400 begun ⟨200, 168⟩).began.truthy = true ∨
        (dragged 400 begun ⟨200, 168⟩).dial.targetTemperature ≠ .num minValue) :=
  drag_sent_iff (by decide +kernel) (by decide +kernel) _

/-- Nothing is sent when the device has reported its old target once more before the release. -/
theorem begun_drag_lost :
    (run (Dragging.step 400) {} begun).dial.drag.inProgress = true ∧
      (dragged 400 begun ⟨200, 168⟩).dial.targetTemperature = .num 72 ∧
      (dragged 400 begun ⟨200, 168⟩).began = .num 68 ∧
      outputs (step 400) calls (dragged 400 begun ⟨200, 168⟩).dial
        [.message ⟨"target_temperature", .string ['6', '8']⟩, .dragEnd] = [] := by
  decide +kernel

end Wyostat.ThermostatDial
