import Wyostat.OpenThermostat.HvacState

/-! The requests of the dashboard. The listener of `wyostat.requestmode` is declared with the topic
of the last listener, which the count of the table leaves out. -/
namespace Wyostat.OpenThermostat

/-- What the buttons of the dashboard ask for. -/
inductive Inquiry where
  | temp | targettemp | mode | state
  deriving DecidableEq, Repr

def Inquiry.topic : Inquiry → String
  | .temp => "wyostat.requesttemp"
  | .targettemp => "wyostat.requesttargettemp"
  | .mode => "wyostat.requestmode"
  | .state => "wyostat.requeststate"

/-- A message that answers the inquiry in state `s`; the target is looked up before tick `j`. -/
def Inquiry.AnsweredBy (w : World) (s : Stat) (j : ℕ) (m : Msg) : Inquiry → Prop
  | .temp => m = ⟨"wyostat.temp", Decimal.itoa (truncate w.intOfNan s.localtemp)⟩
  | .targettemp => m.topic = "wyostat.targettemp" ∧ ∃ t, s.tick ≤ t ∧ t < j ∧
      m.payload = Decimal.itoa (s.targettemps (slotOf (w.hours t))).toNat
  | .mode => m = ⟨"wyostat.hvacmode", cString s.hvacmode.toList⟩
  | .state => m = ⟨"wyostat.hvac_state", s.stateText⟩

/-- The broker hands over the topics the device has subscribed to. -/
def arrive (w : World) (m : Msg) (s : Stat) : Stat :=
  if m.topic ∈ subscribe then mqttCallback w m s else s

/-- Handling the message makes the device publish an answer. -/
def Inquiry.Answered (w : World) (s : Stat) (payload : List Char) (q : Inquiry) : Prop :=
  ∃ ms, published (arrive w ⟨q.topic, payload⟩ s).log = published s.log ++ ms ∧
    ∃ m ∈ ms, q.AnsweredBy w s (arrive w ⟨q.topic, payload⟩ s).tick m

/-- The connection holds while a request is answered. -/
def Steadfast (w : World) (s : Stat) : Prop :=
  s.connected = true ∧ ∀ t, s.tick ≤ t → t < s.tick + 6 → w.link t = true

/-- The place in the table of the listener that `mqtt_callback` runs. -/
def dispatched (topic : String) : Option ℕ :=
  (topicListeners.take nTopicListeners).findIdx? (·.topic = topic)

theorem mqttCallback_dispatched (w : World) (m : Msg) (s : Stat) :
    mqttCallback w m s =
      ((dispatched m.topic).bind ((topicListeners.take nTopicListeners)[·]?)).elim s
        fun l => l.callback w m.payload s := by
  rw [mqttCallback, List.find?_eq_bind_findIdx?_getElem?, dispatched]
  cases (topicListeners.take nTopicListeners).findIdx? (·.topic = m.topic) with
  | none => rfl
  | some i => cases h : (topicListeners.take nTopicListeners)[i]? <;> simp [h]

section Answers
variable {w : World} {s : Stat}

theorem published_publishHvacState (h : s.connected = true)
    (hlink : ∀ t, s.tick ≤ t → t < s.tick + 5 → w.link t = true) :
    published (publishHvacState w s).log = published s.log ++
      [⟨"wyostat.hvac_state", s.stateText⟩, ⟨"wyostat.away", boolText s.away⟩,
        ⟨"wyostat.temp", Decimal.itoa (truncate w.intOfNan s.localtemp)⟩,
        ⟨"wyostat.targettemp",
          Decimal.itoa (s.targettemps (slotOf (w.hours (s.tick + 3)))).toNat⟩] := by
  have h0 := hlink s.tick (by omega) (by omega)
  have h1 := hlink (s.tick + 1) (by omega) (by omega)
  have h2 := hlink (s.tick + 2) (by omega) (by omega)
  have h4 := hlink (s.tick + 4) (by omega) (by omega)
  simp [publishHvacState, publishBool, publishInt, h, h0, h1, h2, h4, getTargettemp,
    getTargetIndex, Stat.stateText]

theorem Steadfast.publish (h : Steadfast w s) (topic : String) (payload : List Char) :
    (publish w topic payload s).connected = true ∧
      published (publish w topic payload s).log = published s.log ++ [⟨topic, payload⟩] := by
  have hnow := h.2 s.tick (by omega) (by omega)
  simp [h.1, hnow]

/-- The callback that runs for `wyostat.requeststate` is meant for the mode and also publishes
the state. -/
theorem published_requestmodeCb (h : Steadfast w s) (payload : List Char) :
    published (requestmodeCb w payload s).log = published s.log ++
      [⟨"wyostat.hvacmode", cString s.hvacmode.toList⟩, ⟨"wyostat.hvac_state", s.stateText⟩,
        ⟨"wyostat.away", boolText s.away⟩,
        ⟨"wyostat.temp", Decimal.itoa (truncate w.intOfNan s.localtemp)⟩,
        ⟨"wyostat.targettemp",
          Decimal.itoa (s.targettemps (slotOf (w.hours (s.tick + 4)))).toNat⟩] := by
  obtain ⟨hconn, hmode⟩ := h.publish "wyostat.hvacmode" (cString s.hvacmode.toList)
  rw [requestmodeCb, published_publishHvacState hconn fun t ht hlt => h.2 t (Nat.le_of_succ_le ht)
    (hlt.trans_le (Nat.le_of_eq (Nat.add_right_comm ..))), hmode, List.append_assoc]
  rfl

theorem not_answered_mode (payload : List Char) : ¬ Inquiry.mode.Answered w s payload := by
  rintro ⟨ms, hms, m, hm, -⟩
  have hunsubscribed : Inquiry.mode.topic ∉ subscribe := by decide
  have hunheard : arrive w ⟨Inquiry.mode.topic, payload⟩ s = s := if_neg hunsubscribed
  rw [hunheard, List.self_eq_append_right] at hms
  rw [hms] at hm
  cases hm

theorem answered_of_ne_mode (h : Steadfast w s) {q : Inquiry} (hq : q ≠ .mode)
    (payload : List Char) : q.Answered w s payload := by
  have hstate := published_publishHvacState h.1 fun t ht hlt => h.2 t ht (hlt.trans (by omega))
  cases q with
  | temp =>
    have harrive : arrive w ⟨Inquiry.temp.topic, payload⟩ s = publishHvacState w s := rfl
    exact ⟨_, harrive ▸ hstate, _, by simp, rfl⟩
  | targettemp =>
    have harrive : arrive w ⟨Inquiry.targettemp.topic, payload⟩ s = publishHvacState w s := rfl
    refine ⟨_, harrive ▸ hstate, ⟨"wyostat.targettemp",
      Decimal.itoa (s.targettemps (slotOf (w.hours (s.tick + 3)))).toNat⟩, by simp, rfl,
      s.tick + 3, by omega, ?_, rfl⟩
    rw [harrive, publishHvacState_tick]
    omega
  | mode => exact absurd rfl hq
  | state =>
    have harrive : arrive w ⟨Inquiry.state.topic, payload⟩ s = requestmodeCb w payload s := rfl
    exact ⟨_, harrive ▸ published_requestmodeCb h payload, _, by simp, rfl⟩

theorem dispatched_topic_iff : ∀ (i : ℕ) (hi : i < topicListeners.length),
    dispatched topicListeners[i].topic = some i ↔ i ≠ 6 := by
  decide

theorem mqttCallback_topic (w : World) (payload : List Char) (s : Stat) {i : ℕ}
    (hi : i < topicListeners.length) (hlast : i ≠ 6) :
    mqttCallback w ⟨topicListeners[i].topic, payload⟩ s =
      topicListeners[i].callback w payload s := by
  have hseven : topicListeners.length = 7 := rfl
  have hcount : i < nTopicListeners := show i < 6 by omega
  have hfind : (topicListeners.take nTopicListeners)[i]? = some topicListeners[i] := by
    rw [List.getElem?_take_of_lt hcount, List.getElem?_eq_getElem hi]
  rw [mqttCallback_dispatched]
  dsimp only
  rw [(dispatched_topic_iff i hi).mpr hlast, Option.bind_some, hfind, Option.elim_some]

/-- The callback for the state is not run: the mode would not be published by it. -/
theorem mqttCallback_requeststate_ne (h : Steadfast w s) (payload : List Char) :
    mqttCallback w ⟨"wyostat.requeststate", payload⟩ s ≠ requeststateCb w payload s := by
  intro heq
  have hmode : mqttCallback w ⟨"wyostat.requeststate", payload⟩ s = requestmodeCb w payload s :=
    mqttCallback_topic w payload s (i := 4) (by decide) (by decide)
  have hstate := published_publishHvacState h.1 fun t ht hlt => h.2 t ht (hlt.trans (by omega))
  have hlength := congrArg (fun t => (published (Stat.log t)).length) (hmode.symm.trans heq)
  have hrequest : requeststateCb w payload s = publishHvacState w s := rfl
  simp only [published_requestmodeCb h, hrequest, hstate, List.length_append, List.length_cons,
    List.length_nil] at hlength
  omega

end Answers

/-- In every connected state every request of the dashboard is answered but the one for the mode,
and every listener handles the messages on its own topic but the last one of the table. -/
theorem inquiries_answered_iff {w : World} {s : Stat} (h : Steadfast w s) :
    (∀ (q : Inquiry) (payload : List Char), q.Answered w s payload ↔ q ≠ .mode) ∧
      (∀ (i : ℕ) (hi : i < topicListeners.length),
        dispatched topicListeners[i].topic = some i ↔ i ≠ 6) ∧
      ∀ (i : ℕ) (hi : i < topicListeners.length),
        (∀ payload, mqttCallback w ⟨topicListeners[i].topic, payload⟩ s =
          topicListeners[i].callback w payload s) ↔ i ≠ 6 := by
  refine ⟨fun q payload => ⟨?_, fun hq => answered_of_ne_mode h hq payload⟩, dispatched_topic_iff,
    fun i hi => ⟨?_, fun hlast payload => mqttCallback_topic w payload s hi hlast⟩⟩
  · rintro hq rfl
    exact not_answered_mode payload hq
  · rintro hrun rfl
    exact mqttCallback_requeststate_ne h [] (hrun [])

theorem steadfast_setup :
    Steadfast stillWorld (setup stillWorld (.num 70) Eeprom.erased 1) :=
  ⟨by decide +kernel, fun _ _ _ => rfl⟩

theorem inquiries_answered_iff_setup :
    Inquiry.temp.Answered stillWorld (setup stillWorld (.num 70) Eeprom.erased 1) [] :=
  ((inquiries_answered_iff ⟨by decide +kernel, fun _ _ _ => rfl⟩).1 .temp []).mpr (by decide)

/-- The request for the mode is not answered, and the listener of the state is not run. -/
theorem mode_inquiry_unanswered :
    Steadfast stillWorld (setup stillWorld (.num 70) Eeprom.erased 1) ∧
      ¬ Inquiry.mode.Answered stillWorld (setup stillWorld (.num 70) Eeprom.erased 1) [] ∧
      dispatched "wyostat.requeststate" = some 4 :=
  ⟨steadfast_setup, not_answered_mode [], by decide⟩

end Wyostat.OpenThermostat
