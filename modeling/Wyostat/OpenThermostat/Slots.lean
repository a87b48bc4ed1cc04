import Wyostat.OpenThermostat.Reports

/-! What a message can do to the schedule: at most one slot changes, the one in force, and only
to an acceptable target. -/
namespace Wyostat.OpenThermostat
open Machine

/-- A message handed to `mqtt_callback`, during which the clock shows one hour. A mode fits the
buffer it is copied to, so that nothing behind the buffer is written. -/
structure Handover where
  world : World
  hour : UInt8
  msg : Msg
  fits : msg.topic = "wyostat.hvacmode" → msg.payload.length < 50

def Handover.clock (h : Handover) : World := { h.world with hours := fun _ => h.hour }

def handOver (s : Stat) (h : Handover) : Stat := mqttCallback h.clock h.msg s

section Setup
variable (w : World)

@[simp] theorem announce_settings (s : Stat) : (announce w s).settings = s.settings := by
  simp [announce, publishInt]

theorem setup_targettemps (sensor : Reading ℚ) (eeprom : Eeprom) (rounds : ℕ) :
    (setup w sensor eeprom rounds).targettemps = ![60, 68] := by
  unfold setup
  apply mqttConnect_preserves (P := fun s => s.targettemps = ![60, 68])
  · intro s h
    exact (congrArg Settings.targettemps (announce_settings w (s.setConnected true))).trans h
  · rfl

theorem inRange_setup (sensor : Reading ℚ) (eeprom : Eeprom) (rounds : ℕ) :
    (setup w sensor eeprom rounds).InRange := by
  unfold Stat.InRange
  rw [setup_targettemps]
  decide

end Setup

section Messages
variable {s : Stat} {h : Handover}

theorem handOver_targettemps (i : Fin 2) :
    (handOver s h).targettemps i =
      (acceptedTarget h.msg).elim (s.targettemps i) fun v =>
        if i = slotOf h.hour then v else s.targettemps i := by
  rw [handOver, mqttCallback_targettemps]
  cases acceptedTarget h.msg with
  | none => rfl
  | some v =>
    have hnow : getTargettemp h.clock s = s.targettemps (slotOf h.hour) := rfl
    have hnext : getTargetIndex h.clock s.tock = slotOf h.hour := rfl
    rw [Option.elim_some, Option.elim_some, editTarget_apply, hnow, hnext]
    by_cases hi : i = slotOf h.hour
    · subst hi
      by_cases hv : v = s.targettemps (slotOf h.hour) <;> simp [hv]
    · simp [hi]

theorem inRange_handOver (h : Handover) (hs : s.InRange) : (handOver s h).InRange := by
  intro i
  rw [handOver_targettemps]
  cases hv : acceptedTarget h.msg with
  | none => exact hs i
  | some v =>
    rw [Option.elim_some]
    split_ifs
    · exact acceptedTarget_mem hv
    · exact hs i

theorem slot_of_changed {i : Fin 2} (hne : (handOver s h).targettemps i ≠ s.targettemps i) :
    i = slotOf h.hour ∧ h.msg.topic = "wyostat.targettemp" ∧
      lowestTemp ≤ Decimal.atol h.msg.payload ∧ Decimal.atol h.msg.payload ≤ highestTemp := by
  rw [handOver_targettemps, acceptedTarget] at hne
  by_cases hm : h.msg.topic = "wyostat.targettemp" ∧
      lowestTemp ≤ bytes2int h.msg.payload ∧ bytes2int h.msg.payload ≤ highestTemp
  · rw [if_pos hm, Option.elim_some] at hne
    rw [bytes2int_eq] at hm
    refine ⟨?_, hm⟩
    by_contra hi
    exact hne (if_neg hi)
  · rw [if_neg hm] at hne
    exact absurd rfl hne

end Messages

/-- From `setup()` and through any messages at any hours both slots stay in range, and every
message changes at most the slot in force at its hour, and that only if it is a target in
range. -/
theorem messages_keep_slots (w : World) (sensor : Reading ℚ) (eeprom : Eeprom) (rounds : ℕ)
    (handovers : List Handover) :
    Always handOver
        (fun s => ∀ i, lowestTemp ≤ (s.targettemps i).toNat ∧ (s.targettemps i).toNat ≤ highestTemp)
        (setup w sensor eeprom rounds) handovers ∧
      Along handOver
        (fun s h => ∀ i, (handOver s h).targettemps i ≠ s.targettemps i →
          i = slotOf h.hour ∧ h.msg.topic = "wyostat.targettemp" ∧
            lowestTemp ≤ Decimal.atol h.msg.payload ∧ Decimal.atol h.msg.payload ≤ highestTemp)
        (setup w sensor eeprom rounds) handovers := by
  constructor
  · have hstep (s : Stat) (h : Handover) (hs : s.InRange) := inRange_handOver h hs
    exact always_of_step hstep (inRange_setup w sensor eeprom rounds) handovers
  · exact along_of_forall_mem (fun _ _ _ _ hne => slot_of_changed hne) _

section Evening

/-- At 23 o'clock the night target is set to 72; garbage and a target out of range follow. -/
def eveningMessages : List Handover :=
  [⟨stillWorld, 23, ⟨"wyostat.targettemp", [' ', '7', '2', 'F']⟩, by decide⟩,
   ⟨stillWorld, 7, ⟨"wyostat.targettemp", [nul, '8', '0']⟩, by decide⟩,
   ⟨stillWorld, 7, ⟨"wyostat.targettemp", ['3', '2', '8']⟩, by decide⟩]

theorem messages_keep_slots_evening :
    Always handOver
        (fun s => ∀ i, lowestTemp ≤ (s.targettemps i).toNat ∧ (s.targettemps i).toNat ≤ highestTemp)
        (setup stillWorld (.num 70) Eeprom.erased 1) eveningMessages ∧
      (run handOver (setup stillWorld (.num 70) Eeprom.erased 1) eveningMessages).targettemps 0 =
        72 :=
  ⟨(messages_keep_slots stillWorld (.num 70) Eeprom.erased 1 eveningMessages).1,
    by decide +kernel⟩

end Evening

end Wyostat.OpenThermostat
