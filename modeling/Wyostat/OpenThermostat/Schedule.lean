import Wyostat.OpenThermostat.Updates

/-! When the broker returns a report to the device, the device takes it as a command for the
slot then in force. -/
namespace Wyostat.OpenThermostat
open Machine Replica

/-- A run has led to `n`; its last event began at tick `since` and put `new` in flight. -/
inductive Leads (w : World) : ℕ → List (Packet Msg) → Net → Prop
  | boot (sensor : Reading ℚ) (eeprom : Eeprom) :
      Leads w 0 (Net.boot w sensor eeprom).inflight (Net.boot w sensor eeprom)
  | round {since : ℕ} {new : List (Packet Msg)} {n : Net} (h : Leads w since new n) (r : Round) :
      Leads w n.stat.tick (n.arrivals w r) (n.step w r)

/-- What a round stores in the schedule: the slot is looked up once to compare and once to
store. -/
def Net.stores (w : World) (n : Net) (r : Round) : List (Fin 2 × UInt8) :=
  match (n.head r).bind fun p => acceptedTarget p.value with
  | some v =>
    if v = n.stat.targettemps (slotOf (w.hours (n.stat.tick + 2))) then []
    else [(slotOf (w.hours (n.stat.tick + 3)), v)]
  | none => []

/-- The target of a slot after some rounds: the last one stored in them, or the one before. -/
def Net.scheduled (w : World) (n : Net) (rs : List Round) (i : Fin 2) : UInt8 :=
  (latest i (outputs (Net.step w) (Net.stores w) n rs)).getD (n.stat.targettemps i)

/-- One of the two readings of the slot in force that a message meets after some rounds finds
the value. -/
def Net.Finds (w : World) (n : Net) (rs : List Round) (v : UInt8) : Prop :=
  let t := (run (Net.step w) n rs).stat.tick
  n.scheduled w rs (slotOf (w.hours (t + 2))) = v ∨ n.scheduled w rs (slotOf (w.hours (t + 3))) = v

/-- The number of rounds that hand a message over. -/
def deliveries (rs : List Round) : ℕ := rs.countP (·.deliver)

section Publication
variable {w : World} {since : ℕ} {new : List (Packet Msg)} {n : Net}

theorem Leads.sound (hw : w.Online) (h : Leads w since new n) : n.Sound := by
  induction h with
  | boot sensor eeprom => exact sound_boot hw sensor eeprom
  | round h r ih => exact sound_step hw ih r

theorem Leads.suffix (h : Leads w since new n) : ∃ older, n.inflight = older ++ new := by
  cases h with
  | boot sensor eeprom => exact ⟨[], rfl⟩
  | round h r => exact ⟨_, rfl⟩

theorem Leads.reports (hw : w.Online) (h : Leads w since new n) {m : Msg}
    (hm : fromDevice m ∈ new) : Reports w n.stat.settings since n.stat.tick m := by
  cases h with
  | boot sensor eeprom =>
    obtain ⟨m', hm', heq⟩ := List.mem_map.mp (List.mem_filter.mp hm).1
    obtain rfl : m' = m := congrArg Packet.value heq
    apply reports_of_mem_news (told_setup hw sensor eeprom).1
    rw [news]
    exact hm'
  | round h r => exact reports_of_mem_news (told_step hw (h.sound hw) r) (mem_news_of_own hm rfl)

end Publication

section Delivery
variable {w : World}

theorem inflight_step (n : Net) (r : Round) (h : deliveries [r] ≤ n.inflight.length) :
    ∃ more, (n.step w r).inflight = n.inflight.drop (deliveries [r]) ++ more := by
  refine ⟨forwarded (r.before.map fromClient) ++ n.arrivals w r, ?_⟩
  rw [Net.step, Net.rest, Net.queue, ← List.append_assoc]
  cases hr : r.deliver with
  | false => simp [deliveries, hr]
  | true =>
    cases hq : n.inflight with
    | nil => simp [deliveries, hr, hq] at h
    | cons p rest => simp [deliveries, hr]

theorem inflight_run (n : Net) (rs : List Round) (h : deliveries rs ≤ n.inflight.length) :
    ∃ later, (run (Net.step w) n rs).inflight = n.inflight.drop (deliveries rs) ++ later := by
  induction rs generalizing n with
  | nil => exact ⟨[], by simp [deliveries]⟩
  | cons r rs ih =>
    have hsplit : deliveries (r :: rs) = deliveries [r] + deliveries rs := by
      rw [← List.singleton_append, deliveries, List.countP_append]
      rfl
    obtain ⟨more, hmore⟩ := inflight_step (w := w) n r (by omega)
    have hlen : deliveries rs ≤ (n.inflight.drop (deliveries [r])).length := by
      rw [List.length_drop]
      omega
    obtain ⟨later, hlater⟩ := ih (n.step w r) (by rw [hmore, List.length_append]; omega)
    refine ⟨more ++ later, ?_⟩
    rw [run_cons, hlater, hmore, List.drop_append_of_le_length hlen, List.drop_drop, hsplit,
      List.append_assoc]

theorem next_targettemps (hw : w.Online) {n : Net} (hn : n.Sound) (r : Round) :
    (n.step w r).stat.targettemps =
      ((n.head r).bind fun p => acceptedTarget p.value).elim n.stat.targettemps
        fun v => editTarget w v (n.stat.ready r.localtemp) := by
  rw [Net.step, Net.next, iterate_targettemps hw hn.connected]
  simp only [Net.iteration, Option.bind_map, Function.comp_def]

theorem targettemps_step (hw : w.Online) {n : Net} (hn : n.Sound) (r : Round) (i : Fin 2) :
    (n.step w r).stat.targettemps i =
      (latest i (n.stores w r)).getD (n.stat.targettemps i) := by
  rw [next_targettemps hw hn, Net.stores]
  cases (n.head r).bind fun p => acceptedTarget p.value with
  | none => rfl
  | some v =>
    exact editTarget_eq_latest w v (n.stat.ready r.localtemp) i

theorem targettemps_run (hw : w.Online) {n : Net} (hn : n.Sound) (rs : List Round) (i : Fin 2) :
    (run (Net.step w) n rs).stat.targettemps i = n.scheduled w rs i := by
  have hsound (n : Net) (r : Round) (h : n.Sound) : (n.step w r).Sound := sound_step hw h r
  exact latest_run (fun n : Net => n.stat.targettemps) (Net.stores w) hsound
    (fun n r i h => targettemps_step hw h r i) hn rs i

/-- A command that is handed over leaves the schedule alone exactly when the slot in force
holds its value. -/
theorem command_keeps_schedule_iff (hw : w.Online) {n : Net} (hn : n.Sound) {r : Round}
    {p : Packet Msg} {v : UInt8} (hhead : n.head r = some p)
    (hv : acceptedTarget p.value = some v) :
    (n.step w r).stat.targettemps = n.stat.targettemps ↔
      n.stat.targettemps (slotOf (w.hours (n.stat.tick + 2))) = v ∨
        n.stat.targettemps (slotOf (w.hours (n.stat.tick + 3))) = v := by
  have hnext : (n.step w r).stat.targettemps = editTarget w v (n.stat.ready r.localtemp) := by
    rw [next_targettemps hw hn, hhead, Option.bind_some, hv, Option.elim_some]
  have hnow : getTargettemp w (n.stat.ready r.localtemp) =
      n.stat.targettemps (slotOf (w.hours (n.stat.tick + 2))) := rfl
  have hthen : getTargetIndex w (n.stat.ready r.localtemp).tock =
      slotOf (w.hours (n.stat.tick + 3)) := rfl
  have hsame : (n.stat.ready r.localtemp).targettemps = n.stat.targettemps := rfl
  rw [hnext, editTarget, hnow, hthen, hsame]
  by_cases hc : v = n.stat.targettemps (slotOf (w.hours (n.stat.tick + 2)))
  · simp [← hc]
  · rw [if_neg hc, Function.update_eq_self_iff, or_iff_right (Ne.symm hc)]
    exact eq_comm

end Delivery

/-- A report the device has published on the command topic carries the target of the slot in
force at its publication. When the broker returns it, after everything received before it, the
device keeps its schedule exactly when the slot then in force, after what was stored in it in
the meantime, holds that same target. -/
theorem own_report_keeps_schedule_iff {w : World} (hw : w.Online) {since : ℕ}
    {new ahead behind : List (Packet Msg)} {n : Net} (h : Leads w since new n)
    {payload : List Char}
    (hnew : new = ahead ++ fromDevice ⟨"wyostat.targettemp", payload⟩ :: behind)
    {rs : List Round} (hrs : deliveries rs + behind.length + 1 = n.inflight.length)
    {r : Round} (hr : r.deliver = true) :
    ∃ t, since ≤ t ∧ t < n.stat.tick ∧
      payload = Decimal.itoa (n.stat.targettemps (slotOf (w.hours t))).toNat ∧
      ((run (Net.step w) n (rs ++ [r])).stat.targettemps =
          (run (Net.step w) n rs).stat.targettemps ↔
        n.Finds w rs (n.stat.targettemps (slotOf (w.hours t)))) := by
  have hmem : fromDevice ⟨"wyostat.targettemp", payload⟩ ∈ new := by simp [hnew]
  obtain ⟨t, hsince, ht, hpayload⟩ := (h.reports hw hmem).target rfl
  refine ⟨t, hsince, ht, hpayload, ?_⟩
  obtain ⟨older, holder⟩ := h.suffix
  have hrange := (h.sound hw).inRange (slotOf (w.hours t))
  -- the report is at the front of the queue once everything before it has been handed over
  have hcount : deliveries rs = (older ++ ahead).length := by
    have hlen := congrArg List.length holder
    simp only [hnew, List.length_append, List.length_cons] at hlen ⊢
    omega
  obtain ⟨later, hlater⟩ := inflight_run (w := w) n rs (by omega)
  have hfront : (run (Net.step w) n rs).inflight =
      fromDevice ⟨"wyostat.targettemp", payload⟩ :: (behind ++ later) := by
    rw [hlater, holder, hnew, hcount, ← List.append_assoc, List.drop_left, List.cons_append]
  have hhead : (run (Net.step w) n rs).head r =
      some (fromDevice ⟨"wyostat.targettemp", payload⟩) := by
    rw [Net.head, if_pos hr, Net.queue, hfront]
    rfl
  have hsound : (run (Net.step w) n rs).Sound := by
    have hstep (n : Net) (r : Round) (h : n.Sound) : (n.step w r).Sound := sound_step hw h r
    exact (always_of_step hstep (h.sound hw) rs).last
  rw [run_append, Net.Finds, ← targettemps_run hw (h.sound hw), ← targettemps_run hw (h.sound hw)]
  apply command_keeps_schedule_iff hw hsound hhead
  have hcommand : (fromDevice ⟨"wyostat.targettemp", payload⟩).value =
      ⟨"wyostat.targettemp", Decimal.itoa (n.stat.targettemps (slotOf (w.hours t))).toNat⟩ :=
    congrArg (Msg.mk _) hpayload
  rw [hcommand]
  exact acceptedTarget_report hrange.1 hrange.2

section Boundary

/-- A clock that reaches six o'clock once `setup()` has announced the target. -/
def dawnWorld : World :=
  ⟨fun _ => 1000, fun t => if t < 7 then 5 else 6, fun _ => true, 0⟩

theorem own_report_keeps_schedule_iff_still :
    ∃ t, 0 ≤ t ∧ t < (Net.boot stillWorld (.num 75) Eeprom.erased).stat.tick ∧
      ['6', '8'] = Decimal.itoa ((Net.boot stillWorld (.num 75) Eeprom.erased).stat.targettemps
        (slotOf (stillWorld.hours t))).toNat ∧
      ((run (Net.step stillWorld) (Net.boot stillWorld (.num 75) Eeprom.erased)
            ([] ++ [calm []])).stat.targettemps =
          (run (Net.step stillWorld) (Net.boot stillWorld (.num 75) Eeprom.erased)
            []).stat.targettemps ↔
        (Net.boot stillWorld (.num 75) Eeprom.erased).Finds stillWorld []
          ((Net.boot stillWorld (.num 75) Eeprom.erased).stat.targettemps
            (slotOf (stillWorld.hours t)))) := by
  have hnew : (Net.boot stillWorld (.num 75) Eeprom.erased).inflight =
      [] ++ fromDevice ⟨"wyostat.targettemp", ['6', '8']⟩ :: [] := by decide +kernel
  exact own_report_keeps_schedule_iff (fun _ => rfl) (.boot (.num 75) Eeprom.erased) hnew
    (by decide +kernel) rfl

/-- The target announced before six o'clock returns after it and replaces the day's target. -/
theorem dawn_report_edits_schedule :
    dawnWorld.Online ∧
      (Net.boot dawnWorld (.num 75) Eeprom.erased).inflight =
        [fromDevice ⟨"wyostat.targettemp", ['6', '0']⟩] ∧
      (Net.boot dawnWorld (.num 75) Eeprom.erased).stat.targettemps 1 = 68 ∧
      (run (Net.step dawnWorld) (Net.boot dawnWorld (.num 75) Eeprom.erased)
        [calm []]).stat.targettemps 1 = 60 :=
  ⟨fun _ => rfl, by decide +kernel⟩

end Boundary

end Wyostat.OpenThermostat
