import Wyostat.OpenThermostat.Setters
import Wyostat.OpenThermostat.Broker

/-! What an iteration does to the settings and what it says about them: only a message
changes a setting, and everything published afterwards reports the setting it left. -/
namespace Wyostat.OpenThermostat
open Machine Replica

/-- A message published between two ticks tells the settings the truth, the target as one of
the slots in force between them. -/
structure Reports (w : World) (c : Settings) (i j : ℕ) (m : Msg) : Prop where
  target : m.topic = "wyostat.targettemp" →
    ∃ t, i ≤ t ∧ t < j ∧ m.payload = Decimal.itoa (c.targettemps (slotOf (w.hours t))).toNat
  away : m.topic = "wyostat.away" → m.payload = boolText c.away

theorem Reports.mono {w : World} {c : Settings} {i j k : ℕ} {m : Msg} (h : Reports w c i j m)
    (hjk : j ≤ k) : Reports w c i k m := by
  refine ⟨fun ht => ?_, h.away⟩
  obtain ⟨t, hi, hj, hp⟩ := h.target ht
  exact ⟨t, hi, hj.trans_le hjk, hp⟩

theorem reports_of_ne {w : World} {c : Settings} {i j : ℕ} {m : Msg}
    (ht : m.topic ≠ "wyostat.targettemp") (ha : m.topic ≠ "wyostat.away") :
    Reports w c i j m := ⟨fun h => absurd h ht, fun h => absurd h ha⟩

/-- On the way from `s` to `t` the device stays connected and publishes nothing but reports
of the settings `c`. -/
structure Told (w : World) (c : Settings) (s t : Stat) : Prop where
  settings : t.settings = c
  tick : s.tick ≤ t.tick
  connected : t.connected = true
  news : ∃ ms, published t.log = published s.log ++ ms ∧ ∀ m ∈ ms, Reports w c s.tick t.tick m

section Told
variable {w : World} {c : Settings} {s t u : Stat}

theorem Told.silent (h : Told w c s t) (hset : u.settings = t.settings) (htick : t.tick ≤ u.tick)
    (hconn : u.connected = t.connected) (hlog : published u.log = published t.log) :
    Told w c s u := by
  obtain ⟨ms, hms, hall⟩ := h.news
  refine ⟨hset.trans h.settings, h.tick.trans htick, hconn.trans h.connected, ms,
    hlog.trans hms, fun m hm => (hall m hm).mono htick⟩

theorem Told.tock (h : Told w c s t) : Told w c s t.tock :=
  h.silent rfl (Nat.le_succ _) rfl rfl

theorem Told.displayTemp (h : Told w c s t) : Told w c s (displayTemp w t) :=
  h.silent (displayTemp_settings w t) (by simp) (by simp [OpenThermostat.displayTemp])
    (by simp [OpenThermostat.displayTemp])

section Publishing
variable (hw : w.Online)
include hw

theorem told_publish {topic : String} {payload : List Char} (h : Told w c s t)
    (hr : Reports w c s.tick (t.tick + 1) ⟨topic, payload⟩) :
    Told w c s (publish w topic payload t) := by
  obtain ⟨ms, hms, hall⟩ := h.news
  refine ⟨h.settings, h.tick.trans (Nat.le_succ _), ?_, ms ++ [⟨topic, payload⟩], ?_, ?_⟩
  · simp [h.connected, hw t.tick]
  · simp [h.connected, hw t.tick, hms]
  · intro m hm
    rcases List.mem_append.mp hm with hm | hm
    · exact (hall m hm).mono (Nat.le_succ _)
    · exact List.mem_singleton.mp hm ▸ hr

theorem told_publishBool_away (h : Told w c s t) :
    Told w c s (publishBool w "wyostat.away" t.away t) := by
  refine told_publish hw h ⟨fun ht => absurd ht (by simp), fun _ => ?_⟩
  rw [← h.settings, Stat.settings]

theorem told_publishInt_targettemp (h : Told w c s t) :
    Told w c s (publishInt w "wyostat.targettemp" (getTargettemp w t).toNat t.tock) := by
  refine told_publish hw h.tock ⟨fun _ => ?_, fun ha => absurd ha (by simp)⟩
  refine ⟨t.tick, h.tick, ?_, ?_⟩
  · exact Nat.lt_succ_of_lt (Nat.lt_succ_self _)
  · rw [← h.settings]
    rfl

theorem told_publishHvacState (h : Told w c s t) : Told w c s (publishHvacState w t) :=
  told_publishInt_targettemp hw (told_publish hw (told_publishBool_away hw
    (told_publish hw h (reports_of_ne (by simp) (by simp)))) (reports_of_ne (by simp) (by simp)))

theorem told_announcement (h : Told w c s t) (val : Bool) (icon : Option Icon) :
    Told w c s (drawIcon icon
      (publishHvacState w (publishOffOn w "wyostat.furnace_state" val t))) := by
  have hp : Told w c s (publishOffOn w "wyostat.furnace_state" val t) :=
    told_publish hw h (reports_of_ne (by simp) (by simp))
  have hstate := told_publishHvacState hw hp
  cases icon <;> exact hstate.silent rfl le_rfl rfl rfl

theorem told_setFurnace (b : Bool) (t : Stat) (h : Told w c s t) :
    Told w c s (setFurnace w b t) := by
  unfold setFurnace
  split_ifs
  · have hwrite : Told w c s (digitalWrite .furnaceSCR b (t.tock.setFurnaceState b)) :=
      h.silent rfl (Nat.le_succ _) rfl rfl
    have hset : Told w c s ((digitalWrite .furnaceSCR b
        (t.tock.setFurnaceState b)).setLastFurnaceStateChange (w.rtc (t.tick + 1))).tock :=
      hwrite.silent rfl (Nat.le_succ _) rfl rfl
    exact told_announcement hw hset _ _
  · exact h.tock
  · exact h

theorem told_setAc (b : Bool) (t : Stat) (h : Told w c s t) : Told w c s (setAc w b t) := by
  unfold setAc
  split_ifs
  · have hset : Told w c s (digitalWrite .acSCR b (t.setAcState b)) := h.silent rfl le_rfl rfl rfl
    exact told_announcement hw hset _ _
  · exact h

theorem told_setFan (b : Bool) (t : Stat) (h : Told w c s t) : Told w c s (setFan w b t) := by
  have hp (payload : List Char) : Told w c s (publish w "wyostat.fan_state" payload t) :=
    told_publish hw h (reports_of_ne (by simp) (by simp))
  by_cases hb : b = t.fanState
  · subst hb
    rwa [setFan_self]
  · simp only [setFan, hb, ne_eq, not_false_eq_true, if_true]
    exact (hp _).silent rfl le_rfl rfl rfl

theorem told_control (h : Told w c s t) : Told w c s (control w t) :=
  control_preserves (fun _ h => h.tock) (told_setFurnace hw) (told_setAc hw) (told_setFan hw) h

theorem told_timedPublish (h : Told w c s t) (temp : Reading ℚ) (now : BitVec 32) :
    Told w c s (timedPublish w temp now t) := by
  unfold timedPublish
  dsimp only
  split_ifs
  · have hset : Told w c s ((t.setLastMsg now).setLastTemp (truncate w.intOfNan temp)) :=
      h.silent rfl le_rfl rfl rfl
    exact told_publish hw hset (reports_of_ne (by simp) (by simp))
  · exact h.silent rfl le_rfl rfl rfl
  · exact h

theorem told_finish (h : Told w c s t) (temp : Reading ℚ) (now : BitVec 32) :
    Told w c s (finish w temp now t) := by
  unfold finish
  apply told_timedPublish hw
  split_ifs
  · exact h.displayTemp
  · exact h

end Publishing

end Told

section Messages

/-- The value to which a message sets the target. -/
def acceptedTarget (m : Msg) : Option UInt8 :=
  if m.topic = "wyostat.targettemp" ∧
      lowestTemp ≤ bytes2int m.payload ∧ bytes2int m.payload ≤ highestTemp then
    some (UInt8.ofInt (bytes2int m.payload))
  else none

def acceptedAway (m : Msg) : Option Bool :=
  if m.topic = "wyostat.away" then some (bytes2bool m.payload) else none

/-- The slots after a command: the slot is looked up once to compare and once to store. -/
def editTarget (w : World) (v : UInt8) (s : Stat) : Fin 2 → UInt8 :=
  if v = getTargettemp w s then s.targettemps
  else Function.update s.targettemps (getTargetIndex w s.tock) v

theorem editTarget_apply (w : World) (v : UInt8) (s : Stat) (i : Fin 2) :
    editTarget w v s i =
      if v ≠ getTargettemp w s ∧ i = getTargetIndex w s.tock then v else s.targettemps i := by
  unfold editTarget
  by_cases hv : v = getTargettemp w s
  · rw [if_pos hv, if_neg fun h => h.1 hv]
  · rw [if_neg hv]
    by_cases hi : i = getTargetIndex w s.tock
    · rw [if_pos ⟨hv, hi⟩, hi, Function.update_self]
    · rw [if_neg fun h => hi h.2, Function.update_of_ne hi]

/-- A command stores under the slot looked up second, unless the first one holds its value. -/
theorem editTarget_eq_latest (w : World) (v : UInt8) (s : Stat) (i : Fin 2) :
    editTarget w v s i =
      (latest i (if v = getTargettemp w s then [] else [(getTargetIndex w s.tock, v)])).getD
        (s.targettemps i) := by
  rw [editTarget_apply]
  by_cases hv : v = getTargettemp w s
  · rw [if_pos hv, if_neg fun h => h.1 hv]
    rfl
  · rw [if_neg hv, latest_singleton]
    by_cases hi : i = getTargetIndex w s.tock
    · rw [if_pos ⟨hv, hi⟩, if_pos hi.symm]
      rfl
    · rw [if_neg fun h => hi h.2, if_neg (Ne.symm hi)]
      rfl

theorem ofInt_eq_iff_of_mem {n : ℤ} {v : UInt8} (hlo : lowestTemp ≤ n) (hhi : n ≤ highestTemp) :
    UInt8.ofInt n = v ↔ n = v.toNat := by
  have hfit : ((UInt8.ofInt n).toNat : ℤ) = n :=
    toNat_ofInt_of_mem (by simp only [lowestTemp] at hlo; omega)
      (by simp only [highestTemp] at hhi; omega)
  rw [← UInt8.toNat_inj]
  omega

theorem targettemp_targettemps (w : World) (temp : ℤ) (s : Stat) :
    (targettemp w temp s).targettemps =
      if lowestTemp ≤ temp ∧ temp ≤ highestTemp then editTarget w (UInt8.ofInt temp) s
      else s.targettemps := by
  by_cases hr : lowestTemp ≤ temp ∧ temp ≤ highestTemp
  · rw [if_pos hr, targettemp, if_pos hr, editTarget]
    by_cases hv : temp = (getTargettemp w s).toNat
    · rw [if_pos ((ofInt_eq_iff_of_mem hr.1 hr.2).mpr hv), if_neg (not_not.mpr hv)]
      rfl
    · rw [if_neg (mt (ofInt_eq_iff_of_mem hr.1 hr.2).mp hv), if_pos hv]
      exact congrArg Settings.targettemps
        (displayTemp_settings w (setTargettemp w (UInt8.ofInt temp) s.tock))
  · rw [if_neg hr, targettemp, if_neg hr]

theorem targettemp_away (w : World) (temp : ℤ) (s : Stat) :
    (targettemp w temp s).away = s.away := by
  unfold targettemp
  split_ifs
  · exact congrArg Settings.away (displayTemp_settings w (setTargettemp w _ s.tock))
  · rfl
  · rfl

theorem awayCb_settings (w : World) (payload : List Char) (s : Stat) :
    (awayCb w payload s).settings = (s.setAway (bytes2bool payload)).settings := by
  unfold awayCb
  split_ifs with h
  · exact displayTemp_settings w _
  · rw [not_not] at h
    rw [h]
    rfl

theorem requestmodeCb_settings (w : World) (payload : List Char) (s : Stat) :
    (requestmodeCb w payload s).settings = s.settings := by simp [requestmodeCb]

theorem acceptedTarget_of_ne {m : Msg} (h : m.topic ≠ "wyostat.targettemp") :
    acceptedTarget m = none := if_neg fun hm => h hm.1

theorem mqttCallback_targettemps (w : World) (m : Msg) (s : Stat) :
    (mqttCallback w m s).targettemps =
      (acceptedTarget m).elim s.targettemps fun v => editTarget w v s := by
  rw [mqttCallback_eq]
  by_cases ht : m.topic = "wyostat.targettemp"
  · rw [if_pos ht, targettempCb, targettemp_targettemps, acceptedTarget]
    by_cases hr : lowestTemp ≤ bytes2int m.payload ∧ bytes2int m.payload ≤ highestTemp
    · rw [if_pos hr, if_pos ⟨ht, hr⟩, Option.elim_some]
    · rw [if_neg hr, if_neg fun h => hr h.2, Option.elim_none]
  · rw [if_neg ht, acceptedTarget_of_ne ht]
    split_ifs
    · exact congrArg Settings.targettemps (awayCb_settings w m.payload s)
    · exact congrArg Settings.targettemps (publishHvacState_settings w s)
    · exact congrArg Settings.targettemps (publishHvacState_settings w s)
    · exact congrArg Settings.targettemps (requestmodeCb_settings w m.payload s)
    · rfl
    · rfl

theorem mqttCallback_away (w : World) (m : Msg) (s : Stat) :
    (mqttCallback w m s).away = (acceptedAway m).getD s.away := by
  rw [mqttCallback_eq, acceptedAway]
  by_cases ha : m.topic = "wyostat.away"
  · have ht : m.topic ≠ "wyostat.targettemp" := by rw [ha]; decide
    rw [if_neg ht, if_pos ha, if_pos ha]
    exact congrArg Settings.away (awayCb_settings w m.payload s)
  · rw [if_neg ha, if_neg ha]
    split_ifs
    · exact targettemp_away w _ s
    · exact congrArg Settings.away (publishHvacState_settings w s)
    · exact congrArg Settings.away (publishHvacState_settings w s)
    · exact congrArg Settings.away (requestmodeCb_settings w m.payload s)
    · rfl
    · rfl

end Messages

section Iterations
variable {w : World} {s : Stat}

theorem told_of_silent {t : Stat} (htick : s.tick ≤ t.tick) (hconn : t.connected = true)
    (hlog : published t.log = published s.log) : Told w t.settings s t :=
  ⟨rfl, htick, hconn, [], by simp [hlog], by simp⟩

theorem told_targettemp (temp : ℤ) (hconn : s.connected = true) :
    Told w (targettemp w temp s).settings s (targettemp w temp s) := by
  refine told_of_silent (tick_le_targettemp w s temp) ?_ ?_
  · unfold targettemp
    split_ifs <;> simp [displayTemp, hconn]
  · unfold targettemp
    split_ifs <;> simp [displayTemp]

theorem told_awayCb (payload : List Char) (hconn : s.connected = true) :
    Told w (awayCb w payload s).settings s (awayCb w payload s) := by
  refine told_of_silent (tick_le_awayCb w s payload) ?_ ?_
  · unfold awayCb
    split_ifs <;> simp [displayTemp, hconn]
  · unfold awayCb
    split_ifs <;> simp [displayTemp]

/-- A message that changes a setting is not answered; the others are answered truthfully. -/
theorem told_mqttCallback (hw : w.Online) (m : Msg) (hconn : s.connected = true) :
    Told w (mqttCallback w m s).settings s (mqttCallback w m s) := by
  have hrefl : Told w s.settings s s := told_of_silent le_rfl hconn rfl
  rw [mqttCallback_eq]
  split_ifs
  · exact told_targettemp _ hconn
  · exact told_awayCb _ hconn
  · rw [requesttempCb, publishHvacState_settings]
    exact told_publishHvacState hw hrefl
  · rw [requesttargettempCb, publishHvacState_settings]
    exact told_publishHvacState hw hrefl
  · rw [requestmodeCb_settings]
    exact told_publishHvacState hw (told_publish hw hrefl (reports_of_ne (by simp) (by simp)))
  · exact told_of_silent le_rfl hconn rfl
  · exact hrefl

/-- The state in which a message is handled. -/
def Stat.ready (x : Reading ℚ) (s : Stat) : Stat := (s.setLocaltemp x).tock.tock

theorem setConnected_self (h : s.connected = true) : s.setConnected true = s := by
  cases s
  simp_all [Stat.setConnected]

theorem checkLink_online (hw : w.Online) (h : s.connected = true) : checkLink w s = s.tock := by
  rw [checkLink, h, hw s.tick, Bool.and_self, setConnected_self h]

theorem receive_online (hw : w.Online) (h : s.connected = true) (it : Iteration) :
    receive w it s =
      match it.msg with
      | some m => mqttCallback w m (s.ready it.localtemp)
      | none => s.ready it.localtemp := by
  have h₀ : (s.setLocaltemp it.localtemp).connected = true := h
  have h₁ : (s.setLocaltemp it.localtemp).tock.connected = true := h
  have h₂ : (s.setLocaltemp it.localtemp).tock.tock.connected = true := h
  simp only [receive, checkLink_online hw h₀, h₁, if_true, mqttLoop, checkLink_online hw h₁, h₂]
  cases it.msg <;> rfl

theorem Told.before {c : Settings} {t u : Stat} (h : Told w c t u) (htick : s.tick ≤ t.tick)
    (hlog : published t.log = published s.log) : Told w c s u := by
  obtain ⟨ms, hms, hall⟩ := h.news
  refine ⟨h.settings, htick.trans h.tick, h.connected, ms, hlog ▸ hms, fun m hm => ?_⟩
  refine ⟨fun ht => ?_, (hall m hm).away⟩
  obtain ⟨k, hi, hj, hp⟩ := (hall m hm).target ht
  exact ⟨k, htick.trans hi, hj, hp⟩

/-- Everything an iteration publishes about the settings holds at its end. -/
theorem told_iterate (hw : w.Online) (hconn : s.connected = true) (it : Iteration) :
    Told w (iterate w s it).settings s (iterate w s it) := by
  rw [iterate_settings]
  have hready : (s.ready it.localtemp).connected = true := hconn
  have htick : s.tick ≤ (s.ready it.localtemp).tick := Nat.le_add_right _ 2
  have hreceive : Told w (receive w it s).settings s (receive w it s) := by
    rw [receive_online hw hconn]
    cases it.msg with
    | none => exact (told_of_silent le_rfl hready rfl).before htick rfl
    | some m => exact (told_mqttCallback hw m hready).before htick rfl
  exact told_finish hw (told_control hw hreceive) _ _

theorem told_announce {c : Settings} {t : Stat} (hw : w.Online) (h : Told w c s t) :
    Told w c s (announce w t) :=
  told_publishInt_targettemp hw (told_publish hw (told_publish hw (told_publish hw h
    (reports_of_ne (by simp) (by simp))) (reports_of_ne (by simp) (by simp)))
    (reports_of_ne (by simp) (by simp)))

theorem told_setup (hw : w.Online) (sensor : Reading ℚ) (eeprom : Eeprom) :
    Told w (setup w sensor eeprom 1).settings (powerUp eeprom) (setup w sensor eeprom 1) ∧
      (setup w sensor eeprom 1).targettemps = ![60, 68] := by
  let s := testIcons (setupDisplay w
    (loadSettings ((setupPins (powerUp eeprom)).setLocaltemp sensor)))
  have hsettings : s.settings.targettemps = ![60, 68] := by
    simp [s, testIcons, setupDisplay]
    rfl
  have hs : s.connected = false := by
    simp [s, testIcons, setupDisplay, loadSettings, setupPins, displayTemp, powerUp]
  have heq : setup w sensor eeprom 1 = announce w (s.setConnected true) := by
    simp only [setup, mqttConnect]
    exact if_neg (by simpa [s] using hs)
  have htold : Told w (s.setConnected true).settings (powerUp eeprom) (s.setConnected true) := by
    apply told_of_silent (Nat.zero_le _) rfl
    simp [s, testIcons, setupDisplay, loadSettings, setupPins, displayTemp]
  have hann := told_announce hw htold
  rw [heq, hann.settings]
  exact ⟨hann, (congrArg Settings.targettemps hann.settings).trans hsettings⟩

theorem iterate_targettemps (hw : w.Online) (hconn : s.connected = true) (it : Iteration) :
    (iterate w s it).targettemps =
      (it.msg.bind acceptedTarget).elim s.targettemps
        fun v => editTarget w v (s.ready it.localtemp) := by
  apply (congrArg Settings.targettemps (iterate_settings w s it)).trans
  change (receive w it s).targettemps = _
  rw [receive_online hw hconn]
  cases it.msg with
  | none => rfl
  | some m => exact mqttCallback_targettemps w m _

theorem iterate_away (hw : w.Online) (hconn : s.connected = true) (it : Iteration) :
    (iterate w s it).away = (it.msg.bind acceptedAway).getD s.away := by
  apply (congrArg Settings.away (iterate_settings w s it)).trans
  change (receive w it s).away = _
  rw [receive_online hw hconn]
  cases it.msg with
  | none => rfl
  | some m => exact mqttCallback_away w m _

/-- Every slot holds a target the setter would accept. -/
def Stat.InRange (s : Stat) : Prop :=
  ∀ i, lowestTemp ≤ (s.targettemps i).toNat ∧ (s.targettemps i).toNat ≤ highestTemp

theorem acceptedTarget_mem {m : Msg} {v : UInt8} (h : acceptedTarget m = some v) :
    lowestTemp ≤ v.toNat ∧ v.toNat ≤ highestTemp := by
  rw [acceptedTarget] at h
  split_ifs at h with hm
  have hv := (ofInt_eq_iff_of_mem hm.2.1 hm.2.2).mp (Option.some.inj h)
  rw [← hv]
  exact hm.2

theorem inRange_iterate (hw : w.Online) (hconn : s.connected = true) (it : Iteration)
    (h : s.InRange) : (iterate w s it).InRange := by
  intro i
  rw [iterate_targettemps hw hconn]
  cases hm : it.msg.bind acceptedTarget with
  | none => exact h i
  | some v =>
    obtain ⟨m, -, hv⟩ := Option.bind_eq_some_iff.mp hm
    rw [Option.elim_some, editTarget_apply]
    split_ifs
    · exact acceptedTarget_mem hv
    · exact h i

theorem acceptedTarget_report {v : UInt8} (hlo : lowestTemp ≤ v.toNat)
    (hhi : v.toNat ≤ highestTemp) :
    acceptedTarget ⟨"wyostat.targettemp", Decimal.itoa v.toNat⟩ = some v := by
  have hv : bytes2int (Decimal.itoa v.toNat) = v.toNat := by
    have := v.toNat_lt
    exact bytes2int_itoa (by omega) (by omega)
  rw [acceptedTarget, hv, if_pos ⟨rfl, hlo, hhi⟩, (ofInt_eq_iff_of_mem hlo hhi).mpr rfl]

end Iterations

end Wyostat.OpenThermostat
