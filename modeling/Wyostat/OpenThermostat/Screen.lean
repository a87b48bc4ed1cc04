import Wyostat.OpenThermostat.Icons
import Wyostat.OpenThermostat.Estimate
import Wyostat.OpenThermostat.Slots

/-! Does the screen agree with the state? The target is drawn again when it is set, when `away`
changes and when the room gets a degree warmer or colder, but not when the hour passes into a
slot with another target. -/
namespace Wyostat.OpenThermostat
open Machine

/-- The state in which a message is handled, if there is one. -/
def linked (w : World) (it : Iteration) (s : Stat) : Stat :=
  let s := checkLink w (s.setLocaltemp it.localtemp)
  checkLink w (if s.connected then s else mqttReconnect s)

/-- The message that an iteration hands to `mqtt_callback`. -/
def handed (w : World) (it : Iteration) (s : Stat) : Option Msg :=
  if (linked w it s).connected then it.msg else none

/-- The interaction at which handling the message reads the target for the screen, if it draws
the dial. -/
def redrawnBy (w : World) (s : Stat) (m : Msg) : Option ℕ :=
  if m.topic = "wyostat.targettemp" then
    if (lowestTemp ≤ bytes2int m.payload ∧ bytes2int m.payload ≤ highestTemp) ∧
        bytes2int m.payload ≠ (getTargettemp w s).toNat then some (s.tick + 2)
    else none
  else if m.topic = "wyostat.away" ∧ bytes2bool m.payload ≠ s.away then some s.tick
  else none

/-- The same for an iteration, which draws the dial once more when the room temperature has
changed by its end. -/
def redrawn (w : World) (s : Stat) (it : Iteration) : Option ℕ :=
  if truncate w.intOfNan s.localtemp ≠ truncate w.intOfNan it.localtemp then
    some (control w (receive w it s)).tick
  else (handed w it s).bind (redrawnBy w (linked w it s))

/-- The device, and the interaction at which the target on the screen was read. -/
structure Screen where
  stat : Stat
  readAt : ℕ

def Screen.step (w : World) (x : Screen) (it : Iteration) : Screen :=
  ⟨iterate w x.stat it, (redrawn w x.stat it).getD x.readAt⟩

/-- `setup()` draws the dial before it does anything else that takes time. -/
def Screen.boot (w : World) (sensor : Reading ℚ) (eeprom : Eeprom) (rounds : ℕ) : Screen :=
  ⟨setup w sensor eeprom rounds, 0⟩

/-- The texts drawn last are right, and so is the icon area once a relay has been switched. -/
structure Displayed (w : World) (s : Stat) : Prop where
  target : targetText s.drawn =
    some (if s.away then ['A', 'W', 'A', 'Y'] else Decimal.itoa (getTargettemp w s).toNat)
  room : roomText s.drawn = some (Decimal.itoa (truncate w.intOfNan s.localtemp))
  icon : s.Switched → s.ShowsIcon

/-- The dial is left with the target of another slot: not away, and the schedule, as the message
leaves it, has another target for the hour at the end of the iteration than for the hour at which
the target on the screen was read. -/
def Screen.Outdated (w : World) (x : Screen) (it : Iteration) : Prop :=
  (receive w it x.stat).away = false ∧
    (receive w it x.stat).targettemps (slotOf (w.hours (x.step w it).readAt)) ≠
      (receive w it x.stat).targettemps (slotOf (w.hours (x.step w it).stat.tick))

instance (w : World) (x : Screen) (it : Iteration) : Decidable (x.Outdated w it) :=
  inferInstanceAs (Decidable (_ ∧ _))

/-- The dial shows the target read at interaction `k` and a room temperature of `n` degrees. -/
structure Dial (w : World) (k : ℕ) (n : ℤ) (s : Stat) : Prop where
  target : targetText s.drawn = some (s.targetShown w k)
  room : roomText s.drawn = some (Decimal.itoa n)

section Texts
variable {w : World} {s t : Stat} {k : ℕ} {n : ℤ}

theorem targetShown_congr (h : t.settings = s.settings) :
    t.targetShown w k = s.targetShown w k := by
  obtain ⟨-, haway, htargets, -⟩ := Stat.settings_eq h
  rw [Stat.targetShown, Stat.targetShown, haway, htargets]

theorem Dial.frame (h : Dial w k n s) (haway : t.away = s.away)
    (htargets : t.targettemps = s.targettemps)
    (htext : ∀ row, lastText row t.drawn = lastText row s.drawn) : Dial w k n t := by
  refine ⟨(htext _).trans ?_, (htext _).trans h.room⟩
  rw [Stat.targetShown, haway, htargets]
  exact h.target

theorem Dial.of_settings (h : Dial w k n s) (hset : t.settings = s.settings)
    (htext : ∀ row, lastText row t.drawn = lastText row s.drawn) : Dial w k n t := by
  obtain ⟨-, haway, htargets, -⟩ := Stat.settings_eq hset
  exact h.frame haway htargets htext

theorem dial_displayTemp (w : World) (s : Stat) :
    Dial w s.tick (truncate w.intOfNan s.localtemp) (displayTemp w s) := by
  refine ⟨?_, roomText_displayTemp w s⟩
  rw [targetText_displayTemp, targetShown_congr (displayTemp_settings w s)]

theorem dial_targettemp (h : Dial w k (truncate w.intOfNan s.localtemp) s) (temp : ℤ) :
    Dial w
      (if (lowestTemp ≤ temp ∧ temp ≤ highestTemp) ∧ temp ≠ (getTargettemp w s).toNat
        then s.tick + 2 else k)
      (truncate w.intOfNan s.localtemp) (targettemp w temp s) := by
  unfold targettemp
  by_cases hrange : lowestTemp ≤ temp ∧ temp ≤ highestTemp
  · by_cases hne : temp ≠ (getTargettemp w s).toNat
    · rw [if_pos hrange, if_pos hne, if_pos ⟨hrange, hne⟩]
      have hdial := dial_displayTemp w (setTargettemp w (UInt8.ofInt temp) s.tock)
      exact hdial.frame rfl rfl fun _ => rfl
    · rw [if_pos hrange, if_neg hne, if_neg fun h => hne h.2]
      exact h.frame rfl rfl fun _ => rfl
  · rw [if_neg hrange, if_neg fun h => hrange h.1]
    exact h

theorem dial_awayCb (h : Dial w k (truncate w.intOfNan s.localtemp) s) (payload : List Char) :
    Dial w (if bytes2bool payload ≠ s.away then s.tick else k) (truncate w.intOfNan s.localtemp)
      (awayCb w payload s) := by
  unfold awayCb
  split_ifs
  · exact dial_displayTemp w (eepromWrite awayAddr _ (s.setAway (bytes2bool payload)))
  · exact h

/-- Every message that changes what the dial should show draws it again. -/
theorem dial_mqttCallback (h : Dial w k (truncate w.intOfNan s.localtemp) s) (m : Msg) :
    Dial w ((redrawnBy w s m).getD k) (truncate w.intOfNan s.localtemp) (mqttCallback w m s) := by
  have hframe (t : Stat) (hset : t.settings = s.settings) (hdrawn : t.drawn = s.drawn) :
      Dial w k (truncate w.intOfNan s.localtemp) t :=
    h.of_settings hset fun row => congrArg (lastText row) hdrawn
  rw [mqttCallback_eq, redrawnBy]
  by_cases ht : m.topic = "wyostat.targettemp"
  · rw [if_pos ht, if_pos ht, apply_ite (Option.getD · k)]
    exact dial_targettemp h (bytes2int m.payload)
  rw [if_neg ht, if_neg ht]
  by_cases ha : m.topic = "wyostat.away"
  · rw [if_pos ha, apply_ite (Option.getD · k)]
    simp only [ha, true_and]
    exact dial_awayCb h m.payload
  rw [if_neg ha, if_neg fun h => ha h.1, Option.getD_none]
  split_ifs
  · exact hframe _ (publishHvacState_settings w s) (publishHvacState_drawn w s)
  · exact hframe _ (publishHvacState_settings w s) (publishHvacState_drawn w s)
  · exact hframe _ (requestmodeCb_settings w _ s) (by simp [requestmodeCb])
  · exact h.frame rfl rfl fun _ => rfl
  · exact h

end Texts

section Iterations
variable {w : World} {s : Stat} {k : ℕ} {n : ℤ}

theorem receive_eq (it : Iteration) :
    receive w it s =
      (handed w it s).elim (linked w it s) fun m => mqttCallback w m (linked w it s) := by
  have hloop (t : Stat) : mqttLoop w it.msg t =
      (if (checkLink w t).connected then it.msg else none).elim (checkLink w t)
        fun m => mqttCallback w m (checkLink w t) := by
    unfold mqttLoop
    dsimp only
    cases (checkLink w t).connected <;> cases it.msg <;> rfl
  exact hloop _

theorem linked_settings (it : Iteration) :
    (linked w it s).settings = (s.setLocaltemp it.localtemp).settings := by
  unfold linked
  dsimp only
  split_ifs <;> rfl

theorem linked_drawn (it : Iteration) : (linked w it s).drawn = s.drawn := by
  unfold linked
  dsimp only
  split_ifs <;> rfl

theorem dial_receive (h : Dial w k (truncate w.intOfNan s.localtemp) s) (it : Iteration)
    (hsame : truncate w.intOfNan s.localtemp = truncate w.intOfNan it.localtemp) :
    Dial w (((handed w it s).bind (redrawnBy w (linked w it s))).getD k)
      (truncate w.intOfNan it.localtemp) (receive w it s) := by
  obtain ⟨hlocal, haway, htargets, -⟩ := Stat.settings_eq (linked_settings (w := w) (s := s) it)
  have hx : (linked w it s).localtemp = it.localtemp := hlocal
  have hlinked : Dial w k (truncate w.intOfNan (linked w it s).localtemp) (linked w it s) := by
    rw [hx, ← hsame]
    exact h.frame haway htargets fun row => by rw [linked_drawn]
  rw [receive_eq, ← hx]
  cases handed w it s with
  | none => exact hlinked
  | some m => exact dial_mqttCallback hlinked m

theorem Dial.control (h : Dial w k n s) : Dial w k n (control w s) :=
  h.of_settings (control_settings w s) (lastText_control w s)

theorem Dial.timedPublish (h : Dial w k n s) (temp : Reading ℚ) (now : BitVec 32) :
    Dial w k n (timedPublish w temp now s) :=
  h.of_settings (timedPublish_settings w s temp now) fun row => by rw [timedPublish_drawn]

/-- Whatever happens in an iteration, the dial shows the room temperature, and the target as it
was read when the dial was drawn last. -/
theorem dial_iterate (h : Dial w k (truncate w.intOfNan s.localtemp) s) (it : Iteration) :
    Dial w ((redrawn w s it).getD k) (truncate w.intOfNan it.localtemp) (iterate w s it) := by
  have hx := control_receive_localtemp w s it
  unfold iterate finish redrawn
  rw [hx]
  by_cases hsame : truncate w.intOfNan s.localtemp ≠ truncate w.intOfNan it.localtemp
  · rw [if_pos hsame, if_pos hsame]
    apply Dial.timedPublish
    rw [← hx]
    exact dial_displayTemp w _
  · rw [if_neg hsame, if_neg hsame]
    exact (dial_receive h it (not_not.mp hsame)).control.timedPublish ..

theorem dial_setup (w : World) (sensor : Reading ℚ) (eeprom : Eeprom) (rounds : ℕ) :
    Dial w 0 (truncate w.intOfNan (setup w sensor eeprom rounds).localtemp)
      (setup w sensor eeprom rounds) := by
  rw [setup_localtemp]
  unfold setup
  apply mqttConnect_preserves (P := Dial w 0 (truncate w.intOfNan sensor))
  · intro t h
    apply h.of_settings (announce_settings w (t.setConnected true))
    exact fun row => congrArg (lastText row) (announce_drawn w (t.setConnected true))
  · have hdial := dial_displayTemp w
      (draw .clear (loadSettings ((setupPins (powerUp eeprom)).setLocaltemp sensor)))
    exact hdial.frame rfl rfl fun row => rfl

end Iterations

section Runs
variable {w : World}

theorem itoa_toNat_inj {a b : UInt8} :
    Decimal.itoa a.toNat = Decimal.itoa b.toNat ↔ a = b := by
  constructor
  · intro h
    have ha := a.toNat_lt
    have hb := b.toNat_lt
    have hread := congrArg bytes2int h
    rw [bytes2int_itoa (by omega) (by omega), bytes2int_itoa (by omega) (by omega)] at hread
    exact UInt8.toNat_inj.mp (by omega)
  · rintro rfl
    rfl

theorem targetShown_iff (x : Screen) (it : Iteration) :
    (x.step w it).stat.targetShown w (x.step w it).readAt =
        (if (x.step w it).stat.away then ['A', 'W', 'A', 'Y']
          else Decimal.itoa (getTargettemp w (x.step w it).stat).toNat) ↔
      ¬ x.Outdated w it := by
  obtain ⟨-, haway, htargets, -⟩ := Stat.settings_eq (iterate_settings w x.stat it)
  rw [Stat.targetShown, Screen.Outdated, ← haway, ← htargets]
  change (if (x.step w it).stat.away then _ else _) = _ ↔
    ¬ ((x.step w it).stat.away = false ∧ _)
  cases (x.step w it).stat.away with
  | true => simp
  | false =>
    simp only [Bool.false_eq_true, if_false, true_and, ne_eq, not_not]
    exact itoa_toNat_inj

/-- What holds at the end of an iteration, as long as the icon area has not gone wrong. -/
structure Screen.Sound (w : World) (x : Screen) : Prop where
  dial : Dial w x.readAt (truncate w.intOfNan x.stat.localtemp) x.stat
  lit : Lit x.stat

theorem displayed_step_iff {x : Screen} (h : x.Sound w) (it : Iteration) :
    Displayed w (x.step w it).stat ↔
      ¬ x.Outdated w it ∧ ¬ StopsOne w (receive w it x.stat) := by
  have hx := iterate_localtemp w x.stat it
  have hdial : Dial w (x.step w it).readAt _ (x.step w it).stat := dial_iterate h.dial it
  rw [← lit_iterate_iff h.lit, ← showsIcon_iterate_iff h.lit, ← targetShown_iff]
  constructor
  · intro hd
    exact ⟨Option.some.inj (hdial.target.symm.trans hd.target), hd.icon⟩
  · rintro ⟨htarget, hicon⟩
    refine ⟨hdial.target.trans (congrArg some htarget), ?_, hicon⟩
    rw [hdial.room]
    exact congrArg (fun y => some (Decimal.itoa (truncate w.intOfNan y))) hx.symm

theorem screen_sound_step {x : Screen} (h : x.Sound w) (it : Iteration)
    (hstops : ¬ StopsOne w (receive w it x.stat)) : (x.step w it).Sound w := by
  have hx := iterate_localtemp w x.stat it
  refine ⟨?_, (lit_iterate_iff h.lit it).mpr hstops⟩
  rw [show (x.step w it).stat.localtemp = it.localtemp from hx]
  exact dial_iterate h.dial it

end Runs

/-- From the first iteration on the texts and the icon area agree with the state at the end of
every iteration, if and only if the target of the slot never changes under the dial and no
iteration that starts with furnace and AC on stops just one of them. -/
theorem screen_agrees_iff (w : World) (sensor : Reading ℚ) (eeprom : Eeprom) (rounds : ℕ)
    (its : List Iteration) :
    Along (Screen.step w) (fun x it => Displayed w (x.step w it).stat)
        (Screen.boot w sensor eeprom rounds) its ↔
      Along (Screen.step w)
        (fun x it => ¬ x.Outdated w it ∧ ¬ StopsOne w (receive w it x.stat))
        (Screen.boot w sensor eeprom rounds) its :=
  along_congr_of_step (P := Screen.Sound w) (fun _ it h hC => screen_sound_step h it hC.2)
    (fun _ it h => displayed_step_iff h it) ⟨dial_setup .., lit_setup ..⟩ its

/-- The hour passes from 5 to 6 once `setup()` is through. -/
def earlyWorld : World := ⟨fun _ => 1000, fun t => if t < 7 then 5 else 6, fun _ => true, 0⟩

/-- At dawn the screen goes on to show the target of the night. -/
theorem early_outdated :
    targetText (iterate earlyWorld (setup earlyWorld (.num 70) Eeprom.erased 1)
        ⟨.num 70, none, 0⟩).drawn = some ['6', '0'] ∧
      getTargettemp earlyWorld (iterate earlyWorld (setup earlyWorld (.num 70) Eeprom.erased 1)
        ⟨.num 70, none, 0⟩) = 68 ∧
      ¬ Along (Screen.step earlyWorld) (fun x it =>
          Displayed earlyWorld (x.step earlyWorld it).stat)
        (Screen.boot earlyWorld (.num 70) Eeprom.erased 1) [⟨.num 70, none, 0⟩] := by
  refine ⟨by decide +kernel, by decide +kernel, fun h => ?_⟩
  exact absurd h.1.target (by decide +kernel)

end Wyostat.OpenThermostat
