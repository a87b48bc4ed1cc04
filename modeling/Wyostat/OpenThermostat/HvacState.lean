import Wyostat.OpenThermostat.Setters

/-! What the broker last received on `wyostat.hvac_state` tells the state of the relays, unless
the announcement of a change was lost: a reconnect repeats nothing. -/
namespace Wyostat.OpenThermostat
open Machine

/-- The text of `publish_hvac_state`. -/
def Stat.stateText (s : Stat) : List Char :=
  if s.acState then ['c', 'o', 'o', 'l', 'i', 'n', 'g']
  else if s.furnaceState then ['h', 'e', 'a', 't', 'i', 'n', 'g']
  else ['o', 'f', 'f']

/-- The last report of the state, if the broker has received one, is true. -/
def Reported (s : Stat) : Prop :=
  ∀ text ∈ lastOn "wyostat.hvac_state" s.log, text = s.stateText

instance (s : Stat) : Decidable (Reported s) :=
  inferInstanceAs (Decidable (∀ text ∈ lastOn "wyostat.hvac_state" s.log, text = s.stateText))

/-- The request is about to change what should be reported. -/
def Changes (w : World) (s : Stat) : Request → Prop
  | .furnace b => b ≠ s.furnaceState ∧ ¬ Refuses w s ∧ s.acState = false
  | .ac b => b ≠ s.acState
  | _ => False

/-- The connection holds until a change has been announced: for the furnace the clock is read
twice before. -/
def Arrives (w : World) (s : Stat) : Request → Prop
  | .furnace _ => s.connected = true ∧ w.link (s.tick + 2) = true ∧ w.link (s.tick + 3) = true
  | _ => s.connected = true ∧ w.link s.tick = true ∧ w.link (s.tick + 1) = true

/-- If the request changes a state that has been reported, the change is announced. -/
def Heard (w : World) (s : Stat) (r : Request) : Prop :=
  (lastOn "wyostat.hvac_state" s.log).isSome → Changes w s r → Arrives w s r

instance (w : World) (s : Stat) : (r : Request) → Decidable (Changes w s r)
  | .furnace b => inferInstanceAs (Decidable (b ≠ s.furnaceState ∧ _ ∧ _))
  | .ac b => inferInstanceAs (Decidable (b ≠ s.acState))
  | .hour | .fan _ | .fanAsFurnace => .isFalse id

instance (w : World) (s : Stat) : (r : Request) → Decidable (Arrives w s r)
  | .furnace _ => inferInstanceAs (Decidable (_ ∧ _ ∧ _))
  | .hour | .ac _ | .fan _ | .fanAsFurnace => inferInstanceAs (Decidable (_ ∧ _ ∧ _))

instance (w : World) (s : Stat) (r : Request) : Decidable (Heard w s r) :=
  inferInstanceAs (Decidable (_ → _ → _))

section Publications
variable (w : World) (s : Stat)

theorem lastOn_publish_self (topic : String) (payload : List Char) :
    lastOn topic (publish w topic payload s).log =
      if s.connected && w.link s.tick then some payload else lastOn topic s.log := by
  rw [publish_log]
  split_ifs
  · rw [lastOn_publish, if_pos rfl]
  · rfl

theorem lastOn_publish_of_ne {topic t : String} (h : t ≠ topic) (payload : List Char) :
    lastOn topic (publish w t payload s).log = lastOn topic s.log := by
  rw [publish_log]
  split_ifs
  · rw [lastOn_publish, if_neg h]
  · rfl

@[simp] theorem lastOn_displayTemp (topic : String) :
    lastOn topic (displayTemp w s).log = lastOn topic s.log := by
  simp [displayTemp]

@[simp] theorem lastOn_drawIcon (topic : String) (icon : Option Icon) :
    lastOn topic (drawIcon icon s).log = lastOn topic s.log := by
  cases icon <;> rfl

theorem lastOn_publishHvacState :
    lastOn "wyostat.hvac_state" (publishHvacState w s).log =
      if s.connected && w.link s.tick then some s.stateText
      else lastOn "wyostat.hvac_state" s.log := by
  rw [← lastOn_publish_self]
  simp only [publishHvacState, publishInt, publishBool]
  rw [lastOn_publish_of_ne _ _ (by decide), Stat.tock_log, lastOn_publish_of_ne _ _ (by decide),
    lastOn_publish_of_ne _ _ (by decide)]
  rfl

end Publications

theorem stateText_congr {s t : Stat} (h : t.relays = s.relays) : t.stateText = s.stateText := by
  obtain ⟨hf, ha, -⟩ := Stat.relays_eq h
  rw [Stat.stateText, Stat.stateText, hf, ha]

theorem Reported.frame {s t : Stat} (h : Reported s) (htext : t.stateText = s.stateText)
    (hlog : lastOn "wyostat.hvac_state" t.log = lastOn "wyostat.hvac_state" s.log) :
    Reported t := by
  intro text hmem
  rw [hlog] at hmem
  rw [htext]
  exact h text hmem

section Announcements
variable (w : World)

theorem reported_publishHvacState {s : Stat} (h : Reported s) :
    Reported (publishHvacState w s) := by
  have htext : (publishHvacState w s).stateText = s.stateText :=
    stateText_congr (publishHvacState_relays w s)
  intro text hmem
  rw [lastOn_publishHvacState] at hmem
  rw [htext]
  split_ifs at hmem
  · exact (Option.some.inj hmem).symm
  · exact h text hmem

theorem lastOn_setFurnace {b : Bool} {s : Stat} (hne : b ≠ s.furnaceState)
    (hr : ¬ Refuses w s) :
    lastOn "wyostat.hvac_state" (setFurnace w b s).log =
      if s.connected && w.link (s.tick + 2) && w.link (s.tick + 3) then
        some (setFurnace w b s).stateText
      else lastOn "wyostat.hvac_state" s.log := by
  have ha : minChangeDuration < w.rtc s.tick - s.lastFurnaceStateChange := UInt32.not_le.mp hr
  have htext : (setFurnace w b s).stateText = (s.setFurnaceState b).stateText := by
    have hf : (setFurnace w b s).furnaceState = b :=
      congrArg Relays.furnaceState (setFurnace_accepted hne hr).1
    rw [Stat.stateText, setFurnace_acState, hf]
    rfl
  rw [htext]
  simp only [setFurnace, hne, ne_eq, not_false_eq_true, if_true, ha]
  rw [lastOn_drawIcon, lastOn_publishHvacState, publishOffOn, lastOn_publish_of_ne _ _ (by decide)]
  rfl

theorem lastOn_setAc {b : Bool} {s : Stat} (hne : b ≠ s.acState) :
    lastOn "wyostat.hvac_state" (setAc w b s).log =
      if s.connected && w.link s.tick && w.link (s.tick + 1) then
        some (setAc w b s).stateText
      else lastOn "wyostat.hvac_state" s.log := by
  have htext : (setAc w b s).stateText = (s.setAcState b).stateText := by
    rw [Stat.stateText, setAc_acState, setAc_furnaceState]
    rfl
  rw [htext]
  simp only [setAc, hne, ne_eq, not_false_eq_true, if_true]
  rw [lastOn_drawIcon, lastOn_publishHvacState, publishOffOn, lastOn_publish_of_ne _ _ (by decide)]
  rfl

theorem lastOn_setFan {topic : String} (h : topic ≠ "wyostat.fan_state") (b : Bool) (s : Stat) :
    lastOn topic (setFan w b s).log = lastOn topic s.log := by
  by_cases hb : b = s.fanState
  · subst hb
    rw [setFan_self]
  · simp only [setFan, hb, ne_eq, not_false_eq_true, if_true]
    rw [digitalWrite_log, lastOn_digitalWrite, Stat.setFanState_log,
      lastOn_publish_of_ne _ _ h.symm]

theorem lastOn_timedPublish {topic : String} (h : topic ≠ "wyostat.temp") (temp : Reading ℚ)
    (now : BitVec 32) (s : Stat) :
    lastOn topic (timedPublish w temp now s).log = lastOn topic s.log := by
  unfold timedPublish
  dsimp only
  split_ifs
  · rw [lastOn_publish_of_ne _ _ h.symm]
    rfl
  · rfl
  · rfl

theorem lastOn_finish {topic : String} (h : topic ≠ "wyostat.temp") (temp : Reading ℚ)
    (now : BitVec 32) (s : Stat) :
    lastOn topic (finish w temp now s).log = lastOn topic s.log := by
  unfold finish
  rw [lastOn_timedPublish w h]
  split_ifs <;> simp

/-- An announcement keeps the last report true exactly when it arrives or is not needed. -/
theorem reported_announcement_iff {s t : Stat} {arrives : Bool} (h : Reported s)
    (hlog : lastOn "wyostat.hvac_state" t.log =
      if arrives then some t.stateText else lastOn "wyostat.hvac_state" s.log) :
    Reported t ↔ ((lastOn "wyostat.hvac_state" s.log).isSome →
      t.stateText ≠ s.stateText → arrives = true) := by
  unfold Reported
  cases arrives with
  | true => simp [hlog]
  | false =>
    simp only [Bool.false_eq_true, if_false] at hlog
    rw [hlog]
    cases hlast : lastOn "wyostat.hvac_state" s.log with
    | none => simp
    | some text =>
      have htext : text = s.stateText := h text hlast
      simp [htext, eq_comm]

theorem reported_perform_iff {s : Stat} (h : Reported s) (r : Request) :
    Reported (perform w s r) ↔ Heard w s r := by
  have hfan (b : Bool) : Reported (setFan w b s) := by
    apply h.frame _ (lastOn_setFan w (by decide) b s)
    rw [Stat.stateText, setFan_acState, setFan_furnaceState]
    rfl
  cases r with
  | hour => exact ⟨fun _ _ hc => hc.elim, fun _ => h⟩
  | fan b => exact ⟨fun _ _ hc => hc.elim, fun _ => hfan b⟩
  | fanAsFurnace => exact ⟨fun _ _ hc => hc.elim, fun _ => hfan s.furnaceState⟩
  | furnace b =>
    by_cases hb : b = s.furnaceState
    · subst hb
      rw [perform, setFurnace_self]
      exact ⟨fun _ _ hc => absurd rfl hc.1, fun _ => h⟩
    by_cases hr : Refuses w s
    · rw [perform, setFurnace_refused hb hr]
      exact ⟨fun _ _ hc => absurd hr hc.2.1, fun _ => h⟩
    have hf : (setFurnace w b s).furnaceState = b :=
      congrArg Relays.furnaceState (setFurnace_accepted hb hr).1
    have hchange : (setFurnace w b s).stateText ≠ s.stateText ↔ s.acState = false := by
      rw [Stat.stateText, Stat.stateText, setFurnace_acState, hf]
      cases s.acState <;> cases hs : s.furnaceState <;> cases b <;> simp_all
    rw [perform, reported_announcement_iff h (lastOn_setFurnace w hb hr), hchange]
    simp [Heard, Changes, Arrives, hb, hr, and_assoc]
  | ac b =>
    by_cases hb : b = s.acState
    · subst hb
      rw [perform, setAc_self]
      exact ⟨fun _ _ hc => absurd rfl hc, fun _ => h⟩
    have hchange : (setAc w b s).stateText ≠ s.stateText := by
      rw [Stat.stateText, Stat.stateText, setAc_acState, setAc_furnaceState]
      cases hs : s.acState <;> cases s.furnaceState <;> cases b <;> simp_all
    rw [perform, reported_announcement_iff h (lastOn_setAc w hb)]
    simp [Heard, Changes, Arrives, hb, hchange, and_assoc]

theorem reported_control {s : Stat} (h : Reported s)
    (hheard : Along (perform w) (Heard w) s (requests w s)) : Reported (control w s) := by
  rw [control_eq_run]
  have hstep (s : Stat) (r : Request) (h : Reported s) (hr : Heard w s r) :
      Reported (perform w s r) := (reported_perform_iff w h r).mpr hr
  exact (always_of_along hstep h hheard).last

end Announcements

section Runs
variable (w : World)

theorem reported_mqttCallback {s : Stat} (h : Reported s) (m : Msg) :
    Reported (mqttCallback w m s) := by
  have htext := stateText_congr (mqttCallback_relays w s m)
  rw [mqttCallback_eq] at htext ⊢
  split_ifs at htext ⊢
  · apply h.frame htext
    unfold targettempCb targettemp
    split_ifs <;> simp
  · apply h.frame htext
    unfold awayCb
    split_ifs <;> simp
  · exact reported_publishHvacState w h
  · exact reported_publishHvacState w h
  · apply reported_publishHvacState w
    exact h.frame (stateText_congr (publish_relays ..)) (lastOn_publish_of_ne w s (by decide) _)
  · exact h
  · exact h

theorem reported_receive {s : Stat} (h : Reported s) (it : Iteration) :
    Reported (receive w it s) := by
  apply receive_preserves (P := Reported)
  · intro t ht
    exact ht
  · intro t ht
    exact ht
  · intro t m ht
    exact reported_mqttCallback w ht m
  · exact h

theorem reported_finish {s : Stat} (h : Reported s) (temp : Reading ℚ) (now : BitVec 32) :
    Reported (finish w temp now s) :=
  h.frame (stateText_congr (finish_relays w s temp now)) (lastOn_finish w (by decide) temp now s)

theorem reported_setup (sensor : Reading ℚ) (eeprom : Eeprom) (rounds : ℕ) :
    Reported (setup w sensor eeprom rounds) := by
  apply mqttConnect_preserves (P := Reported)
  · intro t h
    apply h.frame (stateText_congr (announce_relays w (t.setConnected true)))
    simp only [announce, publishInt]
    rw [lastOn_publish_of_ne _ _ (by decide), Stat.tock_log,
      lastOn_publish_of_ne _ _ (by decide), lastOn_publish_of_ne _ _ (by decide),
      lastOn_publish_of_ne _ _ (by decide)]
    rfl
  · intro text hmem
    simp [testIcons, setupDisplay, loadSettings, setupPins, powerUp, lastOn] at hmem

/-- In every run in which each change of what has been reported before is announced over a
connection that holds, the last report of the state is true at the end of every iteration. -/
theorem hvac_state_reported (sensor : Reading ℚ) (eeprom : Eeprom) (rounds : ℕ)
    (its : List Iteration)
    (hheard : Along (iterate w)
      (fun s it => Along (perform w) (Heard w) (receive w it s) (requests w (receive w it s)))
      (setup w sensor eeprom rounds) its) :
    Always (iterate w) (fun s => s.connected = true → Reported s)
      (setup w sensor eeprom rounds) its := by
  have hstep (s : Stat) (it : Iteration) (h : Reported s)
      (hr : Along (perform w) (Heard w) (receive w it s) (requests w (receive w it s))) :
      Reported (iterate w s it) :=
    reported_finish w (reported_control w (reported_receive w h it) hr) _ _
  have halways := always_of_along hstep (reported_setup w sensor eeprom rounds) hheard
  apply halways.mono
  intro s h _
  exact h

end Runs

section Drops

/-- A clock by which every change is accepted, and a connection that is lost once. -/
def dropWorld (t : ℕ) : World :=
  ⟨fun k => UInt32.ofNat (1000 * k), fun _ => 12, fun k => k ≠ t, 0⟩

/-- The furnace starts at 60 degrees and stops at 75. -/
def warmUp : List Iteration := [⟨.num 60, none, 0⟩, ⟨.num 75, none, 0⟩, ⟨.num 75, none, 0⟩]

/-- A connection lost between two changes does no harm. -/
theorem hvac_state_reported_warmUp :
    Always (iterate (dropWorld 20)) (fun s => s.connected = true → Reported s)
      (setup (dropWorld 20) (.num 60) Eeprom.erased 1) warmUp :=
  hvac_state_reported (dropWorld 20) (.num 60) Eeprom.erased 1 warmUp (by decide +kernel)

/-- One lost while the furnace stops leaves `heating` standing after the reconnect. -/
theorem warmUp_not_reported :
    ¬ Always (iterate (dropWorld 26)) (fun s => s.connected = true → Reported s)
      (setup (dropWorld 26) (.num 60) Eeprom.erased 1) warmUp := by
  decide +kernel

end Drops

end Wyostat.OpenThermostat
