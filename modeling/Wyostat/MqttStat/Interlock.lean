import Wyostat.MqttStat.SetPoints

/-! The mqtt_stat sketch has no timer, so each branch stops the one device before it starts
the other: furnace and AC never run together, whatever the set-points are. -/
namespace Wyostat.MqttStat
open Machine Output

/-- The state variable of each relay. -/
def Stat.relay (s : Stat) : Pin → Bool
  | .furnaceSCR => s.furnaceState
  | .acSCR => s.acState
  | .fanSCR => s.fanState

/-- From `s` to `t` one relay was set, with one write if that was a change. -/
structure Sets (pin : Pin) (b : Bool) (s t : Stat) : Prop where
  relay : t.relay = Function.update s.relay pin b
  writes : writes t.log = writes s.log ∧ s.relay pin = b ∨
    ∃ tick, writes t.log = ⟨pin, b, tick⟩ :: writes s.log

section Setters
variable (w : World) (b : Bool) (s : Stat)

theorem writes_publish (topic : String) (payload : List Char) :
    writes (publish w topic payload s).log = writes s.log := by
  rw [publish_log]
  split_ifs <;> rfl

theorem sets_self {pin : Pin} (h : b = s.relay pin) : Sets pin b s s :=
  ⟨(Function.update_eq_self_iff.mpr h).symm, .inl ⟨rfl, h.symm⟩⟩

theorem sets_setFurnace : Sets .furnaceSCR b s (setFurnace w b s) := by
  unfold setFurnace
  split_ifs with h
  · refine ⟨?_, .inr ⟨s.tick + 1, ?_⟩⟩
    · funext p
      cases p <;> rfl
    · rw [← writes_publish w s "wyostat.furnace_state" (oneZero b)]
      rfl
  · exact sets_self b s (not_not.mp h)

theorem sets_setAc : Sets .acSCR b s (setAc w b s) := by
  unfold setAc
  split_ifs with h
  · refine ⟨?_, .inr ⟨s.tick + 1, ?_⟩⟩
    · funext p
      cases p <;> rfl
    · rw [← writes_publish w s "wyostat.ac_state" (oneZero b)]
      rfl
  · exact sets_self b s (not_not.mp h)

theorem sets_setFan : Sets .fanSCR b s (setFan w b s) := by
  unfold setFan
  split_ifs with h
  · refine ⟨?_, .inr ⟨s.tick + 1, ?_⟩⟩
    · funext p
      cases p <;> rfl
    · rw [← writes_publish w s "wyostat.fan_state" (oneZero b)]
      rfl
  · exact sets_self b s (not_not.mp h)

end Setters

/-- The outputs show the relay states, and heat and cool were never on together. -/
structure Safe (s : Stat) : Prop where
  shown : ∀ pin, level pin (writes s.log) = s.relay pin
  apart : NeverBoth .furnaceSCR .acSCR (writes s.log)

theorem Safe.sets {pin : Pin} {b : Bool} {s t : Stat} (h : Safe s) (hset : Sets pin b s t)
    (hlow : t.relay .furnaceSCR = false ∨ t.relay .acSCR = false) : Safe t := by
  obtain ⟨hrelay, ⟨hwrites, hsame⟩ | ⟨tick, hwrites⟩⟩ := hset
  · have heq : t.relay = s.relay := hrelay.trans (Function.update_eq_self_iff.mpr hsame.symm)
    constructor
    · rw [hwrites, heq]
      exact h.shown
    · rw [hwrites]
      exact h.apart
  · have hshown (q : Pin) : level q (writes t.log) = t.relay q := by
      rw [hwrites, level_cons, hrelay, funext h.shown]
    refine ⟨hshown, ?_⟩
    rw [← hshown, ← hshown, hwrites] at hlow
    rw [hwrites]
    exact h.apart.cons_of_low hlow

/-- What a branch makes of the three relays: the device it stops first is off before the other
one is asked for, and the fan is set last. -/
theorem safe_branch {s t u v : Stat} {off on : Pin} {b fan : Bool} (h : Safe s)
    (hpins : off = .furnaceSCR ∧ on = .acSCR ∨ off = .acSCR ∧ on = .furnaceSCR)
    (hoff : Sets off false s t) (hon : Sets on b t u) (hfan : Sets .fanSCR fan u v)
    (hb : fan = b) : Safe v ∧ v.fanState = (v.furnaceState || v.acState) := by
  subst hb
  rcases hpins with ⟨rfl, rfl⟩ | ⟨rfl, rfl⟩
  · have ht : Safe t := h.sets hoff (.inl (by simp [hoff.relay]))
    have hu : Safe u := ht.sets hon (.inl (by simp [hon.relay, hoff.relay]))
    refine ⟨hu.sets hfan (.inl (by simp [hfan.relay, hon.relay, hoff.relay])), ?_⟩
    change v.relay .fanSCR = (v.relay .furnaceSCR || v.relay .acSCR)
    simp [hfan.relay, hon.relay, hoff.relay]
  · have ht : Safe t := h.sets hoff (.inr (by simp [hoff.relay]))
    have hu : Safe u := ht.sets hon (.inr (by simp [hon.relay, hoff.relay]))
    refine ⟨hu.sets hfan (.inr (by simp [hfan.relay, hon.relay, hoff.relay])), ?_⟩
    change v.relay .fanSCR = (v.relay .furnaceSCR || v.relay .acSCR)
    simp [hfan.relay, hon.relay, hoff.relay]

theorem safe_control (w : World) {s : Stat} (h : Safe s) :
    Safe (control w s) ∧
      (control w s).fanState = ((control w s).furnaceState || (control w s).acState) := by
  unfold control
  split_ifs
  · exact safe_branch h (.inr ⟨rfl, rfl⟩) (sets_setAc w false s) (sets_setFurnace w true _)
      (sets_setFan w true _) rfl
  · exact safe_branch h (.inl ⟨rfl, rfl⟩) (sets_setFurnace w false s) (sets_setAc w true _)
      (sets_setFan w true _) rfl
  · exact safe_branch h (.inr ⟨rfl, rfl⟩) (sets_setAc w false s) (sets_setFurnace w false _)
      (sets_setFan w false _) rfl

section Frame
variable (w : World) (s : Stat)

/-- The relay states and everything ever written to the outputs. -/
def Stat.relays (s : Stat) : (Pin → Bool) × List (Output.Write Pin) := (s.relay, writes s.log)

theorem Safe.of_relays {s t : Stat} (h : Safe s) (heq : t.relays = s.relays) : Safe t := by
  obtain ⟨hrelay, hwrites⟩ := Prod.mk.inj heq
  constructor
  · rw [hwrites, hrelay]
    exact h.shown
  · rw [hwrites]
    exact h.apart

theorem publish_relays (topic : String) (payload : List Char) :
    (publish w topic payload s).relays = s.relays := by
  rw [Stat.relays, writes_publish]
  rfl

theorem mqttCallback_relays (m : Msg) : (mqttCallback w s m).relays = s.relays :=
  mqttCallback_frame (f := Stat.relays) w s (fun _ _ => rfl) (fun _ _ => rfl) (fun _ _ _ => rfl)
    (fun topic payload t => publish_relays w t topic payload) m

theorem receive_relays (it : Iteration) : (receive w it s).relays = s.relays := by
  apply receive_preserves (P := fun t => t.relays = s.relays)
  · intro t h
    exact h
  · intro t h
    exact h
  · intro t m h
    exact (mqttCallback_relays w t m).trans h
  · rfl

theorem timedPublish_relays (temp : ℤ) (now : BitVec 32) :
    (timedPublish w temp now s).relays = s.relays := by
  unfold timedPublish
  dsimp only
  split_ifs
  · rw [publishInt, publish_relays]
    rfl
  · rfl
  · rfl

end Frame

theorem safe_loop (w : World) (s : Stat) (it : Iteration) (h : Safe s) :
    Safe (loop w s it) ∧
      (loop w s it).fanState = ((loop w s it).furnaceState || (loop w s it).acState) := by
  obtain ⟨hsafe, hfan⟩ := safe_control w (h.of_relays (receive_relays w s it))
  have hrelays : (loop w s it).relays = (control w (receive w it s)).relays :=
    timedPublish_relays ..
  refine ⟨hsafe.of_relays hrelays, ?_⟩
  have hrelay : (loop w s it).relay = (control w (receive w it s)).relay :=
    congrArg Prod.fst hrelays
  change (loop w s it).relay .fanSCR =
    ((loop w s it).relay .furnaceSCR || (loop w s it).relay .acSCR)
  rw [hrelay]
  exact hfan

/-- In every run from boot with any set-points, at no point between two relay writes are
furnace and AC both HIGH, every output shows its state variable, and the fan runs if and only
if furnace or AC does. -/
theorem furnace_ac_apart (w : World) (eeprom : Eeprom) (lo hi : ℤ) (its : List Iteration) :
    Always (loop w)
      (fun s => NeverBoth .furnaceSCR .acSCR (writes s.log) ∧
        s.fanState = (s.furnaceState || s.acState) ∧
        ∀ pin, level pin (writes s.log) = s.relay pin)
      (((setup eeprom).setSettemplo lo).setSettemphi hi) its := by
  have hstep (s : Stat) (it : Iteration) (h : Safe s ∧ s.fanState = (s.furnaceState || s.acState)) :
      Safe (loop w s it) ∧
        (loop w s it).fanState = ((loop w s it).furnaceState || (loop w s it).acState) :=
    safe_loop w s it h.1
  have hboot : Safe (((setup eeprom).setSettemplo lo).setSettemphi hi) := by
    refine ⟨fun pin => ?_, ?_⟩
    · cases pin <;> rfl
    · exact throughout_nil.mpr (by simp)
  exact (always_of_step hstep ⟨hboot, rfl⟩ its).mono fun s hs => ⟨hs.1.apart, hs.2, hs.1.shown⟩

end Wyostat.MqttStat
