import Wyostat.OpenThermostat.Setters
import Wyostat.Lib.Hysteresis
import Mathlib.Algebra.Order.Ring.Cast
import Mathlib.Tactic.Linarith

/-! The thresholds of each mode, and the dead band they leave; heating at home stops the furnace
inside of it. -/
namespace Wyostat.OpenThermostat
open Machine Hysteresis

/-- The relay a mode controls. -/
def Stat.controlled (mode : Char) (s : Stat) : Bool :=
  if mode = 'h' then s.furnaceState else s.acState

/-- The temperature the thresholds are compared with. -/
def controlTemp (w : World) (s : Stat) : Reading ℚ :=
  if s.away then s.localtemp else .num (truncate w.intOfNan s.localtemp)

/-- The state in which the control section looks the target up. -/
def lookup (w : World) (s : Stat) : Stat :=
  if s.mode = 'h' then setAc w false s else setFurnace w false s

/-- The control section finds the mode and `away` as given and, at home, the target both times
it looks it up. -/
structure Steady (w : World) (mode : Char) (away : Bool) (target : UInt8) (s : Stat) : Prop where
  atMode : s.mode = mode
  atAway : s.away = away
  now : away = false → getTargettemp w (lookup w s) = target
  next : away = false → getTargettemp w (lookup w s).tock = target

instance (w : World) (mode : Char) (away : Bool) (target : UInt8) (s : Stat) :
    Decidable (Steady w mode away target s) :=
  decidable_of_iff (s.mode = mode ∧ s.away = away ∧
      (away = false → getTargettemp w (lookup w s) = target) ∧
      (away = false → getTargettemp w (lookup w s).tock = target))
    ⟨fun h => ⟨h.1, h.2.1, h.2.2.1, h.2.2.2⟩, fun h => ⟨h.atMode, h.atAway, h.now, h.next⟩⟩

/-- The lower end of the dead band the thresholds of a mode are meant to leave. -/
def bandLow (mode : Char) (away : Bool) (target : UInt8) : ℤ :=
  if mode = 'h' then (if away then awaymin else target.toNat) - hilogap / 2
  else (if away then awaymax else target.toNat) - hilogap

def bandHigh (mode : Char) (away : Bool) (target : UInt8) : ℤ :=
  bandLow mode away target + hilogap

/-- Heating at home is about to stop the furnace inside the dead band. -/
def Hasty (w : World) (s : Stat) : Prop :=
  s.mode = 'h' ∧ s.away = false ∧ s.furnaceState = true ∧ ¬ Refuses w (lookup w s).tock ∧
    (getTargettemp w (lookup w s)).toNat - hilogap / 2 < truncate w.intOfNan s.localtemp ∧
    truncate w.intOfNan s.localtemp < (getTargettemp w (lookup w s)).toNat + hilogap / 2

instance (w : World) (s : Stat) : Decidable (Hasty w s) :=
  inferInstanceAs (Decidable (_ ∧ _ ∧ _ ∧ _ ∧ _ ∧ _))

/-- Two temperatures that differ by at least `hilogap`. -/
def Apart (x y : Reading ℚ) : Prop := ∃ a b, x = .num a ∧ y = .num b ∧ (hilogap : ℚ) ≤ |a - b|

section Requests
variable {w : World}

theorem perform_furnaceState (s : Stat) (r : Request) :
    (perform w s r).furnaceState = s.furnaceState ∨
      r = .furnace (perform w s r).furnaceState := by
  cases r with
  | hour => exact .inl rfl
  | ac b => exact .inl (setAc_furnaceState w b s)
  | fan b => exact .inl (setFan_furnaceState w b s)
  | fanAsFurnace => exact .inl (setFan_furnaceState w s.furnaceState s)
  | furnace b =>
    rw [perform]
    by_cases hb : b = s.furnaceState
    · subst hb
      exact .inl (by rw [setFurnace_self])
    · by_cases hr : Refuses w s
      · exact .inl (by rw [setFurnace_refused hb hr]; rfl)
      · have hf : (setFurnace w b s).furnaceState = b :=
          congrArg Relays.furnaceState (setFurnace_accepted hb hr).1
        exact .inr (by rw [hf])

theorem perform_acState (s : Stat) (r : Request) :
    (perform w s r).acState = s.acState ∨ r = .ac (perform w s r).acState := by
  cases r with
  | hour => exact .inl rfl
  | furnace b => exact .inl (setFurnace_acState w b s)
  | fan b => exact .inl (setFan_acState w b s)
  | fanAsFurnace => exact .inl (setFan_acState w s.furnaceState s)
  | ac b => exact .inr (by rw [perform, setAc_acState])

theorem furnace_true_mem {s : Stat} (h : .furnace true ∈ heatingRequests w s) :
    if s.away then s.localtemp.Below (awaymin - hilogap / 2 : ℤ)
    else truncate w.intOfNan s.localtemp ≤ (getTargettemp w s).toNat - hilogap / 2 := by
  unfold heatingRequests at h
  split_ifs at h ⊢ <;> simp_all

theorem furnace_false_mem {s : Stat} (h : .furnace false ∈ heatingRequests w s) :
    if s.away then s.localtemp.Above (awaymin + hilogap / 2 : ℤ)
    else (getTargettemp w s).toNat - hilogap / 2 < truncate w.intOfNan s.localtemp := by
  unfold heatingRequests at h
  split_ifs at h ⊢ <;> simp_all

theorem ac_true_mem {s : Stat} (h : .ac true ∈ coolingRequests w s) :
    if s.away then s.localtemp.Above (awaymax : ℤ)
    else (getTargettemp w s).toNat < truncate w.intOfNan s.localtemp := by
  unfold coolingRequests at h
  split_ifs at h ⊢ <;> simp_all

theorem ac_false_mem {s : Stat} (h : .ac false ∈ coolingRequests w s) :
    if s.away then s.localtemp.Below (awaymax - hilogap : ℤ)
    else truncate w.intOfNan s.localtemp ≤ (getTargettemp w s.tock).toNat - hilogap := by
  unfold coolingRequests at h
  split_ifs at h ⊢ <;> simp_all

end Requests

section Band
variable {w : World} {mode : Char} {away : Bool} {target : UInt8} {s : Stat}

theorem lookup_settings (w : World) (s : Stat) : (lookup w s).settings = s.settings := by
  unfold lookup
  split_ifs
  · exact setAc_settings w s false
  · exact setFurnace_settings w s false

theorem atMost_of_furnace_true (h : Steady w mode away target s) (hmode : mode = 'h')
    (hb : .furnace true ∈ requests w s) :
    (controlTemp w s).AtMost (bandLow mode away target) := by
  have hheat : s.mode = 'h' := h.atMode.trans hmode
  have hu : setAc w false s = lookup w s := (if_pos hheat).symm
  obtain ⟨htemp, haway, -⟩ := Stat.settings_eq (lookup_settings w s)
  rw [requests, if_pos hheat, hu] at hb
  have hcond := furnace_true_mem (List.mem_of_ne_of_mem (by simp) hb)
  rw [htemp, haway, h.atAway] at hcond
  rw [controlTemp, bandLow, if_pos hmode, h.atAway]
  cases away with
  | true => exact Reading.Below.atMost hcond
  | false =>
    rw [if_neg (by decide), h.now rfl] at hcond
    exact Int.cast_le.mpr hcond

/-- The timer has let the request through that stopped the furnace. -/
theorem not_refuses_of_stopped (hheat : s.mode = 'h') (haway : s.away = false)
    (hon : s.furnaceState = true) (hoff : (control w s).furnaceState = false)
    (hcond : (getTargettemp w (lookup w s)).toNat - hilogap / 2 <
      truncate w.intOfNan s.localtemp) : ¬ Refuses w (lookup w s).tock := by
  intro hr
  have hu : setAc w false s = lookup w s := (if_pos hheat).symm
  obtain ⟨htemp, haway', -⟩ := Stat.settings_eq (lookup_settings w s)
  have hrequests : heatingRequests w (lookup w s) = [.hour, .furnace false, .fanAsFurnace] := by
    rw [heatingRequests, haway', htemp, haway, if_neg (by decide), if_pos hcond]
  have hcontrol : control w s = run (perform w) (lookup w s)
      [.hour, .furnace false, .fanAsFurnace] := by
    rw [control, if_pos hheat, heating_eq_run, hu, hrequests]
  have hlast : (control w s).furnaceState =
      (setFurnace w false (lookup w s).tock).furnaceState := by
    rw [hcontrol]
    exact setFan_furnaceState ..
  have hbefore : (lookup w s).tock.furnaceState = true := by
    rw [← hu]
    exact (setAc_furnaceState w false s).trans hon
  rw [hlast, (setFurnace_false_furnaceState w (lookup w s).tock).mpr ⟨hbefore, hr⟩] at hoff
  cases hoff

theorem atLeast_of_furnace_false (h : Steady w mode away target s) (hmode : mode = 'h')
    (hh : ¬ Hasty w s) (hon : s.furnaceState = true) (hoff : (control w s).furnaceState = false)
    (hb : .furnace false ∈ requests w s) :
    (controlTemp w s).AtLeast (bandHigh mode away target) := by
  have hheat : s.mode = 'h' := h.atMode.trans hmode
  have hu : setAc w false s = lookup w s := (if_pos hheat).symm
  obtain ⟨htemp, haway, -⟩ := Stat.settings_eq (lookup_settings w s)
  rw [requests, if_pos hheat, hu] at hb
  have hcond := furnace_false_mem (List.mem_of_ne_of_mem (by simp) hb)
  rw [htemp, haway, h.atAway] at hcond
  rw [controlTemp, bandHigh, bandLow, if_pos hmode, h.atAway]
  cases away with
  | true => exact Reading.Above.atLeast hcond
  | false =>
    rw [if_neg (by decide)] at hcond
    have haccepted := not_refuses_of_stopped hheat h.atAway hon hoff hcond
    have hhot : ¬ truncate w.intOfNan s.localtemp <
        (getTargettemp w (lookup w s)).toNat + hilogap / 2 :=
      fun hlt => hh ⟨hheat, h.atAway, hon, haccepted, hcond, hlt⟩
    rw [h.now rfl] at hhot
    apply Int.cast_le.mpr
    simp only [hilogap, Bool.false_eq_true, if_false] at hhot ⊢
    omega

theorem requests_cooling (h : Steady w mode away target s) (hmode : mode = 'c') :
    requests w s = .furnace false :: coolingRequests w (lookup w s) := by
  have hc : s.mode = 'c' := h.atMode.trans hmode
  have hheat : s.mode ≠ 'h' := by
    rw [hc]
    decide
  rw [requests, lookup, if_neg hheat, if_pos hc, if_neg hheat]

theorem atLeast_of_ac_true (h : Steady w mode away target s) (hmode : mode = 'c')
    (hb : .ac true ∈ requests w s) :
    (controlTemp w s).AtLeast (bandHigh mode away target) := by
  have hne : mode ≠ 'h' := by
    rw [hmode]
    decide
  obtain ⟨htemp, haway, -⟩ := Stat.settings_eq (lookup_settings w s)
  rw [requests_cooling h hmode] at hb
  have hcond := ac_true_mem (List.mem_of_ne_of_mem (by simp) hb)
  rw [htemp, haway, h.atAway] at hcond
  rw [controlTemp, bandHigh, bandLow, if_neg hne, h.atAway]
  cases away with
  | true =>
    exact Reading.Above.atLeast hcond
  | false =>
    rw [if_neg (by decide), h.now rfl] at hcond
    apply Int.cast_le.mpr
    simp only [hilogap, Bool.false_eq_true, if_false]
    omega

theorem atMost_of_ac_false (h : Steady w mode away target s) (hmode : mode = 'c')
    (hb : .ac false ∈ requests w s) :
    (controlTemp w s).AtMost (bandLow mode away target) := by
  have hne : mode ≠ 'h' := by
    rw [hmode]
    decide
  obtain ⟨htemp, haway, -⟩ := Stat.settings_eq (lookup_settings w s)
  rw [requests_cooling h hmode] at hb
  have hcond := ac_false_mem (List.mem_of_ne_of_mem (by simp) hb)
  rw [htemp, haway, h.atAway] at hcond
  rw [controlTemp, bandLow, if_neg hne, h.atAway]
  cases away with
  | true => exact Reading.Below.atMost hcond
  | false =>
    rw [if_neg (by decide), h.next rfl] at hcond
    exact Int.cast_le.mpr hcond

/-- Where a mode switches its relay on. -/
def SwitchesOnAt (mode : Char) (away : Bool) (target : UInt8) (x : Reading ℚ) : Prop :=
  if mode = 'h' then x.AtMost (bandLow mode away target)
  else x.AtLeast (bandHigh mode away target)

/-- Where a mode switches its relay off. -/
def SwitchesOffAt (mode : Char) (away : Bool) (target : UInt8) (x : Reading ℚ) : Prop :=
  if mode = 'h' then x.AtLeast (bandHigh mode away target)
  else x.AtMost (bandLow mode away target)

theorem apart_of_band {x y : Reading ℚ} (hx : x.AtMost (bandLow mode away target))
    (hy : y.AtLeast (bandHigh mode away target)) : Apart x y ∧ Apart y x := by
  obtain ⟨a, ha, rfl⟩ := hx.exists_num
  obtain ⟨b, hb, rfl⟩ := hy.exists_num
  rw [bandHigh, Int.cast_add] at hb
  have hgap : (hilogap : ℚ) ≤ b - a := by linarith
  refine ⟨⟨a, b, rfl, rfl, ?_⟩, ⟨b, a, rfl, rfl, hgap.trans (le_abs_self _)⟩⟩
  rw [abs_sub_comm]
  exact hgap.trans (le_abs_self _)

theorem apart_of_switches {x y : Reading ℚ} (hx : SwitchesOnAt mode away target x)
    (hy : SwitchesOffAt mode away target y) : Apart x y ∧ Apart y x := by
  unfold SwitchesOnAt at hx
  unfold SwitchesOffAt at hy
  split_ifs at hx hy
  · exact apart_of_band hx hy
  · exact (apart_of_band hy hx).symm

/-- A control section that is not hasty switches the relay of its mode outside the dead band. -/
theorem switches_control (hmode : mode = 'h' ∨ mode = 'c') (h : Steady w mode away target s)
    (hh : ¬ Hasty w s) (hne : (control w s).controlled mode ≠ s.controlled mode) :
    if (control w s).controlled mode then SwitchesOnAt mode away target (controlTemp w s)
    else SwitchesOffAt mode away target (controlTemp w s) := by
  unfold SwitchesOnAt SwitchesOffAt
  unfold Stat.controlled at hne ⊢
  rcases hmode with hmode | hmode
  · simp only [if_pos hmode] at hne ⊢
    have hmem := run_eq_or_mem w s perform_furnaceState (requests w s)
    rw [← control_eq_run] at hmem
    have hmem := hmem.resolve_left hne
    cases hb : (control w s).furnaceState with
    | true => exact atMost_of_furnace_true h hmode (hb ▸ hmem)
    | false =>
      have hon : s.furnaceState = true := by simpa [hb] using hne.symm
      exact atLeast_of_furnace_false h hmode hh hon hb (hb ▸ hmem)
  · have hheat : mode ≠ 'h' := by
      rw [hmode]
      decide
    simp only [if_neg hheat] at hne ⊢
    have hmem := run_eq_or_mem w s perform_acState (requests w s)
    rw [← control_eq_run] at hmem
    have hmem := hmem.resolve_left hne
    cases hb : (control w s).acState with
    | true => exact atLeast_of_ac_true h hmode (hb ▸ hmem)
    | false => exact atMost_of_ac_false h hmode (hb ▸ hmem)

end Band

theorem controlled_eq {s t : Stat} (h : t.relays = s.relays) (mode : Char) :
    t.controlled mode = s.controlled mode := by
  obtain ⟨hf, ha, -⟩ := Stat.relays_eq h
  rw [Stat.controlled, Stat.controlled, hf, ha]

/-- In every segment during which mode, `away` and target stay constant, from any state and
through any temperatures, consecutive changes of the relay the mode controls happen at
temperatures at least `hilogap` apart, as long as heating at home does not stop the furnace
inside the dead band. -/
theorem controlled_changes_apart {w : World} {mode : Char} (hmode : mode = 'h' ∨ mode = 'c')
    {away : Bool} {target : UInt8} {s : Stat} {its : List Iteration}
    (hsteady : Along (iterate w) (fun s it => Steady w mode away target (receive w it s)) s its)
    (hhasty : Along (iterate w) (fun s it => ¬ Hasty w (receive w it s)) s its) :
    (outputs (iterate w) (changes (iterate w) (Stat.controlled mode)
      fun s it => controlTemp w (receive w it s)) s its).IsChain Apart := by
  have hswitch (s : Stat) (it : Iteration) (h : Steady w mode away target (receive w it s) ∧
      ¬ Hasty w (receive w it s)) :
      Switches (iterate w) (Stat.controlled mode) (fun s it => controlTemp w (receive w it s))
        (SwitchesOnAt mode away target) (SwitchesOffAt mode away target) s it := by
    have hafter : (iterate w s it).controlled mode = (control w (receive w it s)).controlled mode :=
      controlled_eq (finish_relays ..) mode
    have hbefore : (receive w it s).controlled mode = s.controlled mode :=
      controlled_eq (receive_relays w s it) mode
    unfold Switches
    rw [hafter, ← hbefore]
    exact switches_control hmode h.1 h.2
  have hall := (hsteady.and hhasty).mono hswitch
  exact (isChain_changes (fun _ _ => apart_of_switches) hall).1

section Bands

/-- A clock by which the furnace may change at any time. -/
def briskWorld : World := ⟨fun t => UInt32.ofNat (1000 * t), fun _ => 12, fun _ => true, 0⟩

/-- The AC starts at 75 degrees and stops at 64, for a target of 68. -/
def coolCycle : List Iteration :=
  [⟨.num 75, some ⟨"wyostat.hvacmode", ['c']⟩, 0⟩, ⟨.num 70, none, 0⟩, ⟨.num 64, none, 0⟩]

theorem controlled_changes_apart_coolCycle :
    (outputs (iterate briskWorld) (changes (iterate briskWorld) (Stat.controlled 'c')
      fun s it => controlTemp briskWorld (receive briskWorld it s))
      (setup briskWorld (.num 75) Eeprom.erased 1) coolCycle).IsChain Apart := by
  have hsteady : Along (iterate briskWorld)
      (fun s it => Steady briskWorld 'c' false 68 (receive briskWorld it s))
      (setup briskWorld (.num 75) Eeprom.erased 1) coolCycle := by
    decide +kernel
  exact controlled_changes_apart (.inr rfl) hsteady (by decide +kernel)

/-- Heating for a target of 68 starts at 66 degrees and stops at 67. -/
theorem heating_stops_one_degree_above :
    Along (iterate briskWorld) (fun s it => Steady briskWorld 'h' false 68
      (receive briskWorld it s))
        (setup briskWorld (.num 66) Eeprom.erased 1) [⟨.num 66, none, 0⟩, ⟨.num 67, none, 0⟩] ∧
      ¬ (outputs (iterate briskWorld) (changes (iterate briskWorld) (Stat.controlled 'h')
          fun s it => controlTemp briskWorld (receive briskWorld it s))
        (setup briskWorld (.num 66) Eeprom.erased 1)
        [⟨.num 66, none, 0⟩, ⟨.num 67, none, 0⟩]).IsChain Apart := by
  have hchanges : outputs (iterate briskWorld) (changes (iterate briskWorld) (Stat.controlled 'h')
      fun s it => controlTemp briskWorld (receive briskWorld it s))
      (setup briskWorld (.num 66) Eeprom.erased 1) [⟨.num 66, none, 0⟩, ⟨.num 67, none, 0⟩] =
        [.num 66, .num 67] := by
    decide +kernel
  refine ⟨by decide +kernel, ?_⟩
  rw [hchanges]
  intro h
  obtain ⟨a, b, ha, hb, hgap⟩ := (List.isChain_cons_cons.mp h).1
  cases ha
  cases hb
  revert hgap
  decide +kernel

end Bands

end Wyostat.OpenThermostat
