import Wyostat.ThermoCentral.Loop

/-! What the two control sections do to the relays, and what leaves the relays alone. -/
namespace Wyostat.ThermoCentral
open Machine Output

/-- The relay states and everything ever written to the outputs. -/
structure Relays where
  furnacestate : Bool
  acstate : Bool
  fanstate : Bool
  writes : List (Output.Write Pin)

def Stat.relays (s : Stat) : Relays := ⟨s.furnacestate, s.acstate, s.fanstate, writes s.log⟩

theorem Stat.relays_eq {s t : Stat} (h : s.relays = t.relays) :
    s.furnacestate = t.furnacestate ∧ s.acstate = t.acstate ∧ s.fanstate = t.fanstate ∧
      writes s.log = writes t.log := by
  simpa only [Stat.relays, Relays.mk.injEq] using h

section Frame

theorem handleSetTemp_frame {α : Type*} {view : Stat → α} {value : Stat → ℤ}
    {put : ℤ → Stat → Stat} {addr : ℕ} (hput : ∀ n s, view (put n s) = view s)
    (heeprom : ∀ addr n s, view (eepromWrite addr n s) = view s) (data : List Char) (s : Stat) :
    view (handleSetTemp value put addr data s) = view s := by
  unfold handleSetTemp
  split_ifs
  · rfl
  · rw [hput, heeprom]
  · rfl

/-- The feeds set the living-room temperature, a set-point and its copy in the EEPROM, and leave
everything else alone. -/
theorem ioRun_frame {α : Type*} {view : Stat → α} (hliving : ∀ n s, view (s.setLiving n) = view s)
    (hlo : ∀ n s, view (s.setSettemperatureLo n) = view s)
    (hhi : ∀ n s, view (s.setSettemperatureHi n) = view s)
    (heeprom : ∀ addr n s, view (eepromWrite addr n s) = view s) (data : List Data) (s : Stat) :
    view (ioRun data s) = view s := by
  have hhandle (d : Data) (s : Stat) : view (handle s d) = view s := by
    unfold handle handleLivingroom
    cases d.feed with
    | livingroomtemp =>
      dsimp only
      split_ifs
      · rfl
      · exact hliving _ s
    | setTempLo => exact handleSetTemp_frame hlo heeprom _ s
    | setTempHi => exact handleSetTemp_frame hhi heeprom _ s
    | furnaceState => rfl
    | acState => rfl
  induction data generalizing s with
  | nil => rfl
  | cons d data ih => exact (ih (handle s d)).trans (hhandle d s)

@[simp] theorem ioRun_relays (data : List Data) (s : Stat) :
    (ioRun data s).relays = s.relays :=
  ioRun_frame (fun _ _ => rfl) (fun _ _ => rfl) (fun _ _ => rfl) (fun _ _ _ => rfl) data s

@[simp] theorem record_relays (w : World) (s : Stat) : (record w s).relays = s.relays := by
  unfold record
  split_ifs <;> rfl

@[simp] theorem sampling_relays (w : World) (reading : Reading ℚ) (s : Stat) :
    (sampling w reading s).relays = s.relays := by
  unfold sampling
  split_ifs
  · exact record_relays w _
  · rfl

@[simp] theorem sense_relays (w : World) (it : Iteration) (s : Stat) :
    (sense w it s).relays = s.relays := by simp [sense]

@[simp] theorem handleButtons_relays (inc dec : Bool) (s : Stat) :
    (handleButtons inc dec s).relays = s.relays := by
  unfold handleButtons
  dsimp only
  split_ifs <;> rfl

@[simp] theorem finish_relays (it : Iteration) (s : Stat) :
    (finish it s).relays = s.relays := by
  unfold finish
  split_ifs <;> simp

end Frame

section Sections
variable (s : Stat)

/-- The heater control is about to leave the furnace on. -/
def HeatWanted (s : Stat) : Prop :=
  if s.furnacestate = true then ¬ s.localtemperature.AtLeast s.settemperatureLo
  else s.localtemperature.Below (s.settemperatureLo - tempgap)

instance : Decidable (HeatWanted s) := by
  unfold HeatWanted
  infer_instance

/-- The AC control is about to leave the AC on. -/
def CoolWanted (s : Stat) : Prop :=
  if s.acstate = true then ¬ s.localtemperature.AtMost s.settemperatureHi
  else s.localtemperature.Above (s.settemperatureHi + tempgap)

instance : Decidable (CoolWanted s) := by
  unfold CoolWanted
  infer_instance

theorem heaterControl_eq :
    heaterControl s =
      if s.furnacestate = decide (HeatWanted s) then s
      else switchFurnace (decide (HeatWanted s)) s := by
  cases hf : s.furnacestate with
  | false =>
    have hw : HeatWanted s ↔ s.localtemperature.Below (s.settemperatureLo - tempgap) := by
      simp [HeatWanted, hf]
    by_cases h : s.localtemperature.Below (s.settemperatureLo - tempgap) <;>
      simp [heaterControl, hf, hw, h]
  | true =>
    have hw : HeatWanted s ↔ ¬ s.localtemperature.AtLeast (s.settemperatureLo : ℚ) := by
      simp [HeatWanted, hf]
    by_cases h : s.localtemperature.AtLeast (s.settemperatureLo : ℚ) <;>
      simp [heaterControl, hf, hw, h]

theorem acControl_eq :
    acControl s =
      if s.acstate = decide (CoolWanted s) then s
      else switchAc (decide (CoolWanted s)) s := by
  cases ha : s.acstate with
  | false =>
    have hw : CoolWanted s ↔ s.localtemperature.Above (s.settemperatureHi + tempgap) := by
      simp [CoolWanted, ha]
    by_cases h : s.localtemperature.Above (s.settemperatureHi + tempgap) <;>
      simp [acControl, ha, hw, h]
  | true =>
    have hw : CoolWanted s ↔ ¬ s.localtemperature.AtMost (s.settemperatureHi : ℚ) := by
      simp [CoolWanted, ha]
    by_cases h : s.localtemperature.AtMost (s.settemperatureHi : ℚ) <;>
      simp [acControl, ha, hw, h]

theorem switchFurnace_relays (b : Bool) :
    (switchFurnace b s).relays =
      { s.relays with
        furnacestate := b
        fanstate := b
        writes := ⟨.fanSCR, b, s.tick⟩ :: ⟨.furnaceSCR, b, s.tick⟩ :: s.relays.writes } := rfl

theorem switchAc_relays (b : Bool) :
    (switchAc b s).relays =
      { s.relays with
        acstate := b
        fanstate := b
        writes := ⟨.fanSCR, b, s.tick⟩ :: ⟨.acSCR, b, s.tick⟩ :: s.relays.writes } := rfl

@[simp] theorem heaterControl_furnacestate :
    (heaterControl s).furnacestate = decide (HeatWanted s) := by
  rw [heaterControl_eq]
  split_ifs with h
  · exact h
  · rfl

@[simp] theorem heaterControl_acstate : (heaterControl s).acstate = s.acstate := by
  rw [heaterControl_eq]
  split_ifs <;> rfl

@[simp] theorem acControl_acstate : (acControl s).acstate = decide (CoolWanted s) := by
  rw [acControl_eq]
  split_ifs with h
  · exact h
  · rfl

@[simp] theorem acControl_furnacestate : (acControl s).furnacestate = s.furnacestate := by
  rw [acControl_eq]
  split_ifs <;> rfl

/-- The heater control changes nothing the AC control looks at. -/
@[simp] theorem coolWanted_heaterControl : CoolWanted (heaterControl s) ↔ CoolWanted s := by
  rw [heaterControl_eq]
  split_ifs <;> rfl

end Sections

/-- Every output shows its state variable. -/
structure Relays.Tracked (r : Relays) : Prop where
  furnace : level .furnaceSCR r.writes = r.furnacestate
  ac : level .acSCR r.writes = r.acstate
  fan : level .fanSCR r.writes = r.fanstate

theorem tracked_heaterControl {s : Stat} (h : s.relays.Tracked) :
    (heaterControl s).relays.Tracked := by
  rw [heaterControl_eq]
  split_ifs
  · exact h
  · rw [switchFurnace_relays]
    refine ⟨?_, ?_, level_cons_self ..⟩
    · rw [level_cons_of_ne (by decide), level_cons_self]
    · rw [level_cons_of_ne (by decide), level_cons_of_ne (by decide), h.ac]

theorem tracked_acControl {s : Stat} (h : s.relays.Tracked) :
    (acControl s).relays.Tracked := by
  rw [acControl_eq]
  split_ifs
  · exact h
  · rw [switchAc_relays]
    refine ⟨?_, ?_, level_cons_self ..⟩
    · rw [level_cons_of_ne (by decide), level_cons_of_ne (by decide), h.furnace]
    · rw [level_cons_of_ne (by decide), level_cons_self]

theorem tracked_loop (w : World) (s : Stat) (it : Iteration) (h : s.relays.Tracked) :
    (loop w s it).relays.Tracked := by
  rw [loop, finish_relays]
  exact tracked_acControl (tracked_heaterControl (by rwa [sense_relays]))

theorem setup_relays (eeprom : Eeprom) :
    (setup eeprom).relays =
      ⟨false, false, false,
        [⟨.acSCR, false, 0⟩, ⟨.fanSCR, false, 0⟩, ⟨.furnaceSCR, false, 0⟩]⟩ := rfl

theorem tracked_setup (eeprom : Eeprom) : (setup eeprom).relays.Tracked := by
  rw [setup_relays]
  exact ⟨by decide, by decide, by decide⟩

end Wyostat.ThermoCentral
