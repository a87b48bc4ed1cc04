import Wyostat.ThermoCentral.Feed
import Wyostat.Lib.Cell

/-! A reboot of the ThermoCentral sketch finds the set-points again, except where the buttons
moved the lower one since it was last stored or its cell could not hold it. -/
namespace Wyostat.ThermoCentral
open Machine Cell

/-- The globals go back to their initial values, the EEPROM is kept, `loadSettings()` runs. -/
def reboot (s : Stat) : Stat := loadSettings { eeprom := s.eeprom }

/-- Both set-points are found again after a reboot. -/
structure Survives (s : Stat) : Prop where
  lo : (reboot s).settemperatureLo = s.settemperatureLo
  hi : (reboot s).settemperatureHi = s.settemperatureHi

/-- What a cell gives back once a value has been stored in it. -/
def loaded (default v : ℤ) : ℤ :=
  if UInt8.ofInt v = 255 then default else (UInt8.ofInt v).toNat

/-- The value a feed stores, if it is not the one already held. -/
def edits (feed : Feed) (current : ℤ) (d : Data) : List (Edit ℤ) :=
  if d.feed = feed ∧ ¬ (cString d.value).length < 1 ∧
      Decimal.atol (cString d.value) ≠ current then
    [.stored (Decimal.atol (cString d.value))]
  else []

/-- The adjustments of the lower set-point by the buttons. -/
def presses (inc dec : Bool) (s : Stat) : List (Edit ℤ) :=
  (pressSteps inc dec s).map .adjusted

/-- What happens to the lower set-point in a round. -/
def Net.loEdits (n : Net) (r : Round) : List (Edit ℤ) :=
  outputs handle (fun s d => edits .setTempLo s.settemperatureLo d) n.stat (n.iteration r).data ++
    (if 0 < r.budget then presses r.inc r.dec n.stat else [])

/-- What happens to the upper set-point in a round. -/
def Net.hiEdits (n : Net) (r : Round) : List (Edit ℤ) :=
  outputs handle (fun s d => edits .setTempHi s.settemperatureHi d) n.stat (n.iteration r).data

/-- What has happened to the lower set-point in a run from an erased EEPROM. -/
def loHistory (w : World) (rs : List Round) : List (Edit ℤ) :=
  outputs (Net.step w) Net.loEdits (.boot Eeprom.erased) rs

def hiHistory (w : World) (rs : List Round) : List (Edit ℤ) :=
  outputs (Net.step w) Net.hiEdits (.boot Eeprom.erased) rs

section Cells

/-- The set-points with their cells, and the levels at which the buttons were last seen. -/
structure Panel where
  lo : Backed ℤ UInt8
  hi : Backed ℤ UInt8
  lastInc : Bool
  lastDec : Bool

def Stat.panel (s : Stat) : Panel :=
  ⟨⟨s.settemperatureLo, s.eeprom setTempLoAddr⟩, ⟨s.settemperatureHi, s.eeprom setTempHiAddr⟩,
    s.lastInc, s.lastDec⟩

theorem handleSetTemp_panel {value : Stat → ℤ} {put : ℤ → Stat → Stat} {addr : ℕ}
    {g : ℤ → Panel → Panel}
    (hput : ∀ n s, (put n (eepromWrite addr n s)).panel = g n s.panel) (data : List Char)
    (s : Stat) :
    (handleSetTemp value put addr data s).panel =
      if ¬ data.length < 1 ∧ Decimal.atol data ≠ value s then g (Decimal.atol data) s.panel
      else s.panel := by
  unfold handleSetTemp
  by_cases hlen : data.length < 1
  · rw [if_pos hlen, if_neg fun h => h.1 hlen]
  · by_cases hne : Decimal.atol data ≠ value s
    · rw [if_neg hlen, if_pos hne, if_pos ⟨hlen, hne⟩, hput]
    · rw [if_neg hlen, if_neg hne, if_neg fun h => hne h.2]

theorem handleSetTempLo_panel (data : List Char) (s : Stat) :
    (handleSetTempLo data s).panel =
      if ¬ data.length < 1 ∧ Decimal.atol data ≠ s.settemperatureLo then
        { s.panel with lo := ⟨Decimal.atol data, UInt8.ofInt (Decimal.atol data)⟩ }
      else s.panel :=
  handleSetTemp_panel (g := fun n p => { p with lo := ⟨n, UInt8.ofInt n⟩ })
    (fun n s => by simp [Stat.panel, Eeprom.write, setTempLoAddr, setTempHiAddr]) data s

theorem handleSetTempHi_panel (data : List Char) (s : Stat) :
    (handleSetTempHi data s).panel =
      if ¬ data.length < 1 ∧ Decimal.atol data ≠ s.settemperatureHi then
        { s.panel with hi := ⟨Decimal.atol data, UInt8.ofInt (Decimal.atol data)⟩ }
      else s.panel :=
  handleSetTemp_panel (g := fun n p => { p with hi := ⟨n, UInt8.ofInt n⟩ })
    (fun n s => by simp [Stat.panel, Eeprom.write, setTempLoAddr, setTempHiAddr]) data s

theorem handle_panel (s : Stat) (d : Data) :
    (handle s d).panel =
      { s.panel with
        lo := run (step UInt8.ofInt) s.panel.lo (edits .setTempLo s.settemperatureLo d)
        hi := run (step UInt8.ofInt) s.panel.hi (edits .setTempHi s.settemperatureHi d) } := by
  unfold handle edits
  cases d.feed with
  | livingroomtemp =>
    simp only [handleLivingroom, reduceCtorEq, false_and, if_false]
    split_ifs <;> rfl
  | setTempLo =>
    simp only [handleSetTempLo_panel, true_and, reduceCtorEq, false_and, if_false]
    split_ifs <;> rfl
  | setTempHi =>
    simp only [handleSetTempHi_panel, true_and, reduceCtorEq, false_and, if_false]
    split_ifs <;> rfl
  | furnaceState => simp
  | acState => simp

theorem ioRun_panel (data : List Data) (s : Stat) :
    (ioRun data s).panel =
      { s.panel with
        lo := run (step UInt8.ofInt) s.panel.lo
          (outputs handle (fun s d => edits .setTempLo s.settemperatureLo d) s data)
        hi := run (step UInt8.ofInt) s.panel.hi
          (outputs handle (fun s d => edits .setTempHi s.settemperatureHi d) s data) } := by
  induction data generalizing s with
  | nil => rfl
  | cons d data ih =>
    change (ioRun data (handle s d)).panel = _
    rw [ih, handle_panel, outputs, outputs, run_append, run_append]

theorem record_panel (w : World) (s : Stat) : (record w s).panel = s.panel := by
  unfold record
  split_ifs <;> rfl

theorem sampling_panel (w : World) (reading : Reading ℚ) (s : Stat) :
    (sampling w reading s).panel = s.panel := by
  unfold sampling
  split_ifs
  · exact record_panel w _
  · rfl

theorem heaterControl_panel (s : Stat) : (heaterControl s).panel = s.panel := by
  unfold heaterControl
  split_ifs <;> rfl

theorem acControl_panel (s : Stat) : (acControl s).panel = s.panel := by
  unfold acControl
  split_ifs <;> rfl

/-- The buttons adjust the lower set-point and store nothing. -/
theorem handleButtons_panel (inc dec : Bool) (s : Stat) :
    (handleButtons inc dec s).panel =
      { s.panel with
        lo := run (step UInt8.ofInt) s.panel.lo (presses inc dec s)
        lastInc := inc
        lastDec := dec } := by
  have hadjust (ds : List ℤ) (t : Stat) : (ds.foldl Stat.adjust t).panel =
      { t.panel with lo := run (step UInt8.ofInt) t.panel.lo (ds.map .adjusted) } := by
    induction ds generalizing t with
    | nil => rfl
    | cons d ds ih => exact ih (t.adjust d)
  have hlast (t : Stat) : ((t.setLastInc inc).setLastDec dec).panel =
      { t.panel with lastInc := inc, lastDec := dec } := rfl
  rw [handleButtons_eq, hlast, hadjust, presses]

theorem loop_panel (w : World) (s : Stat) (it : Iteration) :
    (loop w s it).panel.lo = run (step UInt8.ofInt) s.panel.lo
        (outputs handle (fun s d => edits .setTempLo s.settemperatureLo d) s it.data ++
          if 0 < it.budget then presses it.inc it.dec s else []) ∧
      (loop w s it).panel.hi = run (step UInt8.ofInt) s.panel.hi
        (outputs handle (fun s d => edits .setTempHi s.settemperatureHi d) s it.data) := by
  have hcontrol : (acControl (heaterControl (sense w it s))).panel = (ioRun it.data s).panel := by
    rw [acControl_panel, heaterControl_panel, sense, sampling_panel]
  rw [ioRun_panel] at hcontrol
  have hinc : (acControl (heaterControl (sense w it s))).lastInc = s.lastInc :=
    congrArg Panel.lastInc hcontrol
  have hdec : (acControl (heaterControl (sense w it s))).lastDec = s.lastDec :=
    congrArg Panel.lastDec hcontrol
  rw [loop, finish, run_append]
  split_ifs
  · rw [handleButtons_panel, hcontrol, presses, pressSteps, hinc, hdec]
    exact ⟨rfl, rfl⟩
  · rw [hcontrol]
    exact ⟨rfl, rfl⟩

end Cells

section Loading

theorem toNat_ofInt (n : ℤ) : ((UInt8.ofInt n).toNat : ℤ) = n % 256 := by
  simp only [UInt8.ofInt, UInt8.toNat_ofNat']
  omega

theorem loaded_eq (default v : ℤ) :
    loaded default v = if v % 256 = 255 then default else v % 256 := by
  have herased : UInt8.ofInt v = 255 ↔ v % 256 = 255 := by
    rw [← UInt8.toNat_inj, ← toNat_ofInt v]
    exact Int.natCast_inj.symm
  simp only [loaded, herased, toNat_ofInt]

theorem loaded_eq_self_iff {default v : ℤ} (hlo : 0 ≤ default) (hhi : default < 255) :
    loaded default v = v ↔ 0 ≤ v ∧ v < 255 := by
  rw [loaded_eq]
  split_ifs <;> omega

theorem loadSetting_eq {e : Eeprom} {addr : ℕ} {default : ℤ} {v : Option ℤ}
    (h : e addr = (v.map UInt8.ofInt).getD 255) :
    loadSetting e addr default = v.elim default (loaded default) := by
  rw [loadSetting, h]
  cases v <;> rfl

end Loading

section Runs
variable (w : World) (rs : List Round)

/-- The lower set-point after a run is the one stored last and what the buttons added since;
its cell still holds the one stored last. -/
theorem lo_run :
    (run (Net.step w) (.boot Eeprom.erased) rs).stat.panel.lo =
      ⟨(lastStored (loHistory w rs)).getD 55 + drift (loHistory w rs),
        ((lastStored (loHistory w rs)).map UInt8.ofInt).getD 255⟩ := by
  rw [← run_step UInt8.ofInt ⟨55, 255⟩]
  have hstep (n : Net) (r : Round) : (n.step w r).stat.panel.lo =
      run (step UInt8.ofInt) n.stat.panel.lo (n.loEdits r) :=
    (loop_panel w n.stat (n.iteration r)).1
  exact run_simulates_of_step (fun n => n.stat.panel.lo) Net.loEdits hstep _ rs

theorem hi_run :
    (run (Net.step w) (.boot Eeprom.erased) rs).stat.panel.hi =
      ⟨(lastStored (hiHistory w rs)).getD 80 + drift (hiHistory w rs),
        ((lastStored (hiHistory w rs)).map UInt8.ofInt).getD 255⟩ := by
  rw [← run_step UInt8.ofInt ⟨80, 255⟩]
  have hstep (n : Net) (r : Round) : (n.step w r).stat.panel.hi =
      run (step UInt8.ofInt) n.stat.panel.hi (n.hiEdits r) :=
    (loop_panel w n.stat (n.iteration r)).2
  exact run_simulates_of_step (fun n => n.stat.panel.hi) Net.hiEdits hstep _ rs

theorem drift_hiHistory : drift (hiHistory w rs) = 0 := by
  apply drift_of_stored
  intro e he
  obtain ⟨n, r, he⟩ := mem_outputs he
  obtain ⟨s, d, he⟩ := mem_outputs he
  rw [edits] at he
  split_ifs at he
  · rw [List.mem_singleton.mp he]
    rfl
  · cases he

end Runs

/-- After any run from an erased EEPROM, whatever is still on its way, a reboot restores both
set-points exactly when the buttons have moved the lower one, since it was stored last, by what
its cell failed to hold of it, and the upper one, if it was ever stored, fits its cell. -/
theorem setpoints_survive_reboot_iff (w : World) (rs : List Round) :
    Survives (run (Net.step w) (.boot Eeprom.erased) rs).stat ↔
      drift (loHistory w rs) =
          ((lastStored (loHistory w rs)).elim 0 fun v => loaded defaultSetTempLo v - v) ∧
        ∀ v ∈ lastStored (hiHistory w rs), 0 ≤ v ∧ v < 255 := by
  have hlo := lo_run w rs
  have hhi := hi_run w rs
  rw [drift_hiHistory] at hhi
  generalize (run (Net.step w) (.boot Eeprom.erased) rs).stat = s at *
  generalize loHistory w rs = es at *
  generalize hiHistory w rs = hs at *
  have hlovalue : s.settemperatureLo = (lastStored es).getD 55 + drift es :=
    congrArg Backed.value hlo
  have hhivalue : s.settemperatureHi = (lastStored hs).getD 80 + 0 := congrArg Backed.value hhi
  have hloload : (reboot s).settemperatureLo =
      (lastStored es).elim defaultSetTempLo (loaded defaultSetTempLo) :=
    loadSetting_eq (congrArg Backed.cell hlo)
  have hhiload : (reboot s).settemperatureHi =
      (lastStored hs).elim defaultSetTempHi (loaded defaultSetTempHi) :=
    loadSetting_eq (congrArg Backed.cell hhi)
  have hsplit : Survives s ↔ (reboot s).settemperatureLo = s.settemperatureLo ∧
      (reboot s).settemperatureHi = s.settemperatureHi :=
    ⟨fun h => ⟨h.lo, h.hi⟩, fun h => ⟨h.1, h.2⟩⟩
  rw [hsplit, hloload, hhiload, hlovalue, hhivalue]
  apply and_congr
  · cases lastStored es with
    | none =>
      simp only [Option.elim_none, Option.getD_none, defaultSetTempLo]
      omega
    | some v =>
      simp only [Option.elim_some, Option.getD_some]
      omega
  · cases lastStored hs with
    | none => simp [defaultSetTempHi]
    | some v =>
      rw [Option.elim_some, Option.getD_some, add_zero,
        loaded_eq_self_iff (by decide) (by decide)]
      simp

/-- One press of the button, whose saved value then returns to the device. -/
def pressRun : List Round :=
  [⟨1, [], .num 70, true, true⟩, ⟨1, [], .num 70, false, true⟩, ⟨1, [none], .num 70, true, true⟩]

/-- The returned value is the one already held and is not stored: after a reboot the press is
forgotten. -/
theorem pressRun_forgotten :
    (run (Net.step everySecond) (.boot Eeprom.erased) pressRun).returning = [] ∧
      saved (run (Net.step everySecond) (.boot Eeprom.erased) pressRun).stat.log =
        [⟨.setTempLo, ['5', '6']⟩] ∧
      ¬ Survives (run (Net.step everySecond) (.boot Eeprom.erased) pressRun).stat := by
  refine ⟨by decide +kernel, by decide +kernel, ?_⟩
  intro h
  have hlo := h.lo
  revert hlo
  decide +kernel

end Wyostat.ThermoCentral
