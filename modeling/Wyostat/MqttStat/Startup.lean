import Wyostat.MqttStat.Interlock
import Mathlib.Algebra.Order.Ring.Cast
import Mathlib.Tactic.Linarith

/-! The first temperatures of the mqtt_stat sketch: the filter starts at 0 degrees, whatever the
sensor reports. -/
namespace Wyostat.MqttStat
open Machine Output

/-- Neither furnace nor AC was ever switched on. -/
def NeverOn (s : Stat) : Prop :=
  ∀ x ∈ writes s.log, x.pin = .furnaceSCR ∨ x.pin = .acSCR → x.level = false

instance (s : Stat) : Decidable (NeverOn s) := inferInstanceAs (Decidable (∀ x ∈ writes s.log, _))

/-- A number within the set-points. -/
def Within (lo hi : ℤ) (x : Reading ℚ) : Prop := x.AtLeast lo ∧ x.AtMost hi

instance (lo hi : ℤ) (x : Reading ℚ) : Decidable (Within lo hi x) :=
  inferInstanceAs (Decidable (_ ∧ _))

/-- The device has not switched anything on and its temperature calls for nothing. -/
structure Idle (lo hi : ℤ) (s : Stat) : Prop where
  never : NeverOn s
  furnace : s.furnaceState = false
  ac : s.acState = false
  temperature : Within lo hi s.localtemperature

section Frame
variable (w : World) (s : Stat)

theorem mqttCallback_localtemperature (m : Msg) :
    (mqttCallback w s m).localtemperature = s.localtemperature :=
  mqttCallback_frame (f := Stat.localtemperature) w s (fun _ _ => rfl) (fun _ _ => rfl)
    (fun _ _ _ => rfl) (fun _ _ _ => rfl) m

theorem receive_localtemperature (it : Iteration) :
    (receive w it s).localtemperature = (sample it.reading s).localtemperature := by
  apply receive_preserves
    (P := fun t => t.localtemperature = (sample it.reading s).localtemperature)
  · intro t h
    exact h
  · intro t h
    exact h
  · intro t m h
    exact (mqttCallback_localtemperature w t m).trans h
  · rfl

theorem setFan_localtemperature (b : Bool) :
    (setFan w b s).localtemperature = s.localtemperature := by
  unfold setFan
  split_ifs <;> rfl

theorem timedPublish_localtemperature (temp : ℤ) (now : BitVec 32) :
    (timedPublish w temp now s).localtemperature = s.localtemperature := by
  unfold timedPublish
  dsimp only
  split_ifs <;> rfl

end Frame

theorem within_sample {lo hi : ℤ} {s : Stat} {r : Reading ℚ}
    (hs : Within lo hi s.localtemperature) (hr : Within lo hi r) :
    Within lo hi (sample r s).localtemperature := by
  unfold Within sample at *
  cases hx : s.localtemperature with
  | nan => simp [hx] at hs
  | num x =>
    cases r with
    | nan => simp at hr
    | num r =>
      simp only [hx, Reading.atLeast_num, Reading.atMost_num] at hs hr
      simp only [Stat.setLocaltemperature_localtemperature, Reading.map₂_num,
        Reading.atLeast_num, Reading.atMost_num]
      constructor <;> linarith

section Control
variable {w : World} {s : Stat}

theorem control_idle (hf : s.furnaceState = false) (ha : s.acState = false)
    (hlo : ¬ s.localtemperature.Below s.settemplo) (hhi : ¬ s.localtemperature.Above s.settemphi) :
    control w s = setFan w false s := by
  have hac : setAc w false s = s := by simp [setAc, ha]
  have hfurnace : setFurnace w false s = s := by simp [setFurnace, hf]
  rw [control, if_neg hlo, if_neg hhi, hac, hfurnace]

theorem neverOn_setFan (b : Bool) (h : NeverOn s) : NeverOn (setFan w b s) := by
  intro x hx hpin
  rcases (sets_setFan w b s).writes with ⟨hsame, -⟩ | ⟨tick, hone⟩
  · rw [hsame] at hx
    exact h x hx hpin
  · rw [hone] at hx
    rcases List.mem_cons.mp hx with rfl | hx
    · rcases hpin with hpin | hpin <;> cases hpin
    · exact h x hx hpin

theorem not_neverOn_of_sets {pin : Pin} {fan : Bool} {t : Stat}
    (hpin : pin = .furnaceSCR ∨ pin = .acSCR) (hset : Sets pin true s t)
    (hoff : s.relay pin = false) : ¬ NeverOn (setFan w fan t) := by
  obtain ⟨tick, hone⟩ : ∃ tick, writes t.log = ⟨pin, true, tick⟩ :: writes s.log := by
    rcases hset.writes with ⟨-, hon⟩ | hone
    · rw [hoff] at hon
      cases hon
    · exact hone
  have hmem : (⟨pin, true, tick⟩ : Output.Write Pin) ∈ writes (setFan w fan t).log := by
    rcases (sets_setFan w fan t).writes with ⟨hsame, -⟩ | ⟨_, hmore⟩
    · rw [hsame, hone]
      exact List.mem_cons_self
    · rw [hmore, hone]
      exact List.mem_cons_of_mem _ List.mem_cons_self
  intro h
  cases h _ hmem hpin

theorem not_neverOn_control (hf : s.furnaceState = false) (ha : s.acState = false)
    (hout : s.localtemperature.Below s.settemplo ∨ s.localtemperature.Above s.settemphi) :
    ¬ NeverOn (control w s) := by
  have hac : setAc w false s = s := by simp [setAc, ha]
  have hfurnace : setFurnace w false s = s := by simp [setFurnace, hf]
  unfold control
  split_ifs with hlo hhi
  · rw [hac]
    exact not_neverOn_of_sets (.inl rfl) (sets_setFurnace w true s) hf
  · rw [hfurnace]
    exact not_neverOn_of_sets (.inr rfl) (sets_setAc w true s) ha
  · rcases hout with h | h
    · exact absurd h hlo
    · exact absurd h hhi

end Control

section Iterations
variable {w : World} {lo hi : ℤ} {s : Stat} {it : Iteration}

/-- What the control section of an iteration finds. -/
structure Starts (w : World) (lo hi : ℤ) (s : Stat) (it : Iteration) : Prop where
  never : NeverOn (receive w it s)
  furnace : (receive w it s).furnaceState = false
  ac : (receive w it s).acState = false
  lo : (receive w it s).settemplo = lo
  hi : (receive w it s).settemphi = hi
  temperature : (receive w it s).localtemperature = (sample it.reading s).localtemperature

theorem neverOn_of_relays {s t : Stat} (h : NeverOn s) (heq : t.relays = s.relays) :
    NeverOn t := by
  have hwrites : writes t.log = writes s.log := congrArg Prod.snd heq
  unfold NeverOn
  rw [hwrites]
  exact h

theorem starts_of_off (hn : NeverOn s) (hf : s.furnaceState = false) (ha : s.acState = false)
    (hset : (loop w s it).settings = (lo, hi)) : Starts w lo hi s it := by
  have hrelays := receive_relays w s it
  have hrelay : (receive w it s).relay = s.relay := congrArg Prod.fst hrelays
  rw [loop, timedPublish_settings, control_settings] at hset
  obtain ⟨hlo, hhi⟩ := Prod.mk.inj hset
  exact ⟨neverOn_of_relays hn hrelays, (congrFun hrelay .furnaceSCR).trans hf,
    (congrFun hrelay .acSCR).trans ha, hlo, hhi, receive_localtemperature w s it⟩

theorem loop_relays (w : World) (s : Stat) (it : Iteration) :
    (loop w s it).relays = (control w (receive w it s)).relays := timedPublish_relays ..

theorem Within.not_below {x : Reading ℚ} (h : Within lo hi x) : ¬ x.Below lo := by
  cases x with
  | nan => exact id
  | num a => exact not_lt.mpr h.1

theorem Within.not_above {x : Reading ℚ} (h : Within lo hi x) : ¬ x.Above hi := by
  cases x with
  | nan => exact id
  | num a => exact not_lt.mpr h.2

theorem idle_loop (h : Starts w lo hi s it)
    (hx : Within lo hi (sample it.reading s).localtemperature) : Idle lo hi (loop w s it) := by
  rw [← h.temperature] at hx
  have hlo := hx.not_below
  have hhi := hx.not_above
  rw [← h.lo] at hlo
  rw [← h.hi] at hhi
  have hcontrol := control_idle (w := w) h.furnace h.ac hlo hhi
  have hrelays := loop_relays w s it
  rw [hcontrol] at hrelays
  have hrelay : (loop w s it).relay = Function.update (receive w it s).relay .fanSCR false :=
    (congrArg Prod.fst hrelays).trans (sets_setFan w false (receive w it s)).relay
  constructor
  · exact neverOn_of_relays (neverOn_setFan false h.never) hrelays
  · exact (congrFun hrelay .furnaceSCR).trans h.furnace
  · exact (congrFun hrelay .acSCR).trans h.ac
  · rw [loop, timedPublish_localtemperature, hcontrol, setFan_localtemperature]
    exact hx

theorem not_neverOn_loop (h : Starts w lo hi s it)
    (hx : (sample it.reading s).localtemperature.Below lo ∨
      (sample it.reading s).localtemperature.Above hi) : ¬ NeverOn (loop w s it) := by
  rw [← h.temperature, ← h.lo, ← h.hi] at hx
  intro hn
  exact not_neverOn_control h.furnace h.ac hx (neverOn_of_relays hn (loop_relays w s it).symm)

theorem idle_run {its : List Iteration} (hs : Idle lo hi s)
    (hconst : Always (loop w) (fun s => s.settings = (lo, hi)) s its)
    (hreadings : ∀ it ∈ its, Within lo hi it.reading) : Always (loop w) (Idle lo hi) s its := by
  induction its generalizing s with
  | nil => exact hs
  | cons it its ih =>
    have hstarts := starts_of_off hs.never hs.furnace hs.ac hconst.2.head
    have hreading := hreadings it List.mem_cons_self
    have hnext := idle_loop hstarts (within_sample hs.temperature hreading)
    exact ⟨hs, ih hnext hconst.2 fun i hi => hreadings i (List.mem_cons_of_mem it hi)⟩

end Iterations

/-- The device at boot, with the set-points it has loaded. -/
def boot (eeprom : Eeprom) (lo hi : ℤ) : Stat :=
  ((setup eeprom).setSettemplo lo).setSettemphi hi

/-- The first filtered temperature is a hundredth of the first reading. -/
theorem sample_boot (eeprom : Eeprom) (lo hi : ℤ) (r : ℚ) :
    (sample (.num r) (boot eeprom lo hi)).localtemperature = .num (1 / 100 * r) := by
  change Reading.num (99 / 100 * 0 + 1 / 100 * r) = _
  rw [mul_zero, zero_add]

theorem within_hundredth {lo hi : ℤ} {r : ℚ} :
    Within lo hi (.num (1 / 100 * r)) ↔ Within (100 * lo) (100 * hi) (.num r) := by
  simp only [Within, Reading.atLeast_num, Reading.atMost_num, Int.cast_mul, Int.cast_ofNat]
  constructor
  · rintro ⟨hlo, hhi⟩
    constructor <;> linarith
  · rintro ⟨hlo, hhi⟩
    constructor <;> linarith

/-- In every run from boot with constant set-points and all readings within them, neither
furnace nor AC is ever switched on exactly when even a hundredth of the first reading lies
within them. -/
theorem never_on_iff (w : World) (eeprom : Eeprom) {lo hi : ℤ} {its : List Iteration}
    (hconst : Always (loop w) (fun s => s.settings = (lo, hi)) (boot eeprom lo hi) its)
    (hreadings : ∀ it ∈ its, Within lo hi it.reading) :
    Always (loop w) NeverOn (boot eeprom lo hi) its ↔
      ∀ it ∈ its.head?, Within (100 * lo) (100 * hi) it.reading := by
  have hnever : NeverOn (boot eeprom lo hi) := fun _ hx => nomatch hx
  cases its with
  | nil =>
    constructor
    · intro _ it hit
      cases hit
    · intro _
      exact hnever
  | cons it its =>
    have hstarts : Starts w lo hi (boot eeprom lo hi) it :=
      starts_of_off hnever rfl rfl hconst.2.head
    have hreading := hreadings it List.mem_cons_self
    obtain ⟨r, hr⟩ : ∃ r, it.reading = .num r := by
      cases hr : it.reading with
      | nan =>
        rw [hr] at hreading
        cases hreading.1
      | num r => exact ⟨r, rfl⟩
    have hsample := sample_boot eeprom lo hi r
    have hhead : (∀ i ∈ (it :: its).head?, Within (100 * lo) (100 * hi) i.reading) ↔
        Within lo hi (.num (1 / 100 * r)) := by
      rw [within_hundredth, ← hr]
      simp
    rw [← hr] at hsample
    rw [hhead, ← hsample]
    constructor
    · intro h
      by_contra hnot
      apply not_neverOn_loop hstarts _ h.2.head
      rw [hsample] at hnot ⊢
      simpa [Within, imp_iff_not_or] using hnot
    · intro hx
      have hidle := idle_loop hstarts hx
      refine ⟨hnever, ?_⟩
      have hrest := idle_run hidle hconst.2 fun i hi =>
        hreadings i (List.mem_cons_of_mem it hi)
      exact hrest.mono fun _ h => h.never

section PowerUp

def onlineWorld : World := ⟨fun _ => true, 0⟩

/-- Two minutes at a constant 60 degrees. -/
def steadyRun : List Iteration := [⟨.num 60, none, 0⟩, ⟨.num 60, none, 60000⟩]

theorem never_on_iff_steadyRun :
    Always (loop onlineWorld) NeverOn (boot Eeprom.erased 50 80) steadyRun ↔
      ∀ it ∈ steadyRun.head?, Within (100 * 50) (100 * 80) it.reading :=
  never_on_iff onlineWorld Eeprom.erased (by decide +kernel) (by decide +kernel)

/-- At 60 degrees, with set-points 50 and 80, the furnace starts: the filter says 0.6. -/
theorem steadyRun_switches_on :
    boot Eeprom.erased 50 80 = setup Eeprom.erased ∧
      Always (loop onlineWorld) (fun s => s.settings = (50, 80)) (setup Eeprom.erased) steadyRun ∧
      (∀ it ∈ steadyRun, Within 50 80 it.reading) ∧
      ¬ Always (loop onlineWorld) NeverOn (setup Eeprom.erased) steadyRun :=
  ⟨rfl, by decide +kernel, by decide +kernel, by decide +kernel⟩

end PowerUp

end Wyostat.MqttStat
