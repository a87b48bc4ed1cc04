import Wyostat.OpenThermostat.Setters
import Wyostat.Lib.Throttle

/-! The periodic temperature report. The temperature reported last is kept as an integer, so a
temperature between two degrees never equals it. -/
namespace Wyostat.OpenThermostat
open Machine Throttle

/-- What one iteration meets, with the milliseconds that have passed since power-up. -/
structure Moment where
  time : ℕ
  localtemp : Reading ℚ
  msg : Option Msg

/-- `millis()` keeps the lowest 32 bits. -/
def Moment.iteration (p : Moment) : Iteration :=
  ⟨p.localtemp, p.msg, BitVec.ofNat 32 p.time⟩

/-- The report that `timedPublish` makes of the temperature `temp`, if it makes one. -/
def timedReport (temp : Reading ℚ) (time : ℕ) (s : Stat) : List (Sample (Reading ℚ)) :=
  if Due 2000 s.lastMsg time ∧ temp ≠ .num s.lastTemp then [⟨time, temp⟩] else []

/-- Its message. -/
def reportMsg (r : Sample (Reading ℚ)) : Msg := ⟨"wyostat.temp", floatText r.value⟩

/-- The device, and the report it made last. -/
structure Reporting where
  stat : Stat
  last : Option (Sample (Reading ℚ))

/-- The report of an iteration: its timed section comes last, but `temp` is what the iteration
found in `localtemp`. -/
def Reporting.reports (w : World) (x : Reporting) (p : Moment) : List (Sample (Reading ℚ)) :=
  timedReport x.stat.localtemp p.time (control w (receive w p.iteration x.stat))

def Reporting.step (w : World) (x : Reporting) (p : Moment) : Reporting :=
  ⟨iterate w x.stat p.iteration, (x.reports w p).head?.or x.last⟩

/-- The timed section is due, and finds the temperature that it reported last, which is not a
whole number of degrees. -/
def Reporting.Repeats (x : Reporting) (p : Moment) : Prop :=
  Due 2000 x.stat.lastMsg p.time ∧ (∃ r ∈ x.last, x.stat.localtemp = r.value) ∧
    ∀ n : ℤ, x.stat.localtemp ≠ .num n

section Publications
variable {w : World} {s : Stat}

theorem timedPublish_eq (temp : Reading ℚ) (time : ℕ) :
    timedPublish w temp (BitVec.ofNat 32 time) s =
      if Due 2000 s.lastMsg time then
        if temp ≠ .num s.lastTemp then
          publish w "wyostat.temp" (floatText temp)
            ((s.setLastMsg (BitVec.ofNat 32 time)).setLastTemp (truncate w.intOfNan temp))
        else s.setLastMsg (BitVec.ofNat 32 time)
      else s := rfl

/-- The timed section publishes its report and nothing else. -/
theorem published_timedPublish (hconnected : s.connected = true) (hlink : w.link s.tick = true)
    (temp : Reading ℚ) (time : ℕ) :
    published (timedPublish w temp (BitVec.ofNat 32 time) s).log =
      published s.log ++ (timedReport temp time s).map reportMsg := by
  rw [timedPublish_eq, timedReport]
  by_cases hdue : Due 2000 s.lastMsg time
  · by_cases hne : temp ≠ .num s.lastTemp
    · rw [if_pos hdue, if_pos hne, if_pos ⟨hdue, hne⟩, publish_log]
      simp [hconnected, hlink, reportMsg]
    · rw [if_pos hdue, if_neg hne, if_neg fun h => hne h.2]
      simp
  · rw [if_neg hdue, if_neg fun h => hdue h.1]
    simp

end Publications

/-- What the timed section remembers. -/
def Stat.timer (s : Stat) : BitVec 32 × ℤ := (s.lastMsg, s.lastTemp)

section Timer
variable (w : World) (s : Stat)

@[simp] theorem tock_timer : s.tock.timer = s.timer := rfl
@[simp] theorem setFurnaceState_timer (b : Bool) : (s.setFurnaceState b).timer = s.timer := rfl
@[simp] theorem setAcState_timer (b : Bool) : (s.setAcState b).timer = s.timer := rfl
@[simp] theorem setFanState_timer (b : Bool) : (s.setFanState b).timer = s.timer := rfl
@[simp] theorem setConnected_timer (b : Bool) : (s.setConnected b).timer = s.timer := rfl
@[simp] theorem draw_timer (d : Draw) : (draw d s).timer = s.timer := rfl

@[simp] theorem setLastFurnaceStateChange_timer (t : UInt32) :
    (s.setLastFurnaceStateChange t).timer = s.timer := rfl

@[simp] theorem digitalWrite_timer (pin : Pin) (level : Bool) :
    (digitalWrite pin level s).timer = s.timer := rfl

@[simp] theorem publish_timer (topic : String) (payload : List Char) :
    (publish w topic payload s).timer = s.timer := rfl

@[simp] theorem displayTemp_timer : (displayTemp w s).timer = s.timer := by simp [displayTemp]

@[simp] theorem publishHvacState_timer : (publishHvacState w s).timer = s.timer := by
  simp [publishHvacState, publishBool, publishInt]

@[simp] theorem drawIcon_timer (icon : Option Icon) : (drawIcon icon s).timer = s.timer := by
  cases icon <;> simp [drawIcon]

theorem setFurnace_timer (b : Bool) : (setFurnace w b s).timer = s.timer := by
  unfold setFurnace
  split_ifs <;> simp [publishOffOn]

theorem setAc_timer (b : Bool) : (setAc w b s).timer = s.timer := by
  unfold setAc
  split_ifs <;> simp [publishOffOn]

theorem setFan_timer (b : Bool) : (setFan w b s).timer = s.timer := by
  unfold setFan
  split_ifs <;> simp

theorem control_timer : (control w s).timer = s.timer :=
  control_preserves (P := fun t => t.timer = s.timer) (fun _ h => h)
    (fun b t h => (setFurnace_timer w t b).trans h) (fun b t h => (setAc_timer w t b).trans h)
    (fun b t h => (setFan_timer w t b).trans h) rfl

theorem mqttCallback_timer (m : Msg) : (mqttCallback w m s).timer = s.timer :=
  mqttCallback_frame w s (fun _ => rfl) (fun _ _ _ => rfl) (fun _ _ => rfl) (fun _ _ _ => rfl)
    (fun _ _ => rfl) (fun _ _ => rfl) (fun _ _ => rfl) m

theorem receive_timer (it : Iteration) : (receive w it s).timer = s.timer :=
  receive_preserves (P := fun t => t.timer = s.timer) (fun _ h => h) (fun _ h => h)
    (fun t m h => (mqttCallback_timer w t m).trans h) rfl

theorem controlled_timer (it : Iteration) : (control w (receive w it s)).timer = s.timer :=
  (control_timer w _).trans (receive_timer w s it)

theorem setup_timer (sensor : Reading ℚ) (eeprom : Eeprom) (rounds : ℕ) :
    (setup w sensor eeprom rounds).timer = (0, 0) := by
  apply mqttConnect_preserves (P := fun t => t.timer = (0, 0))
  · intro t h
    simpa [announce, publishInt] using h
  · simp only [testIcons, setupDisplay, draw_timer, displayTemp_timer]
    rfl

end Timer

section Reports
variable {w : World}

/-- The device keeps whole degrees of what it reports. -/
def Stat.reporter (s : Stat) (last : Option (Sample (Reading ℚ))) : Reporter 32 (Reading ℚ) ℤ :=
  ⟨s.lastMsg, s.lastTemp, last⟩

/-- How it compares what it has kept with a temperature. -/
def widen (n : ℤ) : Reading ℚ := .num n

theorem reporter_congr {s t : Stat} (h : t.timer = s.timer)
    (last : Option (Sample (Reading ℚ))) : t.reporter last = s.reporter last := by
  rw [Stat.timer, Stat.timer, Prod.mk.injEq] at h
  rw [Stat.reporter, Stat.reporter, h.1, h.2]

theorem timedReport_eq (temp : Reading ℚ) (time : ℕ) (s : Stat)
    (last : Option (Sample (Reading ℚ))) :
    timedReport temp time s = report 2000 widen (s.reporter last) ⟨time, temp⟩ := rfl

theorem timedPublish_reporter (temp : Reading ℚ) (time : ℕ) (s : Stat)
    (last : Option (Sample (Reading ℚ))) :
    (timedPublish w temp (BitVec.ofNat 32 time) s).reporter
        ((timedReport temp time s).head?.or last) =
      Throttle.step 2000 (truncate w.intOfNan) widen (s.reporter last) ⟨time, temp⟩ := by
  rw [timedPublish_eq, timedReport]
  by_cases hdue : Due 2000 s.lastMsg time
  · have hdue' : Due 2000 (s.reporter last).since time := hdue
    by_cases hne : temp ≠ .num s.lastTemp
    · have hne' : temp ≠ widen (s.reporter last).kept := hne
      rw [if_pos hdue, if_pos hne, if_pos ⟨hdue, hne⟩, Throttle.step, if_pos hdue', if_pos hne']
      rfl
    · have hne' : ¬ temp ≠ widen (s.reporter last).kept := hne
      rw [if_pos hdue, if_neg hne, if_neg fun h => hne h.2, Throttle.step, if_pos hdue',
        if_neg hne']
      rfl
  · have hdue' : ¬ Due 2000 (s.reporter last).since time := hdue
    rw [if_neg hdue, if_neg fun h => hdue h.1, Throttle.step, if_neg hdue']
    rfl

/-- The temperature that the timed section of an iteration looks at. -/
def Reporting.sample (x : Reporting) (p : Moment) : Sample (Reading ℚ) := ⟨p.time, x.stat.localtemp⟩

def Reporting.reporter (x : Reporting) : Reporter 32 (Reading ℚ) ℤ := x.stat.reporter x.last

theorem reporting_reports_eq (x : Reporting) (p : Moment) :
    x.reports w p = report 2000 widen x.reporter (x.sample p) := by
  rw [Reporting.reports, timedReport_eq _ _ _ x.last, reporter_congr (controlled_timer w _ _)]
  rfl

/-- The iterations of the device are the steps of a reporter that looks at their temperatures. -/
theorem reporting_reporter_step (x : Reporting) (p : Moment) :
    (x.step w p).reporter =
      Throttle.step 2000 (truncate w.intOfNan) widen x.reporter (x.sample p) := by
  have hfinish (s : Stat) (h : s.timer = (control w (receive w p.iteration x.stat)).timer) :
      (timedPublish w x.stat.localtemp (BitVec.ofNat 32 p.time) s).reporter
          ((x.reports w p).head?.or x.last) =
        Throttle.step 2000 (truncate w.intOfNan) widen x.reporter (x.sample p) := by
    have hstat : s.reporter x.last = x.reporter :=
      reporter_congr (h.trans (controlled_timer w _ _)) _
    have hreports : x.reports w p = timedReport x.stat.localtemp p.time s := by
      rw [reporting_reports_eq, timedReport_eq _ _ s x.last, hstat]
      rfl
    rw [hreports, timedPublish_reporter, hstat]
    rfl
  change (finish w x.stat.localtemp (BitVec.ofNat 32 p.time) _).reporter _ = _
  unfold finish
  split_ifs
  · exact hfinish _ (displayTemp_timer w _)
  · exact hfinish _ rfl

theorem truncate_widen (c n : ℤ) : truncate c (widen n) = n := by
  simp [truncate, widen]

theorem widen_truncate_iff (temp : Reading ℚ) :
    widen (truncate w.intOfNan temp) = temp ↔ ∃ n : ℤ, temp = .num n := by
  constructor
  · exact fun h => ⟨_, h.symm⟩
  · rintro ⟨n, rfl⟩
    exact congrArg widen (truncate_widen w.intOfNan n)

theorem noRepeat_iff (x : Reporting) (p : Moment) :
    NoRepeat 2000 (truncate w.intOfNan) widen x.reporter (x.sample p) ↔ ¬ x.Repeats p := by
  constructor
  · rintro h ⟨hdue, ⟨r, hr, heq⟩, hwhole⟩
    obtain ⟨n, hn⟩ := (widen_truncate_iff _).mp (h hdue r hr heq)
    exact hwhole n hn
  · intro h hdue r hr heq
    by_contra hkept
    exact h ⟨hdue, ⟨r, hr, heq⟩, fun n hn => hkept ((widen_truncate_iff _).mpr ⟨n, hn⟩)⟩

theorem map_time_samples (x : Reporting) (ps : List Moment) :
    (outputs (Reporting.step w) (fun x p => [x.sample p]) x ps).map Sample.time =
      ps.map Moment.time := by
  induction ps generalizing x with
  | nil => rfl
  | cons p ps ih => exact congrArg (p.time :: ·) (ih (x.step w p))

theorem along_noRepeat_iff (x : Reporting) (ps : List Moment) :
    Along (Throttle.step 2000 (truncate w.intOfNan) widen)
        (NoRepeat 2000 (truncate w.intOfNan) widen) x.reporter
        (outputs (Reporting.step w) (fun x p => [x.sample p]) x ps) ↔
      Along (Reporting.step w) (fun x p => ¬ x.Repeats p) x ps := by
  rw [along_outputs_iff Reporting.reporter (fun x p => [x.sample p]) reporting_reporter_step]
  constructor
  · exact Along.mono fun x p h => (noRepeat_iff x p).mp h.1
  · exact Along.mono fun x p h => ⟨(noRepeat_iff x p).mpr h, trivial⟩

end Reports

/-- However the clock wraps, successive reports of the timed section are more than 2000 ms apart
and carry different temperatures, if and only if a report never falls due with a fraction of a
degree that was reported last. -/
theorem timed_reports_separate_iff {w : World} {sensor : Reading ℚ} {eeprom : Eeprom}
    {rounds : ℕ} {ps : List Moment} (hps : (ps.map Moment.time).IsChain (· ≤ ·)) :
    (outputs (Reporting.step w) (Reporting.reports w)
        ⟨setup w sensor eeprom rounds, none⟩ ps).IsChain
        (Separate 2000) ↔
      Along (Reporting.step w) (fun x p => ¬ x.Repeats p)
        ⟨setup w sensor eeprom rounds, none⟩ ps := by
  have hsetup := setup_timer w sensor eeprom rounds
  generalize setup w sensor eeprom rounds = s at hsetup ⊢
  have hkeeps : Keeps (truncate w.intOfNan) 0 (Reporting.reporter ⟨s, none⟩) := by
    refine ⟨⟨0, le_rfl, ?_, ?_⟩, ?_⟩
    · exact congrArg Prod.fst hsetup
    · rintro r ⟨⟩
    · rintro r ⟨⟩
  have hchain : (0 :: (outputs (Reporting.step w) (fun x p => [x.sample p]) ⟨s, none⟩ ps).map
      Sample.time).IsChain (· ≤ ·) := by
    rw [map_time_samples]
    cases ps with
    | nil => exact List.isChain_singleton _
    | cons p ps => exact List.isChain_cons_cons.mpr ⟨Nat.zero_le _, hps⟩
  have hall : Along (Reporting.step w) (fun _ _ => True) ⟨s, none⟩ ps :=
    along_of_forall_mem (fun _ _ _ => trivial) _
  rw [outputs_view Reporting.reporter Reporting.sample
    (fun x p _ => reporting_reporter_step x p) (fun x p _ => reporting_reports_eq x p) hall,
    ← along_noRepeat_iff]
  exact isChain_reports_iff hkeeps hchain

/-- A sensor that reads 68.5625 degrees at power-up, and nothing that is plausible after that. -/
def betweenDegrees : List Moment :=
  [⟨2001, .num (1097 / 16), none⟩, ⟨4002, .num (1097 / 16), none⟩]

theorem timed_reports_separate_iff_betweenDegrees :
    (outputs (Reporting.step stillWorld) (Reporting.reports stillWorld)
        ⟨setup stillWorld (.num (1097 / 16)) Eeprom.erased 1, none⟩ betweenDegrees).IsChain
        (Separate 2000) ↔
      Along (Reporting.step stillWorld) (fun x p => ¬ x.Repeats p)
        ⟨setup stillWorld (.num (1097 / 16)) Eeprom.erased 1, none⟩ betweenDegrees :=
  timed_reports_separate_iff (by decide)

/-- The same temperature is reported twice in a row. -/
theorem betweenDegrees_repeated :
    (betweenDegrees.map Moment.time).IsChain (· ≤ ·) ∧
      outputs (Reporting.step stillWorld) (Reporting.reports stillWorld)
        ⟨setup stillWorld (.num (1097 / 16)) Eeprom.erased 1, none⟩ betweenDegrees =
        [⟨2001, .num (1097 / 16)⟩, ⟨4002, .num (1097 / 16)⟩] ∧
      ¬ [(⟨2001, .num (1097 / 16)⟩ : Sample (Reading ℚ)), ⟨4002, .num (1097 / 16)⟩].IsChain
        (Separate 2000) :=
  ⟨by decide, by decide +kernel, by simp [Separate]⟩

end Wyostat.OpenThermostat
