import Wyostat.OpenThermostat.Sampling
import Mathlib.Algebra.Order.Ring.Cast
import Mathlib.Tactic.Linarith

/-! The estimate of the room temperature: `loop()` screens the readings that enter the filter,
`setup_temp` starts it with whatever the sensor returned. -/
namespace Wyostat.OpenThermostat
open Machine

/-- `(int)r` of a number. -/
def intPart (q : ℚ) : ℤ := q.num.tdiv q.den

/-- A number that `loop()` lets into the filter. -/
def Plausible : Reading ℚ → Prop
  | .nan => False
  | .num q => 0 < intPart q ∧ intPart q < 200

instance : DecidablePred Plausible
  | .nan => .isFalse id
  | .num q => inferInstanceAs (Decidable (0 < intPart q ∧ intPart q < 200))

/-- A comparison with NaN is false, also when it is first converted to an `int`. -/
def World.ScreensNan (w : World) : Prop := ¬ (0 < w.intOfNan ∧ w.intOfNan < 200)

instance (w : World) : Decidable w.ScreensNan := inferInstanceAs (Decidable (¬ _))

/-- What a reading makes of the estimate. -/
def absorb (x : Reading ℚ) : Reading ℚ → Reading ℚ
  | .nan => x
  | .num q =>
    if Plausible (.num q) then
      x.map₂ (fun x r => 9999 / 10000 * x + 1 / 10000 * r) (.num (intPart q))
    else x

/-- The reading a call of `loop()` takes, if it takes one. -/
def taken (s : Stat) (c : Call) : List (Reading ℚ) :=
  if s.loopCounter % 1000 = 0 then [c.sensor] else []

/-- The estimate is a number between the least plausible reading, truncated, and the greatest. -/
def Bounded (readings : List (Reading ℚ)) (x : Reading ℚ) : Prop :=
  ∃ a, x = .num a ∧
    (∃ q, .num q ∈ readings ∧ Plausible (.num q) ∧ intPart q ≤ a) ∧
    ∃ q, .num q ∈ readings ∧ Plausible (.num q) ∧ a ≤ q

/-- So it is as soon as there has been a plausible reading. -/
def Tracks (readings : List (Reading ℚ)) (x : Reading ℚ) : Prop :=
  (∃ r ∈ readings, Plausible r) → Bounded readings x

/-- The device together with all readings of its sensor so far. -/
structure Watched where
  stat : Stat
  readings : List (Reading ℚ)

def Watched.loop (w : World) (p : Watched) (c : Call) : Watched :=
  ⟨c.loop w p.stat, p.readings ++ taken p.stat c⟩

/-- The average of the start and the first plausible reading lies between that reading,
truncated, and the reading itself. -/
def Agrees (start r : Reading ℚ) : Prop :=
  ∃ a q, start = .num a ∧ r = .num q ∧ intPart q ≤ a ∧
    9999 / 10000 * a + 1 / 10000 * intPart q ≤ q

section Filter

theorem intPart_le {q : ℚ} (h : 0 < intPart q) : (intPart q : ℚ) ≤ q := by
  have hnum : 0 ≤ q.num := by
    by_contra hneg
    have hopp : 0 ≤ (-q.num).tdiv q.den :=
      Int.tdiv_nonneg (by omega) (Int.natCast_nonneg q.den)
    rw [Int.neg_tdiv] at hopp
    rw [intPart] at h
    omega
  have hden : (0 : ℚ) < q.den := Nat.cast_pos.mpr q.den_pos
  have hmul : intPart q * q.den ≤ q.num := by
    rw [intPart, Int.tdiv_eq_ediv_of_nonneg hnum]
    exact Int.ediv_mul_le q.num (by exact_mod_cast q.den_ne_zero)
  have hcast : (intPart q : ℚ) * q.den ≤ q.num := by exact_mod_cast hmul
  calc (intPart q : ℚ) ≤ q.num / q.den := (le_div_iff₀ hden).mpr hcast
    _ = q := q.num_div_den

theorem Bounded.append {readings : List (Reading ℚ)} {x : Reading ℚ} (h : Bounded readings x)
    (more : List (Reading ℚ)) : Bounded (readings ++ more) x := by
  obtain ⟨a, ha, ⟨q₁, hmem₁, hp₁, hlow⟩, q₂, hmem₂, hp₂, hhigh⟩ := h
  exact ⟨a, ha, ⟨q₁, List.mem_append_left _ hmem₁, hp₁, hlow⟩, q₂,
    List.mem_append_left _ hmem₂, hp₂, hhigh⟩

theorem absorb_screened_out {x r : Reading ℚ} (h : ¬ Plausible r) : absorb x r = x := by
  cases r with
  | nan => rfl
  | num q => exact if_neg h

theorem absorb_num {a q : ℚ} (h : Plausible (.num q)) :
    absorb (.num a) (.num q) = .num (9999 / 10000 * a + 1 / 10000 * intPart q) := if_pos h

theorem bounded_singleton {r : Reading ℚ} (h : Plausible r) : Bounded [r] r := by
  cases r with
  | nan => exact h.elim
  | num q => exact ⟨q, rfl, ⟨q, by simp, h, intPart_le h.1⟩, q, by simp, h, le_rfl⟩

theorem bounded_absorb {readings : List (Reading ℚ)} {x : Reading ℚ} (h : Bounded readings x)
    (r : Reading ℚ) : Bounded (readings ++ [r]) (absorb x r) := by
  by_cases hr : Plausible r
  · cases r with
    | nan => exact hr.elim
    | num q =>
      obtain ⟨a, rfl, ⟨q₁, hmem₁, hp₁, hlow⟩, q₂, hmem₂, hp₂, hhigh⟩ := h
      have hq := intPart_le hr.1
      have hnew : .num q ∈ readings ++ [.num q] := by simp
      rw [absorb_num hr]
      refine ⟨_, rfl, ?_, ?_⟩
      · rcases le_total (intPart q₁ : ℚ) (intPart q) with hle | hle
        · exact ⟨q₁, List.mem_append_left _ hmem₁, hp₁, by linarith⟩
        · exact ⟨q, hnew, hr, by linarith⟩
      · rcases le_total q q₂ with hle | hle
        · exact ⟨q₂, List.mem_append_left _ hmem₂, hp₂, by linarith⟩
        · exact ⟨q, hnew, hr, by linarith⟩
  · rw [absorb_screened_out hr]
    exact h.append [r]

/-- The first plausible reading makes the estimate bounded exactly when it agrees with the
start. -/
theorem bounded_absorb_iff {readings : List (Reading ℚ)} (start : Reading ℚ) {r : Reading ℚ}
    (hseen : ∀ r ∈ readings, ¬ Plausible r) (hr : Plausible r) :
    Bounded (readings ++ [r]) (absorb start r) ↔ Agrees start r := by
  have honly {q : ℚ} (hmem : .num q ∈ readings ++ [r]) (hq : Plausible (.num q)) : r = .num q := by
    rcases List.mem_append.mp hmem with hmem | hmem
    · exact absurd hq (hseen _ hmem)
    · exact (List.mem_singleton.mp hmem).symm
  have hnew : r ∈ readings ++ [r] := by simp
  constructor
  · rintro ⟨b, hb, ⟨q, hmem, hq, hlow⟩, q', hmem', hq', hhigh⟩
    obtain rfl := honly hmem hq
    cases honly hmem' hq'
    cases start with
    | nan =>
      rw [absorb, if_pos hr, Reading.map₂_nan_left] at hb
      cases hb
    | num a =>
      rw [absorb_num hr] at hb
      cases hb
      exact ⟨a, q, rfl, rfl, by linarith, hhigh⟩
  · rintro ⟨a, q, rfl, rfl, hlow, hhigh⟩
    rw [absorb_num hr]
    exact ⟨_, rfl, ⟨q, hnew, hr, by linarith⟩, q, hnew, hr, hhigh⟩

end Filter

section Loop
variable (w : World) (s : Stat)

theorem mqttCallback_localtemp (m : Msg) : (mqttCallback w m s).localtemp = s.localtemp :=
  mqttCallback_frame w s (fun _ => rfl) (fun _ _ _ => rfl)
    (fun _ _ => rfl) (fun _ _ _ => rfl) (fun _ _ => rfl) (fun _ _ => rfl) (fun _ _ => rfl) m

theorem receive_localtemp (it : Iteration) : (receive w it s).localtemp = it.localtemp := by
  apply receive_preserves (P := fun t => t.localtemp = it.localtemp)
  · intro t h
    exact h
  · intro t h
    exact h
  · intro t m h
    exact (mqttCallback_localtemp w t m).trans h
  · rfl

theorem control_receive_localtemp (it : Iteration) :
    (control w (receive w it s)).localtemp = it.localtemp :=
  (congrArg Settings.localtemp (control_settings w _)).trans (receive_localtemp w s it)

theorem iterate_localtemp (it : Iteration) : (iterate w s it).localtemp = it.localtemp :=
  (congrArg Settings.localtemp (iterate_settings w _ _)).trans (receive_localtemp w s it)

theorem mqttConnect_localtemp (rounds : ℕ) :
    (mqttConnect w rounds s).localtemp = s.localtemp := by
  apply mqttConnect_preserves (P := fun t => t.localtemp = s.localtemp) _ rfl
  intro t h
  simpa [announce, publishInt] using h

theorem setup_localtemp (sensor : Reading ℚ) (eeprom : Eeprom) (rounds : ℕ) :
    (setup w sensor eeprom rounds).localtemp = sensor := by
  rw [setup, mqttConnect_localtemp]
  simp [testIcons, setupDisplay, displayTemp, loadSettings]

variable {w}

theorem sample_eq (hnan : w.ScreensNan) (r : Reading ℚ) :
    sample w r s = if s.loopCounter % 1000 = 0 then absorb s.localtemp r else s.localtemp := by
  have hscreen : 0 < truncate w.intOfNan r ∧ truncate w.intOfNan r < 200 ↔ Plausible r := by
    cases r with
    | nan => exact iff_of_false hnan id
    | num q => exact Iff.rfl
  unfold sample
  dsimp only
  simp only [hscreen]
  by_cases hcount : s.loopCounter % 1000 = 0
  · rw [if_pos hcount]
    by_cases hr : Plausible r
    · rw [if_pos ⟨hcount, hr⟩]
      cases r with
      | nan => exact hr.elim
      | num q => rw [absorb, if_pos hr, truncate, intPart]
    · rw [if_neg (fun h => hr h.2), absorb_screened_out hr]
  · rw [if_neg (fun h => hcount h.1), if_neg hcount]

theorem loop_localtemp (hnan : w.ScreensNan) (c : Call) :
    (c.loop w s).localtemp = (taken s c).foldl absorb s.localtemp := by
  have hsample : (c.loop w s).localtemp = sample w c.sensor s := iterate_localtemp w _ _
  rw [hsample, sample_eq s hnan, taken]
  split_ifs <;> rfl

end Loop

section Runs
variable {w : World} {p : Watched}

theorem Watched.loop_of_taken_nil (hnan : w.ScreensNan) {c : Call}
    (h : taken p.stat c = []) :
    (p.loop w c).stat.localtemp = p.stat.localtemp ∧ (p.loop w c).readings = p.readings := by
  constructor
  · exact (loop_localtemp p.stat hnan c).trans (by rw [h, List.foldl_nil])
  · exact (congrArg (p.readings ++ ·) h).trans (List.append_nil _)

theorem Watched.loop_of_taken {r : Reading ℚ} (hnan : w.ScreensNan)
    {c : Call} (h : taken p.stat c = [r]) :
    (p.loop w c).stat.localtemp = absorb p.stat.localtemp r ∧
      (p.loop w c).readings = p.readings ++ [r] := by
  constructor
  · exact (loop_localtemp p.stat hnan c).trans (by rw [h, List.foldl_cons, List.foldl_nil])
  · exact congrArg (p.readings ++ ·) h

theorem taken_cases (s : Stat) (c : Call) : taken s c = [] ∨ ∃ r, taken s c = [r] := by
  unfold taken
  split_ifs
  · exact .inr ⟨_, rfl⟩
  · exact .inl rfl

theorem tracks_of_bounded (hnan : w.ScreensNan)
    (h : Bounded p.readings p.stat.localtemp) (cs : List Call) :
    Always (Watched.loop w) (fun p => Tracks p.readings p.stat.localtemp) p cs := by
  have hstep (p : Watched) (c : Call) (h : Bounded p.readings p.stat.localtemp) :
      Bounded (p.loop w c).readings (p.loop w c).stat.localtemp := by
    rcases taken_cases p.stat c with hnone | ⟨r, hone⟩
    · obtain ⟨hx, hreadings⟩ := Watched.loop_of_taken_nil hnan hnone
      rwa [hx, hreadings]
    · obtain ⟨hx, hreadings⟩ := Watched.loop_of_taken hnan hone
      rw [hx, hreadings]
      exact bounded_absorb h r
  apply (always_of_step hstep h cs).mono
  intro q hq _
  exact hq

theorem tracks_of_unseen (hseen : ∀ r ∈ p.readings, ¬ Plausible r) :
    Tracks p.readings p.stat.localtemp := by
  rintro ⟨r, hmem, hr⟩
  exact absurd hr (hseen r hmem)

/-- While no reading has been plausible, all depends on the first that will be. -/
theorem tracks_iff_of_unseen (hnan : w.ScreensNan)
    (hseen : ∀ r ∈ p.readings, ¬ Plausible r) (cs : List Call) :
    Always (Watched.loop w) (fun p => Tracks p.readings p.stat.localtemp) p cs ↔
      ∀ r ∈ (outputs (Call.loop w) taken p.stat cs).find? (Plausible ·),
        Agrees p.stat.localtemp r := by
  induction cs generalizing p with
  | nil => simpa [outputs, Always] using tracks_of_unseen hseen
  | cons c cs ih =>
    have hnext : (p.loop w c).stat = c.loop w p.stat := rfl
    rw [Always, outputs, and_iff_right (tracks_of_unseen hseen)]
    rcases taken_cases p.stat c with hnone | ⟨r, hone⟩
    · obtain ⟨hx, hreadings⟩ := Watched.loop_of_taken_nil hnan hnone
      rw [← hreadings] at hseen
      rw [ih hseen, hnone, List.nil_append, hx, hnext]
    · obtain ⟨hx, hreadings⟩ := Watched.loop_of_taken hnan hone
      rw [hone, List.singleton_append]
      by_cases hr : Plausible r
      · rw [List.find?_cons_of_pos (by simpa using hr)]
        have hfirst := bounded_absorb_iff p.stat.localtemp hseen hr
        rw [← hx, ← hreadings] at hfirst
        have hagrees : (∀ q ∈ some r, Agrees p.stat.localtemp q) ↔ Agrees p.stat.localtemp r := by
          simp
        rw [hagrees, ← hfirst]
        constructor
        · intro h
          exact h.head ⟨r, by simp [hreadings], hr⟩
        · intro h
          exact tracks_of_bounded hnan h cs
      · rw [List.find?_cons_of_neg (by simpa using hr)]
        have hunseen : ∀ q ∈ (p.loop w c).readings, ¬ Plausible q := by
          intro q hq
          rw [hreadings] at hq
          rcases List.mem_append.mp hq with hq | hq
          · exact hseen q hq
          · rwa [List.mem_singleton.mp hq]
        rw [ih hunseen, hx, absorb_screened_out hr, hnext]

end Runs

/-- After `setup()` the estimate tracks the plausible readings throughout exactly when the
reading of `setup()` is plausible or agrees with the first plausible one of `loop()`. -/
theorem estimate_tracks_iff {w : World} (hnan : w.ScreensNan)
    (sensor : Reading ℚ) (eeprom : Eeprom) (rounds : ℕ) (cs : List Call) :
    Always (Watched.loop w) (fun p => Tracks p.readings p.stat.localtemp)
        ⟨setup w sensor eeprom rounds, [sensor]⟩ cs ↔
      Plausible sensor ∨
        ∀ r ∈ (outputs (Call.loop w) taken (setup w sensor eeprom rounds) cs).find? (Plausible ·),
          Agrees sensor r := by
  have hsetup := setup_localtemp w sensor eeprom rounds
  by_cases hs : Plausible sensor
  · refine iff_of_true (tracks_of_bounded hnan ?_ cs) (.inl hs)
    rw [hsetup]
    exact bounded_singleton hs
  · have hseen : ∀ r ∈ [sensor], ¬ Plausible r := fun r hr => by rwa [List.mem_singleton.mp hr]
    rw [or_iff_right hs, tracks_iff_of_unseen hnan hseen, hsetup]

section Failed

/-- One call of `loop()`, which reads 70 degrees. -/
def firstSample : List Call := [⟨.num 70, none, 0⟩]

theorem estimate_tracks_iff_at_70 :
    Always (Watched.loop stillWorld) (fun p => Tracks p.readings p.stat.localtemp)
        ⟨setup stillWorld (.num 70) Eeprom.erased 1, [.num 70]⟩ firstSample ↔
      Plausible (.num 70) ∨
        ∀ r ∈ (outputs (Call.loop stillWorld) taken
          (setup stillWorld (.num 70) Eeprom.erased 1) firstSample).find? (Plausible ·),
          Agrees (.num 70) r :=
  estimate_tracks_iff (by decide) (.num 70) Eeprom.erased 1 firstSample

/-- After a failed read in `setup()` the estimate never becomes a number. -/
theorem failed_setup_read_stays :
    ¬ Always (Watched.loop stillWorld) (fun p => Tracks p.readings p.stat.localtemp)
        ⟨setup stillWorld .nan Eeprom.erased 1, [.nan]⟩ firstSample := by
  intro h
  have hscreen : Plausible (.num 70) := by decide +kernel
  have hmem : (.num 70 : Reading ℚ) ∈ (run (Watched.loop stillWorld)
      ⟨setup stillWorld .nan Eeprom.erased 1, [.nan]⟩ firstSample).readings := by decide +kernel
  have hx : (run (Watched.loop stillWorld)
      ⟨setup stillWorld .nan Eeprom.erased 1, [.nan]⟩ firstSample).stat.localtemp = .nan := by
    decide +kernel
  obtain ⟨a, ha, -⟩ := h.last ⟨_, hmem, hscreen⟩
  rw [hx] at ha
  cases ha

end Failed

end Wyostat.OpenThermostat
