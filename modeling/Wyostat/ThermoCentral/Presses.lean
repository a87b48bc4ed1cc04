import Wyostat.ThermoCentral.Control
import Wyostat.ThermoCentral.Reboot
import Wyostat.Lib.Loopback
import Mathlib.Data.List.ReduceOption

/-! The buttons of the ThermoCentral sketch count from the set-point held, and a press that is
still on its way back replaces every later one. -/
namespace Wyostat.ThermoCentral
open Machine Loopback

/-- A fall from a HIGH level to a LOW one. -/
def fallingEdges : List Bool → ℕ
  | a :: b :: levels => (if a ∧ ¬ b then 1 else 0) + fallingEdges (b :: levels)
  | _ => 0

/-- The rounds in which the buttons are polled. -/
def polled (rs : List Round) : List Round := rs.filter fun r => 0 < r.budget

/-- What the buttons do to the lower set-point when they are polled. -/
def moves (inc dec : Bool) (s : Stat) : List (Act ℤ) := (pressSteps inc dec s).map .moved

/-- What happens in a round to the lower set-point and to its values on their way back. -/
def Net.acts (n : Net) (r : Round) : List (Act ℤ) :=
  (r.feeds.filter Option.isNone).map (fun _ => .returned) ++
    if 0 < r.budget then moves r.inc r.dec n.stat else []

/-- The moves and returns of a run. -/
def actHistory (w : World) (eeprom : Eeprom) (rs : List Round) : List (Act ℤ) :=
  outputs (Net.step w) Net.acts (.boot eeprom) rs

/-- No other publisher writes the feed of the lower set-point. -/
def Round.Alone (r : Round) : Prop := ∀ d ∈ r.feeds.reduceOption, d.feed ≠ .setTempLo

instance (r : Round) : Decidable r.Alone := inferInstanceAs (Decidable (∀ d ∈ _, _))

/-- Everything on its way back is a value the device saved. -/
def Net.Sound (n : Net) : Prop := ∀ d ∈ n.returning, ∃ v, d = ⟨.setTempLo, Decimal.itoa v⟩

def Data.number (d : Data) : ℤ := Decimal.atol (cString d.value)

/-- The lower set-point and the values that will replace it. -/
def Net.counter (n : Net) : Counter ℤ :=
  ⟨n.stat.settemperatureLo, n.returning.map Data.number⟩

section Returns

theorem cString_itoa (v : ℤ) : cString (Decimal.itoa v) = Decimal.itoa v := by
  apply cString_eq_self
  intro h
  obtain h | h := Decimal.mem_itoa h
  · exact absurd h (by decide)
  · exact absurd h (by decide)

theorem number_itoa (v : ℤ) :
    Data.number ⟨.setTempLo, Decimal.itoa v⟩ = Decimal.saturate v := by
  rw [Data.number, cString_itoa, Decimal.atol_itoa_eq_saturate]

theorem handle_settemperatureLo_of_ne {s : Stat} {d : Data} (h : d.feed ≠ .setTempLo) :
    (handle s d).settemperatureLo = s.settemperatureLo := by
  have hlo : (handle s d).panel.lo.value = s.panel.lo.value := by
    rw [handle_panel]
    simp [edits, h]
  exact hlo

theorem handle_settemperatureLo_itoa (s : Stat) (v : ℤ) :
    (handle s ⟨.setTempLo, Decimal.itoa v⟩).settemperatureLo = Decimal.saturate v := by
  have hnonempty : ¬ (cString (Decimal.itoa v)).length < 1 := by
    have := List.length_pos_iff.mpr (Decimal.itoa_ne_nil v)
    rw [cString_itoa]
    omega
  have hnumber : Decimal.atol (cString (Decimal.itoa v)) = Decimal.saturate v := number_itoa v
  simp only [handle, handleSetTempLo, handleSetTemp, if_neg hnonempty, hnumber]
  split_ifs with hne
  · rfl
  · exact (not_not.mp hne).symm

theorem deliver_counter {feeds : List (Option Data)} {own : List Data} (s : Stat)
    (hfeeds : ∀ d ∈ feeds.reduceOption, d.feed ≠ .setTempLo)
    (hown : ∀ d ∈ own, ∃ v, d = ⟨.setTempLo, Decimal.itoa v⟩) :
    run (step Decimal.saturate) ⟨s.settemperatureLo, own.map Data.number⟩
        ((feeds.filter Option.isNone).map fun _ => .returned) =
      ⟨(ioRun (deliver feeds own).1 s).settemperatureLo,
        (deliver feeds own).2.map Data.number⟩ := by
  induction feeds generalizing own s with
  | nil => rfl
  | cons f feeds ih =>
    cases f with
    | some d =>
      rw [List.reduceOption_cons_of_some, List.forall_mem_cons] at hfeeds
      obtain ⟨hd, hrest⟩ := hfeeds
      have hih := ih (handle s d) hrest hown
      rw [handle_settemperatureLo_of_ne hd] at hih
      exact hih
    | none =>
      rw [List.reduceOption_cons_of_none] at hfeeds
      cases own with
      | nil => exact ih s hfeeds hown
      | cons d own =>
        obtain ⟨v, rfl⟩ := hown d List.mem_cons_self
        have hih := ih (handle s ⟨.setTempLo, Decimal.itoa v⟩) hfeeds
          fun d hd => hown d (List.mem_cons_of_mem _ hd)
        rw [handle_settemperatureLo_itoa] at hih
        rw [← number_itoa] at hih
        exact hih

end Returns

section Saved

theorem saved_cons (e : Event) (log : List Event) :
    saved (e :: log) = saved log ++ (savedLo? e).toList := by
  unfold saved
  cases h : savedLo? e <;> simp [h]

theorem ioRun_log (data : List Data) (s : Stat) : (ioRun data s).log = s.log :=
  ioRun_frame (fun _ _ => rfl) (fun _ _ => rfl) (fun _ _ => rfl) (fun _ _ _ => rfl) data s

theorem saved_sampling (w : World) (reading : Reading ℚ) (s : Stat) :
    saved (sampling w reading s).log = saved s.log := by
  unfold sampling record
  dsimp only
  split_ifs
  · simp [saved_cons, savedLo?]
  · rfl
  · rfl

theorem saved_control (s : Stat) : saved (acControl (heaterControl s)).log = saved s.log := by
  have hfurnace (b : Bool) (t : Stat) : saved (switchFurnace b t).log = saved t.log := by
    simp [switchFurnace, saved_cons, savedLo?]
  have hac (b : Bool) (t : Stat) : saved (switchAc b t).log = saved t.log := by
    simp [switchAc, saved_cons, savedLo?]
  rw [acControl_eq, heaterControl_eq]
  split_ifs <;> simp [hfurnace, hac]

/-- The state in which the buttons are polled. -/
def beforeButtons (w : World) (it : Iteration) (s : Stat) : Stat :=
  acControl (heaterControl (sense w it s))

theorem beforeButtons_saved (w : World) (it : Iteration) (s : Stat) :
    saved (beforeButtons w it s).log = saved s.log := by
  rw [beforeButtons, saved_control, sense, saved_sampling, ioRun_log]

theorem beforeButtons_panel (w : World) (it : Iteration) (s : Stat) :
    (beforeButtons w it s).panel = (ioRun it.data s).panel := by
  rw [beforeButtons, acControl_panel, heaterControl_panel, sense, sampling_panel]

theorem saved_adjust (s : Stat) (d : ℤ) : saved (s.adjust d).log =
    saved s.log ++ [⟨.setTempLo, Decimal.itoa (s.settemperatureLo + d)⟩] :=
  saved_cons _ _

theorem adjusts_counter (ds : List ℤ) (s : Stat) (own : List ℤ) :
    ∃ sent, saved (ds.foldl Stat.adjust s).log = saved s.log ++ sent ∧
      run (step Decimal.saturate) ⟨s.settemperatureLo, own⟩ (ds.map .moved) =
        ⟨(ds.foldl Stat.adjust s).settemperatureLo, own ++ sent.map Data.number⟩ := by
  induction ds generalizing s own with
  | nil => exact ⟨[], (List.append_nil _).symm, by simp⟩
  | cons d ds ih =>
    obtain ⟨sent, hsaved, hrun⟩ :=
      ih (s.adjust d) (own ++ [Decimal.saturate (s.settemperatureLo + d)])
    refine ⟨⟨.setTempLo, Decimal.itoa (s.settemperatureLo + d)⟩ :: sent, ?_, ?_⟩
    · rw [List.foldl_cons, hsaved, saved_adjust, List.append_assoc, List.singleton_append]
    · rw [List.map_cons, List.map_cons, number_itoa, List.append_cons]
      exact hrun

theorem handleButtons_counter (inc dec : Bool) (s : Stat) (own : List ℤ) :
    run (step Decimal.saturate) ⟨s.settemperatureLo, own⟩ (moves inc dec s) =
      ⟨(handleButtons inc dec s).settemperatureLo,
        own ++ (savings s (handleButtons inc dec s)).map Data.number⟩ := by
  obtain ⟨sent, hsaved, hrun⟩ := adjusts_counter (pressSteps inc dec s) s own
  have hsent : savings s (handleButtons inc dec s) = sent := by
    rw [savings, handleButtons_eq, Stat.setLastDec_log, Stat.setLastInc_log, hsaved,
      List.drop_left]
  rw [moves, hrun, hsent, handleButtons_eq]
  rfl

end Saved

section Rounds
variable (w : World) {n : Net} {r : Round}

theorem saved_mem {log : List Event} {d : Data} (h : d ∈ saved log) :
    ∃ v, d = ⟨.setTempLo, Decimal.itoa v⟩ := by
  obtain ⟨e, -, he⟩ := List.mem_filterMap.mp (List.mem_reverse.mp h)
  unfold savedLo? at he
  split at he
  · next v => exact ⟨v, (Option.some.inj he).symm⟩
  · cases he

theorem deliver_suffix (feeds : List (Option Data)) (own : List Data) :
    (deliver feeds own).2 <:+ own := by
  induction feeds generalizing own with
  | nil => exact List.suffix_rfl
  | cons f feeds ih =>
    cases f with
    | some d => exact ih own
    | none =>
      cases own with
      | nil => exact ih []
      | cons d own => exact (ih own).trans (List.suffix_cons d own)

theorem sound_step (r : Round) (h : n.Sound) : (n.step w r).Sound := by
  intro d hd
  rcases List.mem_append.mp hd with hd | hd
  · exact h d ((deliver_suffix r.feeds n.returning).mem hd)
  · exact saved_mem (List.mem_of_mem_drop hd)

theorem savings_of_saved {s t u : Stat} (h : saved s.log = saved t.log) :
    savings s u = savings t u := by rw [savings, savings, h]

theorem beforeButtons_lastLevels (it : Iteration) (s : Stat) :
    (beforeButtons w it s).lastInc = s.lastInc ∧ (beforeButtons w it s).lastDec = s.lastDec := by
  have hpanel := beforeButtons_panel w it s
  rw [ioRun_panel] at hpanel
  exact ⟨congrArg Panel.lastInc hpanel, congrArg Panel.lastDec hpanel⟩

theorem step_stat (n : Net) (r : Round) :
    (n.step w r).stat =
      if 0 < r.budget then handleButtons r.inc r.dec (beforeButtons w (n.iteration r) n.stat)
      else beforeButtons w (n.iteration r) n.stat := rfl

theorem step_counter (hsound : n.Sound) (halone : r.Alone) :
    (n.step w r).counter = run (step Decimal.saturate) n.counter (n.acts r) := by
  have hdeliver := deliver_counter n.stat halone hsound
  have hstat := step_stat w n r
  have hlo : (beforeButtons w (n.iteration r) n.stat).settemperatureLo =
      (ioRun (deliver r.feeds n.returning).1 n.stat).settemperatureLo :=
    congrArg (fun p => p.lo.value) (beforeButtons_panel w (n.iteration r) n.stat)
  obtain ⟨hinc, hdec⟩ := beforeButtons_lastLevels w (n.iteration r) n.stat
  have hsavings := savings_of_saved (u := (n.step w r).stat)
    (beforeButtons_saved w (n.iteration r) n.stat).symm
  have hreturning : (n.step w r).returning =
      (deliver r.feeds n.returning).2 ++ savings n.stat (n.step w r).stat := rfl
  rw [Net.acts, run_append, Net.counter, Net.counter, hdeliver, ← hlo, hreturning, hsavings, hstat]
  generalize beforeButtons w (n.iteration r) n.stat = t at hinc hdec ⊢
  split_ifs
  · have hmoves : moves r.inc r.dec n.stat = moves r.inc r.dec t := by
      rw [moves, moves, pressSteps, pressSteps, hinc, hdec]
    rw [hmoves, handleButtons_counter, List.map_append]
  · simp [savings]

theorem step_lastLevels (n : Net) (r : Round) :
    (n.step w r).stat.lastInc = (if 0 < r.budget then r.inc else n.stat.lastInc) ∧
      (n.step w r).stat.lastDec = (if 0 < r.budget then r.dec else n.stat.lastDec) := by
  obtain ⟨hinc, hdec⟩ := beforeButtons_lastLevels w (n.iteration r) n.stat
  rw [step_stat]
  split_ifs
  · have hbuttons := handleButtons_panel r.inc r.dec (beforeButtons w (n.iteration r) n.stat)
    exact ⟨congrArg Panel.lastInc hbuttons, congrArg Panel.lastDec hbuttons⟩
  · exact ⟨hinc, hdec⟩

end Rounds

section Edges

theorem fallingEdges_cons (a b : Bool) (levels : List Bool) :
    fallingEdges (a :: b :: levels) =
      (if a ∧ ¬ b then 1 else 0) + fallingEdges (b :: levels) := rfl

/-- The sketch takes the buttons for pressed when it starts. -/
theorem fallingEdges_false (levels : List Bool) :
    fallingEdges (false :: levels) = fallingEdges levels := by
  cases levels with
  | nil => rfl
  | cons b levels => simp [fallingEdges_cons]

theorem shift_moves (inc dec : Bool) (s : Stat) :
    ((moves inc dec s).map Act.shift).sum =
      (if s.lastInc ∧ ¬ inc then 1 else 0) - (if s.lastDec ∧ ¬ dec then (1 : ℤ) else 0) := by
  unfold moves pressSteps
  cases hinc : s.lastInc <;> cases hdec : s.lastDec <;> cases inc <;> cases dec <;>
    simp [Act.shift]

theorem shift_returns (feeds : List (Option Data)) :
    ((feeds.map fun _ => (.returned : Act ℤ)).map Act.shift).sum = 0 := by
  simp [Act.shift]

theorem shift_outputs (w : World) (n : Net) (rs : List Round) :
    ((outputs (Net.step w) Net.acts n rs).map Act.shift).sum =
      (fallingEdges (n.stat.lastInc :: (polled rs).map Round.inc) : ℤ) -
        fallingEdges (n.stat.lastDec :: (polled rs).map Round.dec) := by
  induction rs generalizing n with
  | nil => rfl
  | cons r rs ih =>
    obtain ⟨hinc, hdec⟩ := step_lastLevels w n r
    rw [outputs, List.map_append, List.sum_append, ih, Net.acts, List.map_append, List.sum_append,
      shift_returns, zero_add, hinc, hdec]
    by_cases hbudget : 0 < r.budget
    · have hpolled : polled (r :: rs) = r :: polled rs := List.filter_cons_of_pos (by simpa)
      rw [if_pos hbudget, if_pos hbudget, if_pos hbudget, hpolled, List.map_cons, List.map_cons,
        fallingEdges_cons, fallingEdges_cons, shift_moves]
      push_cast
      abel
    · have hpolled : polled (r :: rs) = polled rs :=
        List.filter_cons_of_neg (by simpa using hbudget)
      rw [if_neg hbudget, if_neg hbudget, if_neg hbudget, hpolled]
      simp

end Edges

section Runs
variable (w : World) (eeprom : Eeprom) {rs : List Round}

theorem run_counter (halone : ∀ r ∈ rs, r.Alone) :
    (run (Net.step w) (.boot eeprom) rs).counter =
      run (step Decimal.saturate) ⟨(setup eeprom).settemperatureLo, []⟩
        (actHistory w eeprom rs) := by
  have hall : Along (Net.step w) (fun _ r => r.Alone) (.boot eeprom) rs :=
    along_of_forall_mem (fun r hr _ => halone r hr) _
  have hboot : (Net.boot eeprom).Sound := fun d hd => by cases hd
  exact run_simulates Net.counter Net.acts (fun n r hn _ => sound_step w r hn)
    (fun n r hn hr => step_counter w hn hr) hboot hall

/-- Once every saved value has come back, the lower set-point has counted the falling edges
less what the presses fell short of. -/
theorem settemperatureLo_run (halone : ∀ r ∈ rs, r.Alone)
    (hback : (run (Net.step w) (.boot eeprom) rs).returning = []) :
    (run (Net.step w) (.boot eeprom) rs).stat.settemperatureLo =
      (setup eeprom).settemperatureLo + (fallingEdges ((polled rs).map Round.inc) -
        fallingEdges ((polled rs).map Round.dec)) -
          (gaps Decimal.saturate ⟨(setup eeprom).settemperatureLo, []⟩
            (actHistory w eeprom rs)).sum := by
  have hsettled := settled_run Decimal.saturate ⟨(setup eeprom).settemperatureLo, []⟩
    (actHistory w eeprom rs)
  have hshift : ((actHistory w eeprom rs).map Act.shift).sum =
      (fallingEdges (false :: (polled rs).map Round.inc) : ℤ) -
        fallingEdges (false :: (polled rs).map Round.dec) := shift_outputs w (.boot eeprom) rs
  have hdrained : (run (Net.step w) (.boot eeprom) rs).counter.returning = [] :=
    congrArg (List.map Data.number) hback
  rw [← run_counter w eeprom halone, settled_of_drained hdrained, hshift, fallingEdges_false,
    fallingEdges_false] at hsettled
  exact hsettled

/-- The count is right when every press finds the newest value, with nothing newer on its way back,
and what it sends fits. -/
theorem presses_counted_of_prompt (halone : ∀ r ∈ rs, r.Alone)
    (hback : (run (Net.step w) (.boot eeprom) rs).returning = [])
    (hprompt : Along (step Decimal.saturate) (Prompt Decimal.saturate)
      ⟨(setup eeprom).settemperatureLo, []⟩ (actHistory w eeprom rs)) :
    (run (Net.step w) (.boot eeprom) rs).stat.settemperatureLo =
      (setup eeprom).settemperatureLo + (fallingEdges ((polled rs).map Round.inc) -
        fallingEdges ((polled rs).map Round.dec)) := by
  rw [settemperatureLo_run w eeprom halone hback, gaps_of_prompt hprompt, sub_zero]

end Runs

section Lost

/-- A release and a press during which nothing comes back. -/
def pressed : List Round :=
  [⟨1, [], .num 70, true, true⟩, ⟨1, [], .num 70, false, true⟩]

/-- The value of a press comes back. -/
def returned : Round := ⟨1, [none], .num 70, true, true⟩

/-- Two presses; the value of the first comes back before the second. -/
def countedRun : List Round := pressed ++ [returned] ++ pressed ++ [returned]

theorem presses_counted_of_prompt_countedRun :
    (run (Net.step everySecond) (.boot Eeprom.erased) countedRun).stat.settemperatureLo =
      55 + (2 - 0) :=
  presses_counted_of_prompt everySecond Eeprom.erased (by decide +kernel) (by decide +kernel)
    (by decide +kernel)

/-- Three presses; the value of the first comes back after the second, and undoes it. -/
def overtakenRun : List Round := pressed ++ pressed ++ [returned] ++ pressed ++ [returned, returned]

theorem overtakenRun_miscounts :
    (∀ r ∈ overtakenRun, r.Alone) ∧
      (run (Net.step everySecond) (.boot Eeprom.erased) overtakenRun).returning = [] ∧
      fallingEdges ((polled overtakenRun).map Round.inc) = 3 ∧
      fallingEdges ((polled overtakenRun).map Round.dec) = 0 ∧
      (run (Net.step everySecond) (.boot Eeprom.erased) overtakenRun).stat.settemperatureLo ≠
        (setup Eeprom.erased).settemperatureLo +
          fallingEdges ((polled overtakenRun).map Round.inc) -
          fallingEdges ((polled overtakenRun).map Round.dec) := by
  decide +kernel

end Lost

end Wyostat.ThermoCentral
