import Wyostat.OpenThermostat.Updates

/-! How often the AC can switch in cooling mode: every switch is paid for by a client message,
as long as no echo of the device brings an old target back. -/
namespace Wyostat.OpenThermostat
open Machine Output Replica

/-- How often the AC output has switched. -/
def acSwitches (s : Stat) : ℕ := (switches .acSCR (writes s.log)).length

/-- What cooling mode makes of the AC at home. -/
def acDemand (temp : ℤ) (target : UInt8) (acState : Bool) : Bool :=
  if target.toNat < temp then true
  else if temp ≤ target.toNat - hilogap then false
  else acState

theorem acDemand_idem (temp : ℤ) (target : UInt8) (acState : Bool) :
    acDemand temp target (acDemand temp target acState) = acDemand temp target acState := by
  unfold acDemand
  split_ifs <;> rfl

section Switches
variable {w : World} {s t : Stat}

theorem acSwitches_of_relays (h : t.relays = s.relays) : acSwitches t = acSwitches s := by
  rw [acSwitches, acSwitches, (Stat.relays_eq h).2.2.2.2]

@[simp] theorem acSwitches_setFurnace (b : Bool) :
    acSwitches (setFurnace w b s) = acSwitches s := by
  by_cases hb : b = s.furnaceState
  · subst hb; rw [setFurnace_self]
  · by_cases hr : Refuses w s
    · rw [setFurnace_refused hb hr]; rfl
    · have hwr : writes (setFurnace w b s).log = ⟨.furnaceSCR, b, s.tick + 1⟩ :: writes s.log :=
        congrArg Relays.writes (setFurnace_accepted hb hr).1
      rw [acSwitches, hwr, switches_cons_of_ne (by decide), acSwitches]

@[simp] theorem acSwitches_setFan (b : Bool) : acSwitches (setFan w b s) = acSwitches s := by
  by_cases hb : b = s.fanState
  · subst hb; rw [setFan_self]
  · have hwr : writes (setFan w b s).log = ⟨.fanSCR, b, s.tick + 1⟩ :: writes s.log :=
      congrArg Relays.writes (setFan_changed hb).1
    rw [acSwitches, hwr, switches_cons_of_ne (by decide), acSwitches]

theorem acSwitches_setAc (b : Bool) (h : s.relays.Tracked) :
    acSwitches (setAc w b s) = acSwitches s + if b = s.acState then 0 else 1 := by
  by_cases hb : b = s.acState
  · subst hb; rw [setAc_self, if_pos rfl, Nat.add_zero]
  · have hwr : writes (setAc w b s).log = ⟨.acSCR, b, s.tick⟩ :: writes s.log :=
      congrArg Relays.writes (setAc_changed hb).1
    have hne : b ≠ level .acSCR (writes s.log) := fun h' => hb (h'.trans h.ac)
    rw [acSwitches, hwr, switches_cons_self _ _ hne, if_neg hb, List.length_cons, acSwitches]

theorem tick_le_setFurnace (b : Bool) : s.tick ≤ (setFurnace w b s).tick := by
  by_cases hb : b = s.furnaceState
  · subst hb; rw [setFurnace_self]
  · by_cases hr : Refuses w s
    · rw [setFurnace_refused hb hr]; exact Nat.le_succ _
    · rw [(setFurnace_accepted hb hr).2]; omega

end Switches

theorem cooling_home {w : World} {s : Stat} {i : Fin 2} (haway : s.away = false)
    (hslot : ∀ t, s.tick ≤ t → slotOf (w.hours t) = i) (htracked : s.relays.Tracked) :
    (cooling w s).acState =
        acDemand (truncate w.intOfNan s.localtemp) (s.targettemps i) s.acState ∧
      acSwitches (cooling w s) = acSwitches s +
        if acDemand (truncate w.intOfNan s.localtemp) (s.targettemps i) s.acState = s.acState
        then 0 else 1 := by
  have htick : s.tick ≤ (setFurnace w false s).tick := tick_le_setFurnace false
  have hac : (setFurnace w false s).acState = s.acState := setFurnace_acState ..
  have hsw : acSwitches (setFurnace w false s) = acSwitches s := acSwitches_setFurnace false
  have ht : (setFurnace w false s).relays.Tracked := tracked_setFurnace false s htracked
  obtain ⟨hlocal, hhome, htargets, -⟩ := Stat.settings_eq (setFurnace_settings w s false)
  unfold cooling acDemand
  dsimp only
  rw [← hlocal, ← htargets, ← hac, ← hsw]
  rw [← hhome] at haway
  generalize setFurnace w false s = u at *
  have hnow : getTargettemp w u = u.targettemps i :=
    congrArg u.targettemps (hslot _ htick)
  have hnext : getTargettemp w u.tock = u.targettemps i :=
    congrArg u.targettemps (hslot _ (htick.trans (Nat.le_succ _)))
  rw [if_neg (by simp [haway]), hnow, hnext]
  by_cases hhot : ((u.targettemps i).toNat : ℤ) < truncate w.intOfNan u.localtemp
  · simp only [if_pos hhot]
    exact ⟨by simp, by rw [acSwitches_setFan, acSwitches_setAc true (s := u.tock) ht]; rfl⟩
  · simp only [if_neg hhot]
    have hlocal' : u.tock.localtemp = u.localtemp := rfl
    rw [hlocal']
    by_cases hcold : truncate w.intOfNan u.localtemp ≤ (u.targettemps i).toNat - hilogap
    · simp only [if_pos hcold]
      exact ⟨by simp, by rw [acSwitches_setFan, acSwitches_setAc false (s := u.tock.tock) ht]; rfl⟩
    · simp only [if_neg hcold, if_true, Nat.add_zero]
      exact ⟨rfl, rfl⟩

/-- The settings under which the control section of a round runs: cooling mode at home and at
temperature `x`. -/
structure CoolsAtHome (w : World) (x : Reading ℚ) (n : Net) (r : Round) : Prop where
  temp : (n.next w r).localtemp = x
  mode : (n.next w r).mode = 'c'
  home : (n.next w r).away = false

instance (w : World) (x : Reading ℚ) (n : Net) (r : Round) : Decidable (CoolsAtHome w x n r) :=
  decidable_of_iff
    ((n.next w r).localtemp = x ∧ (n.next w r).mode = 'c' ∧ (n.next w r).away = false)
    ⟨fun h => ⟨h.1, h.2.1, h.2.2⟩, fun h => ⟨h.temp, h.mode, h.home⟩⟩

theorem next_cooling {w : World} {i : Fin 2} {x : Reading ℚ} {n : Net} {r : Round}
    (hn : n.Within w i) (htracked : n.stat.relays.Tracked) (hcool : CoolsAtHome w x n r) :
    (n.next w r).acState =
        acDemand (truncate w.intOfNan x) ((n.next w r).targettemps i) n.stat.acState ∧
      acSwitches (n.next w r) = acSwitches n.stat +
        if acDemand (truncate w.intOfNan x) ((n.next w r).targettemps i) n.stat.acState =
          n.stat.acState then 0 else 1 := by
  obtain ⟨htemp, hmode, hhome⟩ := hcool
  obtain ⟨h₁, h₂, h₃, h₄⟩ := Stat.settings_eq (iterate_settings w n.stat (n.iteration r))
  have hrelays := receive_relays w n.stat (n.iteration r)
  have htick := tick_le_receive w n.stat (n.iteration r)
  rw [Net.next] at htemp hmode hhome ⊢
  rw [h₁] at htemp
  rw [h₂] at hhome
  have hfinish : (iterate w n.stat (n.iteration r)).relays =
      (control w (receive w (n.iteration r) n.stat)).relays := finish_relays ..
  rw [acSwitches_of_relays hfinish, (Stat.relays_eq hfinish).2.1, h₃,
    ← acSwitches_of_relays hrelays, ← (Stat.relays_eq hrelays).2.1, ← htemp]
  have hmode' : (receive w (n.iteration r) n.stat).mode = 'c' := by
    simpa only [Stat.mode, h₄] using hmode
  rw [control, if_neg (by rw [hmode']; decide), if_pos hmode']
  exact cooling_home hhome (fun t ht => hn.slot t (htick.trans ht)) (hrelays ▸ htracked)

section Payments

/-- The client messages in flight. -/
def Net.unpaid (n : Net) : ℕ := (n.inflight.filterMap Packet.written).length

theorem written_forwarded_le (ps : List (Packet Msg)) :
    ((forwarded ps).filterMap Packet.written).length ≤ (ps.filterMap Packet.written).length :=
  (List.filter_sublist.filterMap _).length_le

/-- The client messages in flight after a round: the ones that were, the ones of the round,
less the one handed over. -/
theorem unpaid_step_le (w : World) (n : Net) (r : Round) :
    (n.step w r).unpaid ≤
      ((n.rest r).filterMap Packet.written).length + r.during.flatten.length := by
  have harrivals :
      ((n.arrivals w r).filterMap Packet.written).length ≤ r.during.flatten.length := by
    apply (written_forwarded_le _).trans_eq
    rw [written_interleave]
  rw [Net.unpaid, Net.step, List.filterMap_append, List.length_append]
  omega

theorem written_queue_le (n : Net) (r : Round) :
    ((n.queue r).filterMap Packet.written).length ≤ n.unpaid + r.before.length := by
  have hbefore : ((forwarded (r.before.map fromClient)).filterMap Packet.written).length ≤
      r.before.length := by
    apply (written_forwarded_le _).trans_eq
    rw [written_fromClients]
  rw [Net.queue, List.filterMap_append, List.length_append, Net.unpaid]
  omega

variable {w : World} {i : Fin 2} {n : Net} {r : Round}

theorem target_unchanged_or_paid (hw : w.Online) (hn : n.Within w i)
    (hsettled : Settled (n.register acceptedTarget (·.targettemps i))) :
    ((n.next w r).targettemps i = n.stat.targettemps i ∧
        ((n.rest r).filterMap Packet.written).length ≤
          ((n.queue r).filterMap Packet.written).length) ∨
      ((n.rest r).filterMap Packet.written).length + 1 ≤
        ((n.queue r).filterMap Packet.written).length := by
  -- client messages never unsettle the channel, so neither does the queue of this round
  have hqueue : Repeats (n.stat.targettemps i) (Packet.filterMap acceptedTarget (n.queue r)) := by
    rw [Net.queue, Packet.filterMap_append]
    exact repeats_append_writes hsettled fun q hq =>
      own_of_mem_filterMap (fun _ => own_of_mem_forwarded) hq
  rw [next_target hw hn, Net.rest, Net.head]
  cases r.deliver with
  | false => exact .inl ⟨rfl, le_rfl⟩
  | true =>
    cases hq : n.queue r with
    | nil => exact .inl ⟨rfl, le_rfl⟩
    | cons p rest =>
      rw [hq, Packet.filterMap_cons] at hqueue
      cases hp : p.own with
      | false =>
        right
        simp [Packet.written, hp]
      | true =>
        left
        refine ⟨?_, by simp [Packet.written, hp]⟩
        cases hv : acceptedTarget p.value with
        | none => simp [hv]
        | some v =>
          rw [hv] at hqueue
          simpa [hv] using hqueue.1 hp

/-- The AC is not in the state it would settle in. -/
def unrest (w : World) (i : Fin 2) (x : Reading ℚ) (s : Stat) : ℕ :=
  if acDemand (truncate w.intOfNan x) (s.targettemps i) s.acState = s.acState then 0 else 1

theorem unrest_le_one (w : World) (i : Fin 2) (x : Reading ℚ) (s : Stat) :
    unrest w i x s ≤ 1 := by
  unfold unrest
  split_ifs <;> omega

/-- One step of the amortized count: a switch is paid for by a client message that was handed
over or, once, by an AC that had not settled yet. -/
theorem pay_step (hw : w.Online) {x : Reading ℚ} (hn : n.Within w i)
    (htracked : n.stat.relays.Tracked)
    (hsettled : Settled (n.register acceptedTarget (·.targettemps i)))
    (hcool : CoolsAtHome w x n r) :
    acSwitches (n.step w r).stat + (n.step w r).unpaid + unrest w i x (n.step w r).stat ≤
      acSwitches n.stat + n.unpaid + unrest w i x n.stat + r.clients.length := by
  obtain ⟨hac, hswitches⟩ := next_cooling hn htracked hcool
  have hunpaid := unpaid_step_le w n r
  have hqueue := written_queue_le n r
  have hclients : r.clients.length = r.before.length + r.during.flatten.length :=
    List.length_append
  have hrest : unrest w i x (n.next w r) = 0 := by
    rw [unrest, hac, acDemand_idem, if_pos rfl]
  have hone := unrest_le_one w i x n.stat
  have hstat : (n.step w r).stat = n.next w r := rfl
  rw [hstat, hrest, hswitches]
  rcases target_unchanged_or_paid (r := r) hw hn hsettled with ⟨htarget, hle⟩ | hpaid
  · rw [htarget]
    have hdirty : (if acDemand (truncate w.intOfNan x) (n.stat.targettemps i) n.stat.acState =
        n.stat.acState then 0 else 1) = unrest w i x n.stat := rfl
    rw [hdirty]
    omega
  · split_ifs <;> omega

end Payments

theorem tracked_run (w : World) (sensor : Reading ℚ) (eeprom : Eeprom) (rs : List Round) :
    (run (Net.step w) (Net.boot w sensor eeprom) rs).stat.relays.Tracked := by
  have hstep (n : Net) (r : Round) (h : n.stat.relays.Tracked) :
      (n.step w r).stat.relays.Tracked := tracked_iterate n.stat _ h
  have hboot : (Net.boot w sensor eeprom).stat.relays.Tracked := tracked_setup ..
  exact (always_of_step (P := fun n : Net => n.stat.relays.Tracked) hstep hboot rs).last

/-- In a run of cooling rounds at a constant temperature, at home and within one slot, the AC
switches at most once more often than clients have published, counting the client messages in
flight at the start, as long as no report is stale. -/
theorem ac_switches_bounded {w : World} (hw : w.Online) (sensor : Reading ℚ) (eeprom : Eeprom)
    (pre rs : List Round) {i : Fin 2} {x : Reading ℚ}
    (hslot : ∀ t, (run (Net.step w) (Net.boot w sensor eeprom) pre).stat.tick ≤ t →
      slotOf (w.hours t) = i)
    (hsettled : Settled ((run (Net.step w) (Net.boot w sensor eeprom) pre).register
      acceptedTarget (·.targettemps i)))
    (hcool : Along (Net.step w)
      (fun n r => CoolsAtHome w x n r ∧ n.Fresh acceptedTarget (·.targettemps i) w r)
      (run (Net.step w) (Net.boot w sensor eeprom) pre) rs) :
    acSwitches (run (Net.step w) (Net.boot w sensor eeprom) (pre ++ rs)).stat ≤
      acSwitches (run (Net.step w) (Net.boot w sensor eeprom) pre).stat +
        ((run (Net.step w) (Net.boot w sensor eeprom) pre).unpaid + (clients rs).length) + 1 := by
  rw [run_append]
  have hn : (run (Net.step w) (Net.boot w sensor eeprom) pre).Within w i :=
    ⟨sound_run hw sensor eeprom pre, hslot⟩
  have htracked := tracked_run w sensor eeprom pre
  generalize run (Net.step w) (Net.boot w sensor eeprom) pre = n at *
  let total (n : Net) : ℕ := acSwitches n.stat + n.unpaid + unrest w i x n.stat
  let Kept (n : Net) : Prop := n.Within w i ∧ n.stat.relays.Tracked ∧
    Settled (n.register acceptedTarget (·.targettemps i))
  have hkept (n : Net) (r : Round) (h : Kept n)
      (hc : CoolsAtHome w x n r ∧ n.Fresh acceptedTarget (·.targettemps i) w r) :
      Kept (n.step w r) := by
    refine ⟨within_step hw h.1 r, tracked_iterate n.stat _ h.2.1, ?_⟩
    rw [register_target_step hw h.1]
    exact settled_run h.2.2 hc.2
  have hbound : total (run (Net.step w) n rs) ≤ total n + (rs.map fun r => r.clients.length).sum :=
    potential_run_le hkept (fun n r h hc => pay_step hw h.1 h.2.1 h.2.2 hc.1)
      ⟨hn, htracked, hsettled⟩ hcool
  have hone := unrest_le_one w i x n.stat
  have hlength : (clients rs).length = (rs.map fun r => r.clients.length).sum :=
    List.length_flatMap
  simp only [total] at hbound
  omega

section Oscillation

/-- A round at 70 degrees, in which the oldest message is delivered. -/
def warm (before : List Msg) : Round := ⟨before, true, .num 70, 0, []⟩

def setTo80 : Msg := ⟨"wyostat.targettemp", ['8', '0']⟩

/-- The dashboard chooses cooling mode; the AC starts for a target of 68. -/
def startRun : List Round :=
  [warm [⟨"wyostat.hvacmode", ['c', 'o', 'o', 'l']⟩], warm [], warm [], warm []]

/-- Then the target is set to 80. -/
def settleRun : List Round := [warm [setTo80], warm [], warm []]

theorem ac_switches_bounded_settleRun :
    acSwitches (run (Net.step stillWorld) (Net.boot stillWorld (.num 70) Eeprom.erased)
        (startRun ++ settleRun)).stat ≤
      acSwitches (run (Net.step stillWorld) (Net.boot stillWorld (.num 70) Eeprom.erased)
          startRun).stat +
        ((run (Net.step stillWorld) (Net.boot stillWorld (.num 70) Eeprom.erased)
            startRun).unpaid + (clients settleRun).length) + 1 :=
  ac_switches_bounded (i := 1) (x := .num 70) (fun _ => rfl) (.num 70) Eeprom.erased startRun
    settleRun (fun _ _ => rfl) (by decide +kernel) (by decide +kernel)

/-- The dashboard asks for the state and sets the target to 80: from then on the old and the
new target follow each other through the broker. -/
def echoRun : List Round := warm [request, setTo80] :: List.replicate 7 (warm [])

theorem echoRun_switches_four_times :
    stillWorld.Online ∧ (∀ t, slotOf (stillWorld.hours t) = 1) ∧
      (run (Net.step stillWorld) (Net.boot stillWorld (.num 70) Eeprom.erased)
        startRun).inflight = [] ∧
      Along (Net.step stillWorld) (CoolsAtHome stillWorld (.num 70))
        (run (Net.step stillWorld) (Net.boot stillWorld (.num 70) Eeprom.erased) startRun)
        echoRun ∧
      (clients echoRun).length = 2 ∧
      ¬ acSwitches (run (Net.step stillWorld) (Net.boot stillWorld (.num 70) Eeprom.erased)
          (startRun ++ echoRun)).stat ≤
        acSwitches (run (Net.step stillWorld) (Net.boot stillWorld (.num 70) Eeprom.erased)
          startRun).stat + 2 + 1 :=
  ⟨fun _ => rfl, fun _ => rfl, by decide +kernel⟩

end Oscillation

end Wyostat.OpenThermostat
