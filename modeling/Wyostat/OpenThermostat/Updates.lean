import Wyostat.OpenThermostat.Registers

/-! No update from the dashboard is lost as long as the device never reports a target that a
newer one on its way is about to replace. -/
namespace Wyostat.OpenThermostat
open Machine Replica

/-- The messages the clients published in a run, in order. -/
def clients (rs : List Round) : List Msg := rs.flatMap Round.clients

/-- No report of the round is stale. -/
structure Timely (w : World) (i : Fin 2) (n : Net) (r : Round) : Prop where
  target : n.Fresh acceptedTarget (·.targettemps i) w r
  away : n.Fresh acceptedAway (·.away) w r

instance (w : World) (i : Fin 2) (n : Net) (r : Round) : Decidable (Timely w i n r) :=
  decidable_of_iff
    (n.Fresh acceptedTarget (·.targettemps i) w r ∧ n.Fresh acceptedAway (·.away) w r)
    ⟨fun h => ⟨h.1, h.2⟩, fun h => ⟨h.target, h.away⟩⟩

section Writes
variable {α : Type*} {accept : Msg → Option α}

theorem written_fromClients (ms : List Msg) :
    (ms.map fromClient).filterMap Packet.written = ms := filterMap_written_map_false ms

theorem written_interleave (own : List Msg) (during : List (List Msg)) :
    (interleave (own.map fromDevice) (during.map (·.map fromClient))).filterMap Packet.written =
      during.flatten := by
  have hown : ∀ p ∈ own.map fromDevice, Packet.written p = none := by
    intro p hp
    obtain ⟨m, -, rfl⟩ := List.mem_map.mp hp
    rfl
  rw [filterMap_interleave hown, ← List.map_flatten, written_fromClients]

theorem written_forwarded (hsub : ∀ m, (accept m).isSome → m.topic ∈ subscribe)
    (ps : List (Packet Msg)) :
    ((forwarded ps).filterMap Packet.written).filterMap accept =
      (ps.filterMap Packet.written).filterMap accept := by
  rw [forwarded, filterMap_written_filter fun m : Msg => m.topic ∈ subscribe]
  exact filterMap_filter_of_isSome (fun m hm => decide_eq_true (hsub m hm)) _

theorem writes_acts (hsub : ∀ m, (accept m).isSome → m.topic ∈ subscribe) (w : World) (n : Net)
    (r : Round) : (n.acts accept w r).filterMap Act.written = r.clients.filterMap accept := by
  have hacts := written_turn accept (forwarded (r.before.map fromClient)) (n.head r)
    (n.arrivals w r)
  rw [List.filterMap_append, List.filterMap_append, Net.arrivals, written_forwarded hsub,
    written_forwarded hsub, written_fromClients, written_interleave,
    ← List.filterMap_append] at hacts
  exact hacts

theorem writes_outputs (hsub : ∀ m, (accept m).isSome → m.topic ∈ subscribe) (w : World) (n : Net)
    (rs : List Round) :
    (outputs (Net.step w) (Net.acts accept w) n rs).filterMap Act.written =
      (clients rs).filterMap accept := by
  induction rs generalizing n with
  | nil => rfl
  | cons r rs ih =>
    rw [outputs, List.filterMap_append, writes_acts hsub, ih, ← List.filterMap_append]
    rfl

/-- Along timely reports the newest value is the last one the clients published. -/
theorem newest_run_of_fresh {held : Stat → α} {w : World} {I : Net → Prop}
    (hsub : ∀ m, (accept m).isSome → m.topic ∈ subscribe)
    (hI : ∀ n r, I n → I (n.step w r))
    (hstep : ∀ n r, I n → (n.step w r).register accept held =
      run Replica.step (n.register accept held) (n.acts accept w r))
    {n : Net} {rs : List Round} (hn : I n)
    (hfresh : Along (Net.step w) (fun n r => n.Fresh accept held w r) n rs) :
    newest ((run (Net.step w) n rs).register accept held) =
      ((clients rs).filterMap accept).getLast?.getD (newest (n.register accept held)) := by
  have hsim : (run (Net.step w) n rs).register accept held =
      run Replica.step (n.register accept held) (outputs (Net.step w) (Net.acts accept w) n rs) :=
    run_simulates (Net.register accept held) (Net.acts accept w) (fun n r h _ => hI n r h)
      (fun n r h _ => hstep n r h) hn hfresh
  have halong : Along Replica.step Replica.Fresh (n.register accept held)
      (outputs (Net.step w) (Net.acts accept w) n rs) :=
    along_outputs (Net.register accept held) (Net.acts accept w) (fun n r h _ => hI n r h)
      (fun n r h _ => hstep n r h) (fun _ _ _ h => h) hn hfresh
  rw [hsim, newest_run halong, lastWrite, writes_outputs hsub]

end Writes

theorem acceptedTarget_subscribed (m : Msg) (h : (acceptedTarget m).isSome) :
    m.topic ∈ subscribe := by
  by_cases ht : m.topic = "wyostat.targettemp"
  · rw [ht]
    decide
  · simp [acceptedTarget_of_ne ht] at h

theorem acceptedAway_subscribed (m : Msg) (h : (acceptedAway m).isSome) :
    m.topic ∈ subscribe := by
  by_cases ha : m.topic = "wyostat.away"
  · rw [ha]
    decide
  · simp [acceptedAway, ha] at h

/-- After any prefix of a run, within one slot and without stale reports: once nothing is in
flight any more, the target is the last one in range that the clients published, and `away`
is the last value they published. -/
theorem no_update_lost {w : World} (hw : w.Online) (sensor : Reading ℚ) (eeprom : Eeprom)
    (pre rs : List Round) {i : Fin 2}
    (hslot : ∀ t, (run (Net.step w) (Net.boot w sensor eeprom) pre).stat.tick ≤ t →
      slotOf (w.hours t) = i)
    (htimely : Along (Net.step w) (Timely w i) (run (Net.step w) (Net.boot w sensor eeprom) pre) rs)
    (hdrained : (run (Net.step w) (Net.boot w sensor eeprom) (pre ++ rs)).inflight = []) :
    (∀ v, ((clients rs).filterMap acceptedTarget).getLast? = some v →
      getTargettemp w (run (Net.step w) (Net.boot w sensor eeprom) (pre ++ rs)).stat = v) ∧
    (∀ b, ((clients rs).filterMap acceptedAway).getLast? = some b →
      (run (Net.step w) (Net.boot w sensor eeprom) (pre ++ rs)).stat.away = b) := by
  rw [run_append] at hdrained ⊢
  have hn : (run (Net.step w) (Net.boot w sensor eeprom) pre).Within w i :=
    ⟨sound_run hw sensor eeprom pre, hslot⟩
  generalize run (Net.step w) (Net.boot w sensor eeprom) pre = n at *
  have hstep (n : Net) (r : Round) (h : n.Within w i) : (n.step w r).Within w i :=
    within_step hw h r
  have hend : (run (Net.step w) n rs).Within w i := (always_of_step hstep hn rs).last
  have htarget := newest_run_of_fresh (I := Net.Within w i) acceptedTarget_subscribed hstep
    (fun n r h => register_target_step hw h r) hn (htimely.mono fun _ _ h => h.target)
  have haway := newest_run_of_fresh (I := Net.Within w i) acceptedAway_subscribed hstep
    (fun n r h => register_away_step hw h.toSound r) hn (htimely.mono fun _ _ h => h.away)
  have hpending {α : Type} (accept : Msg → Option α) (held : Stat → α) :
      ((run (Net.step w) n rs).register accept held).pending = [] := by
    rw [Net.register, hdrained]
    rfl
  constructor
  · intro v hv
    rw [hv, ← held_of_drained (hpending _ _)] at htarget
    rw [getTargettemp, getTargetIndex, hend.slot _ le_rfl]
    exact htarget
  · intro b hb
    rw [hb, ← held_of_drained (hpending _ _)] at haway
    exact haway

section Dashboard

/-- A quiet round at 75 degrees, in which the oldest message is delivered. -/
def calm (before : List Msg) : Round := ⟨before, true, .num 75, 0, []⟩

def request : Msg := ⟨"wyostat.requesttemp", []⟩

def setTo70 : Msg := ⟨"wyostat.targettemp", ['7', '0']⟩

/-- The dashboard asks for the state once its update has arrived. -/
def promptRun : List Round :=
  [calm [setTo70], calm [], calm [request], calm [], calm []]

theorem no_update_lost_promptRun :
    getTargettemp stillWorld
      (run (Net.step stillWorld) (Net.boot stillWorld (.num 75) Eeprom.erased)
        ([] ++ promptRun)).stat = 70 :=
  (no_update_lost (i := 1) (fun _ => rfl) (.num 75) Eeprom.erased [] promptRun (fun _ _ => rfl)
    (by decide +kernel) (by decide +kernel)).1 70 (by decide +kernel)

/-- The dashboard asks for the state and then updates the target: the answer, with the old
target, is the last command the device receives. -/
def staleRun : List Round :=
  [calm [request, setTo70], calm [], calm [], calm [], calm []]

theorem staleRun_loses_update :
    stillWorld.Online ∧ (∀ t, slotOf (stillWorld.hours t) = 1) ∧
      (run (Net.step stillWorld) (Net.boot stillWorld (.num 75) Eeprom.erased) staleRun).inflight
        = [] ∧
      ((clients staleRun).filterMap acceptedTarget).getLast? = some 70 ∧
      getTargettemp stillWorld
        (run (Net.step stillWorld) (Net.boot stillWorld (.num 75) Eeprom.erased) staleRun).stat
        ≠ 70 :=
  ⟨fun _ => rfl, fun _ => rfl, by decide +kernel⟩

end Dashboard

end Wyostat.OpenThermostat
