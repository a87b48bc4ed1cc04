import Wyostat.MqttStat.Broker

/-! A pair of set-points sent to the mqtt_stat sketch: the report that answers a lower set-point
above the old upper one must not come in behind the new upper one. -/
namespace Wyostat.MqttStat
open Machine Replica

/-- Both set-points are sent, in either order, and nothing else that the device listens to. -/
def SetsPair (lo hi : ℤ) (ms : List Msg) : Prop :=
  ∃ p q, bytes2int p = lo ∧ bytes2int q = hi ∧
    (ms.filter (·.topic ∈ subscribe) = [⟨"wyostat.settemplo", p⟩, ⟨"wyostat.settemphi", q⟩] ∨
      ms.filter (·.topic ∈ subscribe) = [⟨"wyostat.settemphi", q⟩, ⟨"wyostat.settemplo", p⟩])

/-- Whenever the device reports its upper set-point during a round, nothing newer than the value
it holds is on its way to it. -/
def Net.Timely (w : World) (n : Net) (r : Round) : Prop :=
  Along Replica.step Fresh (n.register "wyostat.settemphi" Stat.settemphi)
    (n.acts w "wyostat.settemphi" r)

instance (w : World) (n : Net) (r : Round) : Decidable (n.Timely w r) :=
  inferInstanceAs (Decidable (Along _ _ _ _))

section Writes
variable {topic : String}

theorem accepted_subscribed (htopic : topic ∈ subscribe) (m : Msg)
    (h : (accepted topic m).isSome) : decide (m.topic ∈ subscribe) := by
  unfold accepted at h
  split_ifs at h with hm
  · rw [hm.1]
    exact decide_eq_true htopic
  · cases h

theorem accepted_filter (htopic : topic ∈ subscribe) (ms : List Msg) :
    (ms.filter (·.topic ∈ subscribe)).filterMap (accepted topic) = ms.filterMap (accepted topic) :=
  filterMap_filter_of_isSome (accepted_subscribed htopic) ms

theorem written_forwarded (htopic : topic ∈ subscribe) (ps : List (Packet Msg)) :
    ((forwarded ps).filterMap Packet.written).filterMap (accepted topic) =
      (ps.filterMap Packet.written).filterMap (accepted topic) := by
  rw [forwarded, filterMap_written_filter (fun m : Msg => m.topic ∈ subscribe),
    accepted_filter htopic]

theorem writes_acts (htopic : topic ∈ subscribe) (w : World) (n : Net) (r : Round) :
    (n.acts w topic r).filterMap Act.written = r.clients.filterMap (accepted topic) := by
  have hown (ms : List Msg) : ∀ p ∈ ms.map (Packet.mk true), Packet.written p = none := by
    intro p hp
    obtain ⟨m, -, rfl⟩ := List.mem_map.mp hp
    rfl
  rw [Net.acts, written_turn, List.filterMap_append, List.filterMap_append, Round.sent,
    Net.arrivals, written_forwarded htopic, written_forwarded htopic,
    filterMap_interleave (hown _), ← List.map_flatten, filterMap_written_map_false,
    filterMap_written_map_false, Round.clients, List.filterMap_append]

theorem writes_outputs (htopic : topic ∈ subscribe) (w : World) (n : Net) (rs : List Round) :
    (outputs (Net.step w) (Net.acts w topic) n rs).filterMap Act.written =
      (clients rs).filterMap (accepted topic) := by
  induction rs generalizing n with
  | nil => rfl
  | cons r rs ih =>
    rw [outputs, List.filterMap_append, writes_acts htopic, ih, ← List.filterMap_append]
    rfl

end Writes

section Reports

/-- A message on the topic of the lower set-point. -/
def IsLo (m : Msg) : Bool := m.topic = "wyostat.settemplo"

/-- The lower set-points in flight. -/
def Net.awaited (n : Net) : ℕ := n.inflight.countP fun p => IsLo p.value

variable (w : World) (n : Net) (r : Round)

theorem head_append_rest : (n.head w r).toList ++ n.rest w r = n.inflight ++ r.sent := by
  unfold Net.head Net.rest
  split_ifs
  · cases n.inflight ++ r.sent <;> rfl
  · rfl

theorem countP_forwarded_le (q : Msg → Bool) (ms : List Msg) :
    (forwarded (ms.map (Packet.mk false))).countP (fun p => q p.value) ≤ ms.countP q := by
  apply List.filter_sublist.countP_le.trans
  rw [List.countP_map]
  rfl

theorem settemplo_not_reported : (n.acts w "wyostat.settemplo" r).countP Act.isReport = 0 := by
  rw [Net.acts, reports_turn, List.countP_eq_zero]
  intro q hq hown
  obtain ⟨p, hp, hpq⟩ := List.mem_filterMap.mp hq
  obtain ⟨v, hv, rfl⟩ := Option.map_eq_some_iff.mp hpq
  rcases List.mem_append.mp hp with hp | hp
  · rw [own_of_mem_sent r hp] at hown
    cases hown
  · rw [own_arrival w n r hp hown] at hv
    cases hv

theorem reports_step_le :
    (n.acts w "wyostat.settemphi" r).countP Act.isReport + (n.step w r).awaited ≤
      n.awaited + r.clients.countP IsLo := by
  obtain ⟨ms, hsays, hms⟩ := says_next w n r
  have hperm := arrivals_perm w n r hsays
  have hclients (ms : List Msg) :
      (forwarded (ms.map (Packet.mk false))).countP Packet.own = 0 := by
    apply List.countP_eq_zero.mpr
    intro p hp
    obtain ⟨m, -, rfl⟩ := List.mem_map.mp (List.mem_filter.mp hp).1
    exact Bool.false_ne_true
  have hreports : (n.acts w "wyostat.settemphi" r).countP Act.isReport ≤ ms.length := by
    rw [Net.acts, reports_turn]
    apply (own_filterMap_le _).trans
    rw [List.countP_append, Round.sent, hclients, hperm.countP_eq, List.countP_append, hclients,
      List.countP_map]
    simpa using List.countP_le_length
  have hanswers : ms.length ≤ (n.head w r).toList.countP (fun p => IsLo p.value) ∧
      (ms.map (Packet.mk true)).countP (fun p => IsLo p.value) = 0 := by
    rcases hms with rfl | ⟨rfl, p, hp, htopic⟩
    · exact ⟨Nat.zero_le _, rfl⟩
    · rw [Option.mem_def.mp hp]
      refine ⟨?_, rfl⟩
      simp [IsLo, htopic]
  have hqueue := congrArg (List.countP fun p : Packet Msg => IsLo p.value)
    (head_append_rest w n r)
  have hbefore := countP_forwarded_le IsLo r.before
  have hduring := countP_forwarded_le IsLo r.during.flatten
  have harrivals := hperm.countP_eq fun p => IsLo p.value
  simp only [List.countP_append, Round.sent] at hqueue harrivals
  simp only [Net.awaited, Net.step, Round.clients, List.countP_append]
  omega

/-- A run without messages in flight at its start reports at most once for each lower
set-point that the clients send. -/
theorem reports_run_le (w : World) (s : Stat) (rs : List Round) :
    (outputs (Net.step w) (Net.acts w "wyostat.settemphi") ⟨s, []⟩ rs).countP Act.isReport ≤
      (clients rs).countP IsLo := by
  have hrun := countP_outputs_le (reports_step_le w) (⟨s, []⟩ : Net) rs
  have hsum : (rs.map fun r => r.clients.countP IsLo).sum = (clients rs).countP IsLo :=
    List.countP_flatMap.symm
  have hnone : Net.awaited ⟨s, []⟩ = 0 := rfl
  omega

end Reports

section Pair
variable {lo hi : ℤ} {ms : List Msg}

theorem settemplo_subscribed : "wyostat.settemplo" ∈ subscribe := by decide

theorem settemphi_subscribed : "wyostat.settemphi" ∈ subscribe := by decide

theorem SetsPair.writes (h : SetsPair lo hi ms) (hlo : InRange lo) (hhi : InRange hi) :
    ms.filterMap (accepted "wyostat.settemplo") = [lo] ∧
      ms.filterMap (accepted "wyostat.settemphi") = [hi] ∧ ms.countP IsLo = 1 := by
  obtain ⟨p, q, rfl, rfl, hms⟩ := h
  have hcount : ms.countP IsLo = (ms.filter (·.topic ∈ subscribe)).countP IsLo := by
    rw [List.countP_filter]
    apply List.countP_congr
    intro m _
    simp only [IsLo, Bool.and_eq_true, decide_eq_true_eq]
    constructor
    · intro hm
      exact ⟨hm, by rw [hm]; decide⟩
    · exact And.left
  rw [← accepted_filter settemplo_subscribed, ← accepted_filter settemphi_subscribed, hcount]
  rcases hms with hms | hms <;> rw [hms] <;> simp [accepted, hlo, hhi, IsLo]

end Pair

/-- From any state, when a client sends both set-points in either order: once nothing is in
flight any more, the device holds both exactly when no report of it was stale. -/
theorem pair_taken_iff (w : World) (s : Stat) {lo hi : ℤ} (hlo : InRange lo) (hhi : InRange hi)
    {rs : List Round} (hpair : SetsPair lo hi (clients rs))
    (hdrained : (run (Net.step w) ⟨s, []⟩ rs).inflight = []) :
    ((run (Net.step w) ⟨s, []⟩ rs).stat.settemplo = lo ∧
        (run (Net.step w) ⟨s, []⟩ rs).stat.settemphi = hi) ↔
      Along (Net.step w) (Net.Timely w) ⟨s, []⟩ rs := by
  obtain ⟨hwlo, hwhi, hcount⟩ := hpair.writes hlo hhi
  have hend (topic : String) (held : Stat → ℤ) :
      held (run (Net.step w) ⟨s, []⟩ rs).stat =
        newest ((run (Net.step w) ⟨s, []⟩ rs).register topic held) := by
    refine held_of_drained (r := Net.register topic held _) ?_
    rw [Net.register, hdrained]
    rfl
  have hsettemplo : (run (Net.step w) ⟨s, []⟩ rs).stat.settemplo = lo := by
    have hsim := run_simulates_of_step (Net.register "wyostat.settemplo" Stat.settemplo)
      (Net.acts w "wyostat.settemplo") (register_settemplo_step w) ⟨s, []⟩ rs
    have hfresh := (along_outputs_iff _ _ (register_settemplo_step w) ⟨s, []⟩ rs).mpr
      (along_of_forall_mem (fun r _ n => fresh_of_no_report (settemplo_not_reported w n r) _) _)
    rw [hend "wyostat.settemplo" Stat.settemplo, hsim, newest_run hfresh, lastWrite,
      writes_outputs settemplo_subscribed, hwlo]
    rfl
  have hsettemphi : (run (Net.step w) ⟨s, []⟩ rs).stat.settemphi = hi ↔
      Along (Net.step w) (Net.Timely w) ⟨s, []⟩ rs := by
    have hsim := run_simulates_of_step (Net.register "wyostat.settemphi" Stat.settemphi)
      (Net.acts w "wyostat.settemphi") (register_settemphi_step w) ⟨s, []⟩ rs
    have hwrites := writes_outputs settemphi_subscribed w ⟨s, []⟩ rs
    have hreports := reports_run_le w s rs
    rw [hcount] at hreports
    rw [hwhi] at hwrites
    have hcalm : Calm (Net.register "wyostat.settemphi" Stat.settemphi ⟨s, []⟩) := by
      intro p hp
      cases hp
    rw [hend "wyostat.settemphi" Stat.settemphi, hsim, newest_run_eq_iff hcalm hwrites hreports]
    exact along_outputs_iff _ _ (register_settemphi_step w) _ rs
  exact (and_iff_right hsettemplo).trans hsettemphi

section Dashboard

/-- A quiet round at 60 degrees, in which the oldest message is delivered. -/
def quiet (before : List Msg) : Round := ⟨before, true, .num 60, 0, []⟩

def lo85 : Msg := ⟨"wyostat.settemplo", ['8', '5']⟩

def hi90 : Msg := ⟨"wyostat.settemphi", ['9', '0']⟩

/-- The upper set-point is sent once the lower one has been answered. -/
def answeredRun : List Round := [quiet [lo85], quiet [hi90], quiet []]

theorem pair_taken_iff_answeredRun :
    (run (Net.step ⟨fun _ => true, 0⟩) ⟨setup Eeprom.erased, []⟩ answeredRun).stat.settemplo = 85 ∧
      (run (Net.step ⟨fun _ => true, 0⟩) ⟨setup Eeprom.erased, []⟩ answeredRun).stat.settemphi
        = 90 :=
  (pair_taken_iff ⟨fun _ => true, 0⟩ (setup Eeprom.erased) (by decide) (by decide)
    ⟨['8', '5'], ['9', '0'], by decide, by decide, .inl (by decide)⟩ (by decide +kernel)).mpr
    (by decide +kernel)

/-- Both set-points are sent at once: the answer to the lower one, which is the old upper one,
is the last command the device receives. -/
def overtakenRun : List Round := [quiet [lo85, hi90], quiet [], quiet []]

theorem overtakenRun_loses_settemphi :
    (setup Eeprom.erased).settemplo ≤ (setup Eeprom.erased).settemphi ∧ InRange 85 ∧ InRange 90 ∧
      SetsPair 85 90 (clients overtakenRun) ∧
      (run (Net.step ⟨fun _ => true, 0⟩) ⟨setup Eeprom.erased, []⟩ overtakenRun).inflight = [] ∧
      (run (Net.step ⟨fun _ => true, 0⟩) ⟨setup Eeprom.erased, []⟩ overtakenRun).stat.settemphi
        = 80 :=
  ⟨by decide, by decide, by decide,
    ⟨['8', '5'], ['9', '0'], by decide, by decide, .inl (by decide)⟩, by decide +kernel,
    by decide +kernel⟩

end Dashboard

end Wyostat.MqttStat
