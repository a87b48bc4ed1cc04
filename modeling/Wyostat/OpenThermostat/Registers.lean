import Wyostat.OpenThermostat.Reports

/-! The target of a slot and `away` are registers written through the broker: every round of
the device is a run of the abstract register. -/
namespace Wyostat.OpenThermostat
open Machine Replica

variable {α : Type*} (accept : Msg → Option α) (held : Stat → α)

/-- The register the device keeps for the messages that `accept` reads. -/
def Net.register (n : Net) : Register α := ⟨held n.stat, Packet.filterMap accept n.inflight⟩

/-- What a round does to the register: client messages are written, the oldest message in
flight is delivered, and the messages of the iteration follow. -/
def Net.acts (w : World) (n : Net) (r : Round) : List (Act α) :=
  (Packet.filterMap accept (forwarded (r.before.map fromClient))).map Packet.act ++
    (if ((n.head r).bind fun p => accept p.value).isSome then [.deliver] else []) ++
    (Packet.filterMap accept (n.arrivals w r)).map Packet.act

/-- Whenever the device reports the register during a round, nothing newer than the value it
holds is on its way to it. -/
def Net.Fresh (w : World) (n : Net) (r : Round) : Prop :=
  Along Replica.step Replica.Fresh (n.register accept held) (n.acts accept w r)

instance [DecidableEq α] (w : World) (n : Net) (r : Round) : Decidable (n.Fresh accept held w r) :=
  inferInstanceAs (Decidable (Along _ _ _ _))

section Simulation
variable {accept held} {w : World} {n : Net} {r : Round}

theorem own_of_mem_forwarded {ms : List Msg} {p : Packet Msg}
    (h : p ∈ forwarded (ms.map fromClient)) : p.own = false := by
  obtain ⟨m, -, rfl⟩ := List.mem_map.mp (List.mem_filter.mp h).1
  rfl

theorem register_step
    (hheld : held (n.next w r) = ((n.head r).bind fun p => accept p.value).getD (held n.stat))
    (hreport : ∀ p ∈ n.arrivals w r, p.own = true → ∀ v ∈ accept p.value, v = held (n.next w r)) :
    (n.step w r).register accept held =
      run Replica.step (n.register accept held) (n.acts accept w r) :=
  (run_turn (fun _ => own_of_mem_forwarded) hheld hreport).symm

end Simulation

section Arrivals

theorem mem_news_of_own {w : World} {n : Net} {r : Round} {p : Packet Msg}
    (hp : p ∈ n.arrivals w r) (hown : p.own = true) : p.value ∈ news n.stat (n.next w r) := by
  rcases mem_interleave.mp (List.mem_filter.mp hp).1 with hd | hc
  · obtain ⟨m, hm, rfl⟩ := List.mem_map.mp hd
    exact hm
  · obtain ⟨ms, hms, hp⟩ := List.mem_flatten.mp hc
    obtain ⟨l, -, rfl⟩ := List.mem_map.mp hms
    obtain ⟨m, -, rfl⟩ := List.mem_map.mp hp
    cases hown

theorem reports_of_mem_news {w : World} {c : Settings} {s t : Stat} (h : Told w c s t) {m : Msg}
    (hm : m ∈ news s t) : Reports w c s.tick t.tick m := by
  obtain ⟨ms, hms, hall⟩ := h.news
  rw [news, hms, List.drop_left] at hm
  exact hall m hm

theorem Reports.target_eq {w : World} {c : Settings} {a b : ℕ} {m : Msg} {i : Fin 2} {v : UInt8}
    (h : Reports w c a b m) (hslot : ∀ t, a ≤ t → slotOf (w.hours t) = i)
    (hlo : lowestTemp ≤ (c.targettemps i).toNat) (hhi : (c.targettemps i).toNat ≤ highestTemp)
    (hv : acceptedTarget m = some v) : v = c.targettemps i := by
  obtain ⟨topic, payload⟩ := m
  have htopic : topic = "wyostat.targettemp" := by
    by_contra hne
    rw [acceptedTarget_of_ne hne] at hv
    cases hv
  obtain ⟨t, ha, -, hp⟩ := h.target htopic
  rw [hslot t ha] at hp
  simp only at hp
  rw [htopic, hp, acceptedTarget_report hlo hhi] at hv
  exact (Option.some.inj hv).symm

theorem Reports.away_eq {w : World} {c : Settings} {a b : ℕ} {m : Msg} {v : Bool}
    (h : Reports w c a b m) (hv : acceptedAway m = some v) : v = c.away := by
  rw [acceptedAway] at hv
  split_ifs at hv with htopic
  rw [h.away htopic, bytes2bool_boolText] at hv
  exact (Option.some.inj hv).symm

end Arrivals

section Device
variable {w : World} {n : Net} {i : Fin 2}

/-- What a connected device maintains whatever the broker does. -/
structure Net.Sound (n : Net) : Prop where
  connected : n.stat.connected = true
  inRange : n.stat.InRange

/-- From now on slot `i` is in force. -/
structure Net.Within (w : World) (i : Fin 2) (n : Net) : Prop extends n.Sound where
  slot : ∀ t, n.stat.tick ≤ t → slotOf (w.hours t) = i

theorem told_step (hw : w.Online) (h : n.Sound) (r : Round) :
    Told w (n.next w r).settings n.stat (n.next w r) := told_iterate hw h.connected _

theorem sound_step (hw : w.Online) (h : n.Sound) (r : Round) : (n.step w r).Sound :=
  ⟨(told_step hw h r).connected, inRange_iterate hw h.connected _ h.inRange⟩

theorem within_step (hw : w.Online) (h : n.Within w i) (r : Round) : (n.step w r).Within w i :=
  ⟨sound_step hw h.toSound r, fun t ht => h.slot t ((told_step hw h.toSound r).tick.trans ht)⟩

theorem sound_boot (hw : w.Online) (sensor : Reading ℚ) (eeprom : Eeprom) :
    (Net.boot w sensor eeprom).Sound := by
  obtain ⟨htold, htargets⟩ := told_setup hw sensor eeprom
  refine ⟨htold.connected, fun i => ?_⟩
  rw [Net.boot, htargets]
  revert i
  decide

theorem sound_run (hw : w.Online) (sensor : Reading ℚ) (eeprom : Eeprom) (rs : List Round) :
    (run (Net.step w) (Net.boot w sensor eeprom) rs).Sound := by
  have hstep (n : Net) (r : Round) (h : n.Sound) : (Net.step w n r).Sound := sound_step hw h r
  exact (always_of_step hstep (sound_boot hw sensor eeprom) rs).last

theorem next_target (hw : w.Online) (h : n.Within w i) (r : Round) :
    (n.next w r).targettemps i =
      ((n.head r).bind fun p => acceptedTarget p.value).getD (n.stat.targettemps i) := by
  have hedit (v : UInt8) : editTarget w v (n.stat.ready r.localtemp) i = v := by
    have hnow : getTargetIndex w (n.stat.ready r.localtemp) = i :=
      h.slot _ (Nat.le_add_right _ 2)
    have hnext : getTargetIndex w (n.stat.ready r.localtemp).tock = i :=
      h.slot _ (Nat.le_add_right _ 3)
    rw [editTarget_apply, getTargettemp, hnow, hnext]
    by_cases hv : v = (n.stat.ready r.localtemp).targettemps i <;> simp [hv]
  rw [Net.next, iterate_targettemps hw h.connected]
  simp only [Net.iteration, Option.bind_map, Function.comp_def]
  cases (n.head r).bind fun p => acceptedTarget p.value with
  | none => rfl
  | some v => exact hedit v

/-- Within a slot its target is a register of the accepted commands. -/
theorem register_target_step (hw : w.Online) (h : n.Within w i) (r : Round) :
    (n.step w r).register acceptedTarget (·.targettemps i) =
      run Replica.step (n.register acceptedTarget (·.targettemps i))
        (n.acts acceptedTarget w r) := by
  apply register_step (next_target hw h r)
  intro p hp hown v hv
  have hrange := (sound_step hw h.toSound r).inRange i
  exact (reports_of_mem_news (told_step hw h.toSound r) (mem_news_of_own hp hown)).target_eq
    h.slot hrange.1 hrange.2 hv

theorem register_away_step (hw : w.Online) (h : n.Sound) (r : Round) :
    (n.step w r).register acceptedAway (·.away) =
      run Replica.step (n.register acceptedAway (·.away)) (n.acts acceptedAway w r) := by
  apply register_step
  · rw [Net.next, iterate_away hw h.connected]
    simp only [Net.iteration, Option.bind_map, Function.comp_def]
  · intro p hp hown v hv
    exact (reports_of_mem_news (told_step hw h r) (mem_news_of_own hp hown)).away_eq hv

end Device

end Wyostat.OpenThermostat
