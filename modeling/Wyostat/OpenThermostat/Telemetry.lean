import Wyostat.OpenThermostat.HvacState
import Wyostat.OpenThermostat.Interlock

/-! The reports of the single relays over a connection that holds: they tell the truth until the
AC is switched on for the first time, which is reported as the furnace's. -/
namespace Wyostat.OpenThermostat
open Machine

/-- What a payload says of a relay. -/
def denotes : List Char → Option Bool
  | ['1'] | ['o', 'n'] => some true
  | ['0'] | ['o', 'f', 'f'] => some false
  | _ => none

/-- The last report on each of the three topics denotes the state of its relay. -/
structure Telemetry (s : Stat) : Prop where
  furnace : (lastOn "wyostat.furnace_state" s.log).bind denotes = some s.furnaceState
  ac : (lastOn "wyostat.ac_state" s.log).bind denotes = some s.acState
  fan : (lastOn "wyostat.fan_state" s.log).bind denotes = some s.fanState

/-- The control section is about to ask for the AC. -/
def Cools (w : World) (s : Stat) : Prop := s.mode = 'c' ∧ TooHot w (setFurnace w false s)

instance (w : World) (s : Stat) : Decidable (Cools w s) :=
  inferInstanceAs (Decidable (_ ∧ _))

/-- The device is connected and will never lose the connection again. -/
structure Linked (w : World) (s : Stat) : Prop where
  connected : s.connected = true
  link : ∀ t, s.tick ≤ t → w.link t = true

section Connection
variable {w : World} {s : Stat}

theorem Linked.frame {t : Stat} (h : Linked w s) (hconn : t.connected = s.connected)
    (htick : s.tick ≤ t.tick) : Linked w t :=
  ⟨hconn.trans h.connected, fun k hk => h.link k (htick.trans hk)⟩

theorem linked_publish (h : Linked w s) (topic : String) (payload : List Char) :
    Linked w (publish w topic payload s) := by
  apply h.frame _ (Nat.le_succ _)
  rw [publish_connected, h.connected, h.link s.tick le_rfl]
  rfl

theorem linked_publishHvacState (h : Linked w s) : Linked w (publishHvacState w s) := by
  have htime : ∀ t : Stat, Linked w t → Linked w t.tock := fun t ht => ht.frame rfl (Nat.le_succ _)
  exact linked_publish
    (htime _ (linked_publish (linked_publish (linked_publish h _ _) _ _) _ _)) _ _

theorem linked_checkLink (h : Linked w s) : Linked w (checkLink w s) := by
  apply h.frame _ (Nat.le_succ _)
  change (s.connected && w.link s.tick) = s.connected
  rw [h.link s.tick le_rfl, Bool.and_true]

theorem linked_mqttCallback (h : Linked w s) (m : Msg) : Linked w (mqttCallback w m s) := by
  have htick := tick_le_mqttCallback w s m
  rw [mqttCallback_eq] at htick ⊢
  split_ifs at htick ⊢
  · apply h.frame _ htick
    unfold targettempCb targettemp
    split_ifs <;> simp [displayTemp]
  · apply h.frame _ htick
    unfold awayCb
    split_ifs <;> simp [displayTemp]
  · exact linked_publishHvacState h
  · exact linked_publishHvacState h
  · exact linked_publishHvacState (linked_publish h _ _)
  · exact h.frame rfl le_rfl
  · exact h

theorem linked_receive (h : Linked w s) (it : Iteration) : Linked w (receive w it s) := by
  apply receive_preserves (P := Linked w)
  · intro t ht
    exact linked_checkLink ht
  · intro t ht
    exact ht.frame ht.connected.symm le_rfl
  · intro t m ht
    exact linked_mqttCallback ht m
  · exact h.frame rfl le_rfl

theorem linked_announcement (h : Linked w s) (val : Bool) (icon : Option Icon) :
    Linked w (drawIcon icon
      (publishHvacState w (publishOffOn w "wyostat.furnace_state" val s))) := by
  have hstate := linked_publishHvacState (linked_publish h "wyostat.furnace_state"
    (if val then ['o', 'n'] else ['o', 'f', 'f']))
  cases icon <;> exact hstate.frame rfl le_rfl

theorem linked_setFurnace (h : Linked w s) (b : Bool) : Linked w (setFurnace w b s) := by
  unfold setFurnace
  split_ifs
  · have hset : Linked w ((digitalWrite .furnaceSCR b
        (s.tock.setFurnaceState b)).setLastFurnaceStateChange (w.rtc (s.tick + 1))).tock :=
      h.frame rfl (Nat.le_add_right _ 2)
    exact linked_announcement hset _ _
  · exact h.frame rfl (Nat.le_succ _)
  · exact h

theorem linked_setAc (h : Linked w s) (b : Bool) : Linked w (setAc w b s) := by
  unfold setAc
  split_ifs
  · have hset : Linked w (digitalWrite .acSCR b (s.setAcState b)) := h.frame rfl le_rfl
    exact linked_announcement hset _ _
  · exact h

theorem linked_setFan (h : Linked w s) (b : Bool) : Linked w (setFan w b s) := by
  by_cases hb : b = s.fanState
  · subst hb
    rwa [setFan_self]
  · simp only [setFan, hb, ne_eq, not_false_eq_true, if_true]
    have hp := linked_publish h "wyostat.fan_state" (if b then ['1'] else ['0'])
    exact hp.frame rfl le_rfl

theorem linked_perform (h : Linked w s) (r : Request) : Linked w (perform w s r) := by
  cases r with
  | hour => exact h.frame rfl (Nat.le_succ _)
  | furnace b => exact linked_setFurnace h b
  | ac b => exact linked_setAc h b
  | fan b => exact linked_setFan h b
  | fanAsFurnace => exact linked_setFan h s.furnaceState

theorem linked_finish (h : Linked w s) (temp : Reading ℚ) (now : BitVec 32) :
    Linked w (finish w temp now s) := by
  have htimed (t : Stat) (ht : Linked w t) : Linked w (timedPublish w temp now t) := by
    unfold timedPublish
    dsimp only
    split_ifs
    · have hset : Linked w ((t.setLastMsg now).setLastTemp (truncate w.intOfNan temp)) :=
        ht.frame rfl le_rfl
      exact linked_publish hset _ _
    · exact ht.frame rfl le_rfl
    · exact ht
  unfold finish
  apply htimed
  split_ifs
  · exact h.frame (by simp [displayTemp]) (by simp)
  · exact h

end Connection

section Topics
variable (w : World) {topic : String}

/-- The topics on which messages are answered. -/
def answerTopics : List String :=
  ["wyostat.hvac_state", "wyostat.away", "wyostat.temp", "wyostat.targettemp",
   "wyostat.hvacmode"]

theorem lastOn_publish_answer (htopic : topic ∉ answerTopics) {t : String} (ht : t ∈ answerTopics)
    (payload : List Char) (s : Stat) :
    lastOn topic (publish w t payload s).log = lastOn topic s.log := by
  apply lastOn_publish_of_ne
  rintro rfl
  exact htopic ht

theorem lastOn_publishHvacState_of_notMem (htopic : topic ∉ answerTopics) (s : Stat) :
    lastOn topic (publishHvacState w s).log = lastOn topic s.log := by
  simp only [publishHvacState, publishInt, publishBool]
  rw [lastOn_publish_answer w htopic (by decide), Stat.tock_log,
    lastOn_publish_answer w htopic (by decide), lastOn_publish_answer w htopic (by decide),
    lastOn_publish_answer w htopic (by decide)]

theorem lastOn_mqttCallback (htopic : topic ∉ answerTopics) (m : Msg) (s : Stat) :
    lastOn topic (mqttCallback w m s).log = lastOn topic s.log := by
  rw [mqttCallback_eq]
  split_ifs
  · unfold targettempCb targettemp
    split_ifs <;> simp
  · unfold awayCb
    split_ifs <;> simp
  · exact lastOn_publishHvacState_of_notMem w htopic s
  · exact lastOn_publishHvacState_of_notMem w htopic s
  · rw [requestmodeCb, lastOn_publishHvacState_of_notMem w htopic,
      lastOn_publish_answer w htopic (by decide)]
  · rfl
  · rfl

theorem lastOn_receive (htopic : topic ∉ answerTopics) (it : Iteration) (s : Stat) :
    lastOn topic (receive w it s).log = lastOn topic s.log := by
  apply receive_preserves (P := fun t => lastOn topic t.log = lastOn topic s.log)
  · intro t h
    exact h
  · intro t h
    exact h
  · intro t m h
    exact (lastOn_mqttCallback w htopic m t).trans h
  · rfl

theorem lastOn_announcement (htopic : topic ∉ answerTopics) (val : Bool) (icon : Option Icon)
    (s : Stat) :
    lastOn topic (drawIcon icon
        (publishHvacState w (publishOffOn w "wyostat.furnace_state" val s))).log =
      lastOn topic (publishOffOn w "wyostat.furnace_state" val s).log := by
  rw [lastOn_drawIcon, lastOn_publishHvacState_of_notMem w htopic]

/-- Furnace and AC report on one and the same topic. -/
theorem lastOn_setFurnace_of_ne (htopic : topic ∉ answerTopics)
    (hne : "wyostat.furnace_state" ≠ topic) (b : Bool) (s : Stat) :
    lastOn topic (setFurnace w b s).log = lastOn topic s.log := by
  unfold setFurnace
  split_ifs
  · dsimp only
    rw [lastOn_announcement w htopic, publishOffOn, lastOn_publish_of_ne _ _ hne]
    rfl
  · rfl
  · rfl

theorem lastOn_setAc_of_ne (htopic : topic ∉ answerTopics)
    (hne : "wyostat.furnace_state" ≠ topic) (b : Bool) (s : Stat) :
    lastOn topic (setAc w b s).log = lastOn topic s.log := by
  unfold setAc
  split_ifs
  · dsimp only
    rw [lastOn_announcement w htopic, publishOffOn, lastOn_publish_of_ne _ _ hne]
    rfl
  · rfl

theorem lastOn_perform_ac (s : Stat) (r : Request) :
    lastOn "wyostat.ac_state" (perform w s r).log = lastOn "wyostat.ac_state" s.log := by
  cases r with
  | hour => rfl
  | furnace b => exact lastOn_setFurnace_of_ne w (by decide) (by decide) b s
  | ac b => exact lastOn_setAc_of_ne w (by decide) (by decide) b s
  | fan b => exact lastOn_setFan w (by decide) b s
  | fanAsFurnace => exact lastOn_setFan w (by decide) s.furnaceState s

end Topics

section Relays
variable {w : World} {s : Stat}

@[simp] theorem denotes_offOn (b : Bool) :
    denotes (if b then ['o', 'n'] else ['o', 'f', 'f']) = some b := by
  cases b <;> rfl

@[simp] theorem denotes_oneZero (b : Bool) : denotes (if b then ['1'] else ['0']) = some b := by
  cases b <;> rfl

theorem Telemetry.frame {t : Stat} (h : Telemetry s) (hrelays : t.relays = s.relays)
    (hlog : ∀ topic, topic ∉ answerTopics → lastOn topic t.log = lastOn topic s.log) :
    Telemetry t := by
  obtain ⟨hf, ha, hfan, -⟩ := Stat.relays_eq hrelays
  constructor
  · rw [hlog _ (by decide), hf]
    exact h.furnace
  · rw [hlog _ (by decide), ha]
    exact h.ac
  · rw [hlog _ (by decide), hfan]
    exact h.fan

theorem lastOn_setFurnace_self (h : Linked w s) {b : Bool} (hne : b ≠ s.furnaceState)
    (hr : ¬ Refuses w s) :
    (lastOn "wyostat.furnace_state" (setFurnace w b s).log).bind denotes = some b := by
  have ha : minChangeDuration < w.rtc s.tick - s.lastFurnaceStateChange := UInt32.not_le.mp hr
  have hlink : (s.connected && w.link (s.tick + 2)) = true := by
    rw [h.connected, h.link _ (Nat.le_add_right _ 2)]
    rfl
  simp only [setFurnace, hne, ne_eq, not_false_eq_true, if_true, ha]
  rw [lastOn_announcement w (by decide), publishOffOn, lastOn_publish_self]
  rw [if_pos (by exact hlink)]
  exact denotes_offOn b

theorem lastOn_setFan_self (h : Linked w s) {b : Bool} (hne : b ≠ s.fanState) :
    (lastOn "wyostat.fan_state" (setFan w b s).log).bind denotes = some b := by
  have hlink : (s.connected && w.link s.tick) = true := by
    rw [h.connected, h.link _ le_rfl]
    rfl
  simp only [setFan, hne, ne_eq, not_false_eq_true, if_true]
  rw [digitalWrite_log, lastOn_digitalWrite, Stat.setFanState_log, lastOn_publish_self,
    if_pos hlink]
  exact denotes_oneZero b

theorem telemetry_setFurnace (h : Linked w s) (ht : Telemetry s) (b : Bool) :
    Telemetry (setFurnace w b s) := by
  by_cases hb : b = s.furnaceState
  · subst hb
    rwa [setFurnace_self]
  by_cases hr : Refuses w s
  · rw [setFurnace_refused hb hr]
    exact ht.frame rfl fun _ _ => rfl
  have hf : (setFurnace w b s).furnaceState = b :=
    congrArg Relays.furnaceState (setFurnace_accepted hb hr).1
  constructor
  · rw [hf]
    exact lastOn_setFurnace_self h hb hr
  · rw [lastOn_setFurnace_of_ne w (by decide) (by decide), setFurnace_acState]
    exact ht.ac
  · rw [lastOn_setFurnace_of_ne w (by decide) (by decide), setFurnace_fanState]
    exact ht.fan

theorem telemetry_setFan (h : Linked w s) (ht : Telemetry s) (b : Bool) :
    Telemetry (setFan w b s) := by
  by_cases hb : b = s.fanState
  · subst hb
    rwa [setFan_self]
  constructor
  · rw [lastOn_setFan w (by decide), setFan_furnaceState]
    exact ht.furnace
  · rw [lastOn_setFan w (by decide), setFan_acState]
    exact ht.ac
  · rw [setFan_fanState]
    exact lastOn_setFan_self h hb

/-- The device is connected for good, and the AC was reported once, as off. -/
structure AcReportedOff (w : World) (s : Stat) : Prop extends Linked w s where
  ac : lastOn "wyostat.ac_state" s.log = some ['0']

theorem AcReportedOff.acState (h : AcReportedOff w s) (ht : Telemetry s) : s.acState = false := by
  have hac := ht.ac
  rw [h.ac] at hac
  exact (Option.some.inj hac).symm

theorem acReportedOff_perform (s : Stat) (r : Request) (h : AcReportedOff w s) :
    AcReportedOff w (perform w s r) :=
  ⟨linked_perform h.toLinked r, (lastOn_perform_ac w s r).trans h.ac⟩

/-- Only the request to start the AC spoils the reports. -/
theorem telemetry_perform (h : AcReportedOff w s) (ht : Telemetry s) {r : Request}
    (hr : r ≠ .ac true) : Telemetry (perform w s r) := by
  cases r with
  | hour => exact ht.frame rfl fun _ _ => rfl
  | furnace b => exact telemetry_setFurnace h.toLinked ht b
  | fan b => exact telemetry_setFan h.toLinked ht b
  | fanAsFurnace => exact telemetry_setFan h.toLinked ht s.furnaceState
  | ac b =>
    have hb : b = s.acState := by
      rw [h.acState ht]
      cases b with
      | false => rfl
      | true => exact absurd rfl hr
    subst hb
    rw [perform, setAc_self]
    exact ht

end Relays

section Control
variable {w : World} {s : Stat}

theorem ac_true_mem_requests_iff : .ac true ∈ requests w s ↔ Cools w s := by
  unfold requests Cools
  split_ifs with hheat hcool
  · have hne : s.mode ≠ 'c' := by
      rw [hheat]
      decide
    have hnot : .ac true ∉ heatingRequests w (setAc w false s) := by
      unfold heatingRequests
      split_ifs <;> simp
    simp [hne, hnot]
  · generalize setFurnace w false s = t
    unfold coolingRequests TooHot
    split_ifs <;> simp_all
  · simp [hcool]

theorem control_acState_of_cools (h : Cools w s) : (control w s).acState = true := by
  obtain ⟨hmode, hhot⟩ := h
  have hheat : s.mode ≠ 'h' := by
    rw [hmode]
    decide
  rw [control, if_neg hheat, if_pos hmode, cooling]
  generalize setFurnace w false s = t at hhot ⊢
  unfold TooHot at hhot
  split_ifs at hhot with haway
  · simp [haway, hhot]
  · simp [haway, hhot]

theorem telemetry_control (h : AcReportedOff w s) (ht : Telemetry s) (hc : ¬ Cools w s) :
    Telemetry (control w s) := by
  have hstep (t : Stat) (r : Request) (h : AcReportedOff w t ∧ Telemetry t) (hr : r ≠ .ac true) :
      AcReportedOff w (perform w t r) ∧ Telemetry (perform w t r) :=
    ⟨acReportedOff_perform t r h.1, telemetry_perform h.1 h.2 hr⟩
  have hall : Along (perform w) (fun _ r => r ≠ .ac true) s (requests w s) := by
    apply along_of_forall_mem
    rintro r hr _ rfl
    exact hc (ac_true_mem_requests_iff.mp hr)
  rw [control_eq_run]
  exact (always_of_along hstep ⟨h, ht⟩ hall).last.2

theorem acReportedOff_receive (h : AcReportedOff w s) (it : Iteration) :
    AcReportedOff w (receive w it s) :=
  ⟨linked_receive h.toLinked it, (lastOn_receive w (by decide) it s).trans h.ac⟩

theorem acReportedOff_iterate (s : Stat) (it : Iteration) (h : AcReportedOff w s) :
    AcReportedOff w (iterate w s it) := by
  have hcontrol : AcReportedOff w (control w (receive w it s)) := by
    rw [control_eq_run]
    exact (always_of_step acReportedOff_perform (acReportedOff_receive h it) _).last
  exact ⟨linked_finish hcontrol.toLinked _ _, (lastOn_finish w (by decide) _ _ _).trans hcontrol.ac⟩

theorem telemetry_iterate_iff (it : Iteration) (h : AcReportedOff w s) (ht : Telemetry s) :
    Telemetry (iterate w s it) ↔ ¬ Cools w (receive w it s) := by
  constructor
  · intro hnext hc
    have hon : (iterate w s it).acState = true :=
      (Stat.relays_eq (finish_relays ..)).2.1.trans (control_acState_of_cools hc)
    have hoff := (acReportedOff_iterate s it h).acState hnext
    rw [hon] at hoff
    cases hoff
  · intro hc
    have hreceive : Telemetry (receive w it s) :=
      ht.frame (receive_relays w s it) fun _ htopic => lastOn_receive w htopic it s
    have hcontrol := telemetry_control (acReportedOff_receive h it) hreceive hc
    apply hcontrol.frame (finish_relays ..)
    intro topic htopic
    apply lastOn_finish
    rintro rfl
    exact htopic (by decide)

end Control

section Boot
variable (w : World)

/-- All three relays were reported as off. -/
structure AnnouncedOff (s : Stat) : Prop where
  fan : lastOn "wyostat.fan_state" s.log = some ['0']
  ac : lastOn "wyostat.ac_state" s.log = some ['0']
  furnace : lastOn "wyostat.furnace_state" s.log = some ['0']

/-- An announcement at the end of which the connection stands has arrived as a whole. -/
theorem announcedOff_announce {s : Stat} (hfurnace : s.furnaceState = false)
    (hac : s.acState = false) (hfan : s.fanState = false)
    (hconn : (announce w s).connected = true) : AnnouncedOff (announce w s) := by
  have hzero : Decimal.itoa (if false then 1 else 0) = ['0'] := rfl
  simp only [announce, publishInt, publish_connected, Stat.tock_connected, Stat.tock_tick,
    publish_tick, Bool.and_eq_true] at hconn
  obtain ⟨⟨⟨⟨hc, h₀⟩, h₁⟩, h₂⟩, -⟩ := hconn
  unfold announce
  simp only [publishInt, publish_acState, publish_furnaceState, hfurnace, hac, hfan]
  constructor
  · rw [lastOn_publish_of_ne _ _ (by decide), Stat.tock_log, lastOn_publish_of_ne _ _ (by decide),
      lastOn_publish_of_ne _ _ (by decide), lastOn_publish_self, if_pos (by simp [hc, h₀])]
    rfl
  · rw [lastOn_publish_of_ne _ _ (by decide), Stat.tock_log, lastOn_publish_of_ne _ _ (by decide),
      lastOn_publish_self, if_pos (by simp [hc, h₀, h₁])]
    rfl
  · rw [lastOn_publish_of_ne _ _ (by decide), Stat.tock_log, lastOn_publish_self,
      if_pos (by simp [hc, h₀, h₁, h₂])]
    rfl

theorem announcedOff_mqttConnect (rounds : ℕ) {s : Stat}
    (hoff : s.furnaceState = false ∧ s.acState = false ∧ s.fanState = false)
    (h : s.connected = true → AnnouncedOff s)
    (hconn : (mqttConnect w rounds s).connected = true) :
    AnnouncedOff (mqttConnect w rounds s) := by
  induction rounds generalizing s with
  | zero => exact h hconn
  | succ rounds ih =>
    unfold mqttConnect at hconn ⊢
    split_ifs at hconn ⊢ with hs
    · exact h hs
    · obtain ⟨hf, ha, hfan, -⟩ := Stat.relays_eq (announce_relays w (s.setConnected true))
      exact ih ⟨hf.trans hoff.1, ha.trans hoff.2.1, hfan.trans hoff.2.2⟩
        (announcedOff_announce w hoff.1 hoff.2.1 hoff.2.2) hconn

theorem announcedOff_setup (sensor : Reading ℚ) (eeprom : Eeprom) (rounds : ℕ)
    (hconn : (setup w sensor eeprom rounds).connected = true) :
    AnnouncedOff (setup w sensor eeprom rounds) := by
  apply announcedOff_mqttConnect w rounds _ _ hconn
  · simp [testIcons, setupDisplay, loadSettings, setupPins, displayTemp, powerUp]
  · simp [testIcons, setupDisplay, loadSettings, setupPins, displayTemp, powerUp]

end Boot

/-- In every run that does not lose the connection once `mqtt_connect` has made it, the last
reports of the three relays are true at the end of every iteration, exactly when no control
section asks for the AC. -/
theorem telemetry_iff {w : World} {sensor : Reading ℚ} {eeprom : Eeprom} {rounds : ℕ}
    (hconn : (setup w sensor eeprom rounds).connected = true)
    (hlink : ∀ t, (setup w sensor eeprom rounds).tick ≤ t → w.link t = true)
    (its : List Iteration) :
    Always (iterate w) Telemetry (setup w sensor eeprom rounds) its ↔
      Along (iterate w) (fun s it => ¬ Cools w (receive w it s))
        (setup w sensor eeprom rounds) its := by
  have hoff := announcedOff_setup w sensor eeprom rounds hconn
  have hac : AcReportedOff w (setup w sensor eeprom rounds) := ⟨⟨hconn, hlink⟩, hoff.ac⟩
  have htelemetry : Telemetry (setup w sensor eeprom rounds) := by
    have hrelays := setup_relays w sensor eeprom rounds
    constructor
    · rw [hoff.furnace, show (setup w sensor eeprom rounds).furnaceState = false from
        congrArg Relays.furnaceState hrelays]
      rfl
    · rw [hoff.ac, show (setup w sensor eeprom rounds).acState = false from
        congrArg Relays.acState hrelays]
      rfl
    · rw [hoff.fan, show (setup w sensor eeprom rounds).fanState = false from
        congrArg Relays.fanState hrelays]
      rfl
  have hsplit (s : Stat) (h : AcReportedOff w s) :
      Telemetry s ↔ AcReportedOff w s ∧ Telemetry s := ⟨fun ht => ⟨h, ht⟩, fun ht => ht.2⟩
  rw [always_congr_of_step acReportedOff_iterate hsplit hac]
  refine always_iff_along (P := fun s => AcReportedOff w s ∧ Telemetry s) ?_ ⟨hac, htelemetry⟩ its
  rintro s it ⟨h, ht⟩
  rw [and_iff_right (acReportedOff_iterate s it h), telemetry_iterate_iff it h ht]

section Cooling

/-- A room at 75 degrees in which cooling is asked for. -/
def coolDown : List Iteration :=
  [⟨.num 75, some ⟨"wyostat.hvacmode", ['c', 'o', 'o', 'l']⟩, 0⟩]

/-- Heating is reported as it is. -/
theorem telemetry_iff_warmUp :
    Always (iterate stillWorld) Telemetry (setup stillWorld (.num 60) Eeprom.erased 1) warmUp ↔
      Along (iterate stillWorld) (fun s it => ¬ Cools stillWorld (receive stillWorld it s))
        (setup stillWorld (.num 60) Eeprom.erased 1) warmUp :=
  telemetry_iff (by decide +kernel) (fun _ _ => rfl) warmUp

/-- The AC starts, and the furnace is reported as on. -/
theorem coolDown_misreported :
    (setup stillWorld (.num 75) Eeprom.erased 1).connected = true ∧
      (∀ t, stillWorld.link t = true) ∧
      ¬ Always (iterate stillWorld) Telemetry (setup stillWorld (.num 75) Eeprom.erased 1)
          coolDown := by
  refine ⟨by decide +kernel, fun _ => rfl, ?_⟩
  intro h
  have hfurnace := h.2.furnace
  revert hfurnace
  decide +kernel

end Cooling

end Wyostat.OpenThermostat
