import Wyostat.MqttStat.SetPoints
import Wyostat.Lib.Replica

/-! The mqtt_stat sketch behind a broker that returns to it, in order, what it publishes on the
topics it listens to. -/
namespace Wyostat.MqttStat
open Machine Replica

/-- The topics passed to `mqtt_client.subscribe`. -/
def subscribe : List String := ["wyostat.settemplo", "wyostat.settemphi"]

/-- One iteration of the device with everything the broker receives around it: client
messages since the last iteration, whether the oldest message in flight is handed over, and
the client messages that arrive just before each publish of the iteration. -/
structure Round where
  before : List Msg
  deliver : Bool
  reading : Reading ℚ
  millis : BitVec 32
  during : List (List Msg)

/-- The client messages of a round, in order. -/
def Round.clients (r : Round) : List Msg := r.before ++ r.during.flatten

/-- The messages the clients published in a run, in order. -/
def clients (rs : List Round) : List Msg := rs.flatMap Round.clients

/-- The device and the messages in flight to it, oldest first. -/
structure Net where
  stat : Stat
  inflight : List (Packet Msg)

/-- The broker forwards to the device what it receives on a subscribed topic. -/
def forwarded (ps : List (Packet Msg)) : List (Packet Msg) :=
  ps.filter (·.value.topic ∈ subscribe)

/-- What the device published between two of its states. -/
def news (s t : Stat) : List Msg := (published t.log).drop (published s.log).length

/-- The client messages that are forwarded before the iteration. -/
def Round.sent (r : Round) : List (Packet Msg) := forwarded (r.before.map (Packet.mk false))

/-- `mqtt_client.loop()`, the second interaction of the iteration, reads from a live
connection only. -/
def Net.handsOver (w : World) (n : Net) (r : Round) : Bool := r.deliver && w.link (n.stat.tick + 1)

/-- The message the iteration hands over. -/
def Net.head (w : World) (n : Net) (r : Round) : Option (Packet Msg) :=
  if n.handsOver w r then (n.inflight ++ r.sent).head? else none

/-- The messages in flight once the oldest one has been handed over. -/
def Net.rest (w : World) (n : Net) (r : Round) : List (Packet Msg) :=
  if n.handsOver w r then (n.inflight ++ r.sent).tail else n.inflight ++ r.sent

def Net.iteration (w : World) (n : Net) (r : Round) : Iteration :=
  ⟨r.reading, (n.head w r).map Packet.value, r.millis⟩

def Net.next (w : World) (n : Net) (r : Round) : Stat := loop w n.stat (n.iteration w r)

/-- What the broker receives for the device during the iteration. -/
def Net.arrivals (w : World) (n : Net) (r : Round) : List (Packet Msg) :=
  forwarded (interleave ((news n.stat (n.next w r)).map (Packet.mk true))
    (r.during.map (·.map (Packet.mk false))))

def Net.step (w : World) (n : Net) (r : Round) : Net :=
  ⟨n.next w r, n.rest w r ++ n.arrivals w r⟩

/-- The value to which a message on the topic sets its set-point. -/
def accepted (topic : String) (m : Msg) : Option ℤ :=
  if m.topic = topic ∧ InRange (bytes2int m.payload) then some (bytes2int m.payload) else none

section Says

/-- From `s` to `t` the device published `ms` on the topics it listens to. -/
def Says (ms : List Msg) (s t : Stat) : Prop :=
  ∃ new, published t.log = published s.log ++ new ∧ new.filter (·.topic ∈ subscribe) = ms

variable {w : World} {s t u : Stat} {ms ns : List Msg}

theorem says_nil (h : published t.log = published s.log) : Says [] s t :=
  ⟨[], by rw [h, List.append_nil], rfl⟩

theorem Says.trans (hst : Says ms s t) (htu : Says ns t u) : Says (ms ++ ns) s u := by
  obtain ⟨new, hnew, rfl⟩ := hst
  obtain ⟨newer, hnewer, rfl⟩ := htu
  exact ⟨new ++ newer, by rw [hnewer, hnew, List.append_assoc], List.filter_append ..⟩

theorem published_publish (topic : String) (payload : List Char) :
    published (publish w topic payload s).log = published s.log ∨
      published (publish w topic payload s).log = published s.log ++ [⟨topic, payload⟩] := by
  rw [publish_log]
  split_ifs
  · exact .inr (Wyostat.published_publish ..)
  · exact .inl rfl

theorem says_publish {topic : String} (h : topic ∉ subscribe) (payload : List Char) :
    Says [] s (publish w topic payload s) := by
  rcases published_publish (w := w) (s := s) topic payload with hnot | hnew
  · exact says_nil hnot
  · exact ⟨_, hnew, by simp [h]⟩

theorem says_setFurnace (b : Bool) : Says [] s (setFurnace w b s) := by
  unfold setFurnace
  split_ifs
  · exact says_publish (by decide) (oneZero b)
  · exact says_nil rfl

theorem says_setAc (b : Bool) : Says [] s (setAc w b s) := by
  unfold setAc
  split_ifs
  · exact says_publish (by decide) (oneZero b)
  · exact says_nil rfl

theorem says_setFan (b : Bool) : Says [] s (setFan w b s) := by
  unfold setFan
  split_ifs
  · exact says_publish (by decide) (oneZero b)
  · exact says_nil rfl

theorem says_control : Says [] s (control w s) := by
  unfold control
  split_ifs
  · exact ((says_setAc false).trans (says_setFurnace true)).trans (says_setFan true)
  · exact ((says_setFurnace false).trans (says_setAc true)).trans (says_setFan true)
  · exact ((says_setAc false).trans (says_setFurnace false)).trans (says_setFan false)

theorem says_timedPublish (temp : ℤ) (now : BitVec 32) : Says [] s (timedPublish w temp now s) := by
  unfold timedPublish
  dsimp only
  split_ifs
  · exact says_publish (by decide) (Decimal.itoa temp)
  · exact says_nil rfl
  · exact says_nil rfl

theorem published_settemplo (temp : ℤ) : published (settemplo temp s).log = published s.log :=
  setTemp_frame (f := fun t => published t.log) (fun _ _ => rfl) fun _ _ _ => rfl

theorem published_settemphi (temp : ℤ) : published (settemphi temp s).log = published s.log :=
  setTemp_frame (f := fun t => published t.log) (fun _ _ => rfl) fun _ _ _ => rfl

theorem says_settemploCb (payload : List Char) : ∃ ms, Says ms s (settemploCb w payload s) ∧
    (ms = [] ∨
      ms = [⟨"wyostat.settemphi", Decimal.itoa (settemploCb w payload s).settemphi⟩]) := by
  rw [settemploCb_settemphi]
  unfold settemploCb
  dsimp only
  split_ifs
  · rw [settemphi_highestTemp, settemplo_settemphi, publishInt]
    rcases published_publish (w := w) (s := settemplo (bytes2int payload) s) "wyostat.settemphi"
      (Decimal.itoa s.settemphi) with hnot | hnew
    · exact ⟨[], says_nil (hnot.trans (published_settemplo _)), .inl rfl⟩
    · rw [published_settemplo] at hnew
      exact ⟨_, ⟨_, hnew, rfl⟩, .inr rfl⟩
  · exact ⟨[], says_nil (published_settemplo _), .inl rfl⟩

theorem says_mqttCallback (m : Msg) : ∃ ms, Says ms s (mqttCallback w s m) ∧
    (ms = [] ∨ ms = [⟨"wyostat.settemphi", Decimal.itoa (mqttCallback w s m).settemphi⟩] ∧
      m.topic = "wyostat.settemplo") := by
  rw [mqttCallback_eq]
  split_ifs with hlo
  · obtain ⟨ms, hsays, hms⟩ := says_settemploCb (w := w) (s := s) m.payload
    exact ⟨ms, hsays, hms.imp id fun h => ⟨h, hlo⟩⟩
  · rw [settemphiCb_eq]
    exact ⟨[], says_nil (published_settemphi _), .inl rfl⟩
  · exact ⟨[], says_nil rfl, .inl rfl⟩

end Says

section Iterations

theorem receive_eq (w : World) (s : Stat) (it : Iteration) :
    ∃ t : Stat, t.settings = s.settings ∧ published t.log = published s.log ∧
      receive w it s = if w.link (s.tick + 1) then it.msg.elim t (mqttCallback w t) else t := by
  obtain ⟨u, hconn, htick, hset, hlog, heq⟩ : ∃ u : Stat, u.connected = true ∧
      u.tick = s.tick + 1 ∧ u.settings = s.settings ∧ published u.log = published s.log ∧
      receive w it s = mqttLoop w it.msg u := by
    unfold receive
    dsimp only
    split_ifs with h
    · exact ⟨checkLink w (sample it.reading s), h, rfl, rfl, rfl, rfl⟩
    · exact ⟨reconnect (checkLink w (sample it.reading s)), rfl, rfl, rfl, rfl, rfl⟩
  have hlink : (checkLink w u).connected = w.link (s.tick + 1) := by
    change (u.connected && w.link u.tick) = _
    rw [hconn, htick, Bool.true_and]
  refine ⟨checkLink w u, hset, hlog, ?_⟩
  rw [heq]
  unfold mqttLoop
  dsimp only
  rw [hlink]
  cases w.link (s.tick + 1) with
  | false => rfl
  | true => cases it.msg <;> rfl

variable (w : World) (n : Net) (r : Round)

theorem receive_iteration :
    ∃ t : Stat, t.settings = n.stat.settings ∧ published t.log = published n.stat.log ∧
      receive w (n.iteration w r) n.stat =
        (n.head w r).elim t fun p => mqttCallback w t p.value := by
  obtain ⟨t, hset, hlog, heq⟩ := receive_eq w n.stat (n.iteration w r)
  refine ⟨t, hset, hlog, heq.trans ?_⟩
  have hmsg : (n.iteration w r).msg = (n.head w r).map Packet.value := rfl
  cases hlink : w.link (n.stat.tick + 1) with
  | false =>
    have hnone : n.head w r = none := by simp [Net.head, Net.handsOver, hlink]
    rw [hnone]
    rfl
  | true =>
    rw [hmsg]
    cases n.head w r <;> rfl

theorem next_settings :
    (n.next w r).settings = (receive w (n.iteration w r) n.stat).settings := by
  rw [Net.next, loop, timedPublish_settings, control_settings]

theorem next_held {topic : String} (held : ℤ × ℤ → ℤ)
    (hcallback : ∀ (t : Stat) (m : Msg), held (mqttCallback w t m).settings =
      (accepted topic m).getD (held t.settings)) :
    held (n.next w r).settings =
      ((n.head w r).bind fun p => accepted topic p.value).getD (held n.stat.settings) := by
  obtain ⟨t, hset, -, heq⟩ := receive_iteration w n r
  rw [next_settings, heq, ← hset]
  cases n.head w r with
  | none => rfl
  | some p => exact hcallback t p.value

theorem next_settemplo : (n.next w r).settemplo =
    ((n.head w r).bind fun p => accepted "wyostat.settemplo" p.value).getD n.stat.settemplo := by
  apply next_held w n r Prod.fst
  intro t m
  change (mqttCallback w t m).settemplo = _
  rw [mqttCallback_settemplo, accepted]
  split_ifs <;> rfl

theorem next_settemphi : (n.next w r).settemphi =
    ((n.head w r).bind fun p => accepted "wyostat.settemphi" p.value).getD n.stat.settemphi := by
  apply next_held w n r Prod.snd
  intro t m
  change (mqttCallback w t m).settemphi = _
  rw [mqttCallback_settemphi, accepted]
  split_ifs <;> rfl

theorem says_next : ∃ ms, Says ms n.stat (n.next w r) ∧
    (ms = [] ∨ ms = [⟨"wyostat.settemphi", Decimal.itoa (n.next w r).settemphi⟩] ∧
      ∃ p ∈ n.head w r, p.value.topic = "wyostat.settemplo") := by
  obtain ⟨t, -, hlog, heq⟩ := receive_iteration w n r
  have hrest : Says [] (receive w (n.iteration w r) n.stat) (n.next w r) :=
    says_control.trans (says_timedPublish _ _)
  have hnext : (n.next w r).settemphi = (receive w (n.iteration w r) n.stat).settemphi :=
    congrArg Prod.snd (next_settings w n r)
  rw [hnext]
  cases hhead : n.head w r with
  | none =>
    rw [hhead] at heq
    rw [heq] at hrest ⊢
    exact ⟨[], (says_nil hlog).trans hrest, .inl rfl⟩
  | some p =>
    rw [hhead] at heq
    rw [heq] at hrest ⊢
    obtain ⟨ms, hsays, hms⟩ := says_mqttCallback (w := w) (s := t) p.value
    refine ⟨[] ++ ms ++ [], ((says_nil hlog).trans hsays).trans hrest, ?_⟩
    rw [List.nil_append, List.append_nil]
    exact hms.imp id fun h => ⟨h.1, p, rfl, h.2⟩

end Iterations

section Registers

/-- The register the device keeps for a topic. -/
def Net.register (topic : String) (held : Stat → ℤ) (n : Net) : Register ℤ :=
  ⟨held n.stat, Packet.filterMap (accepted topic) n.inflight⟩

/-- What a round does to that register. -/
def Net.acts (w : World) (topic : String) (n : Net) (r : Round) : List (Act ℤ) :=
  turn (accepted topic) r.sent (n.head w r) (n.arrivals w r)

variable (w : World) (n : Net) (r : Round)

theorem own_of_mem_sent {p : Packet Msg} (h : p ∈ r.sent) : p.own = false := by
  obtain ⟨m, -, rfl⟩ := List.mem_map.mp (List.mem_filter.mp h).1
  rfl

theorem Says.news {ms : List Msg} {s t : Stat} (h : Says ms s t) :
    (news s t).filter (·.topic ∈ subscribe) = ms := by
  obtain ⟨new, hnew, hms⟩ := h
  rw [MqttStat.news, hnew, List.drop_left, hms]

theorem arrivals_perm {ms : List Msg} (h : Says ms n.stat (n.next w r)) :
    (n.arrivals w r).Perm
      (ms.map (Packet.mk true) ++ forwarded (r.during.flatten.map (Packet.mk false))) := by
  have hsaid : forwarded ((news n.stat (n.next w r)).map (Packet.mk true)) =
      ms.map (Packet.mk true) := by
    rw [forwarded, List.filter_map, ← h.news]
    rfl
  rw [← hsaid, forwarded, forwarded, ← List.filter_append, List.map_flatten]
  exact (interleave_perm _ _).filter _

theorem own_arrival {p : Packet Msg} (hp : p ∈ n.arrivals w r) (hown : p.own = true) :
    p.value = ⟨"wyostat.settemphi", Decimal.itoa (n.next w r).settemphi⟩ := by
  obtain ⟨ms, hsays, hms⟩ := says_next w n r
  rcases List.mem_append.mp ((arrivals_perm w n r hsays).mem_iff.mp hp) with hp | hp
  · rcases hms with rfl | ⟨rfl, -⟩
    · cases hp
    · rw [List.mem_singleton.mp hp]
  · obtain ⟨m, -, rfl⟩ := List.mem_map.mp (List.mem_filter.mp hp).1
    cases hown

/-- The lower set-point is a register that is never reported. -/
theorem register_settemplo_step :
    (n.step w r).register "wyostat.settemplo" Stat.settemplo =
      run Replica.step (n.register "wyostat.settemplo" Stat.settemplo)
        (n.acts w "wyostat.settemplo" r) := by
  refine (run_turn (fun p => own_of_mem_sent r) (next_settemplo w n r) ?_).symm
  intro p hp hown v hv
  rw [own_arrival w n r hp hown] at hv
  cases hv

theorem bytes2int_itoa_of_inRange {temp : ℤ} (h : InRange (bytes2int (Decimal.itoa temp))) :
    bytes2int (Decimal.itoa temp) = temp := by
  unfold InRange lowestTemp highestTemp at h
  rw [bytes2int_eq, Decimal.atol_itoa_eq_saturate, Decimal.saturate] at *
  omega

/-- The upper set-point is a register that reports what it holds. -/
theorem register_settemphi_step :
    (n.step w r).register "wyostat.settemphi" Stat.settemphi =
      run Replica.step (n.register "wyostat.settemphi" Stat.settemphi)
        (n.acts w "wyostat.settemphi" r) := by
  refine (run_turn (fun p => own_of_mem_sent r) (next_settemphi w n r) ?_).symm
  intro p hp hown v hv
  rw [own_arrival w n r hp hown, accepted] at hv
  split_ifs at hv with hrange
  · rw [← Option.some.inj hv]
    exact bytes2int_itoa_of_inRange hrange.2
  · cases hv

end Registers

end Wyostat.MqttStat
