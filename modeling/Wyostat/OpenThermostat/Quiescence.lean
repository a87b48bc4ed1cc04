import Wyostat.OpenThermostat.Broker
import Wyostat.OpenThermostat.Frame
import Wyostat.Lib.Cascade

/-! Handling messages alone dies out: an answer is published on topics to which the device
listens itself, but it is never answered in turn. -/
namespace Wyostat.OpenThermostat
open Cascade

/-- Handling a message, and the messages it publishes that come back to the device. -/
def deliver (w : World) (m : Msg) (s : Stat) : Stat × List Msg :=
  (mqttCallback w m s, (news s (mqttCallback w m s)).filter (·.topic ∈ subscribe))

/-- The topics of `publish_hvac_state`. -/
def stateTopics : List String :=
  ["wyostat.hvac_state", "wyostat.away", "wyostat.temp", "wyostat.targettemp"]

/-- The topics on which the callback of a topic publishes. -/
def answers (topic : String) : List String :=
  if topic = "wyostat.requesttemp" ∨ topic = "wyostat.requesttargettemp" then stateTopics
  else if topic = "wyostat.requeststate" then "wyostat.hvacmode" :: stateTopics
  else []

/-- The answers to the topic that come back to the device. -/
def echoes (topic : String) : List String := (answers topic).filter (· ∈ subscribe)

/-- One for the message itself and one for each of its echoes. -/
def burden (m : Msg) : ℕ := (echoes m.topic).length + 1

/-- From `s` to `t` at most one message is published on each of these topics, in their order. -/
def Publishes (topics : List String) (s t : Stat) : Prop :=
  ∃ ms, published t.log = published s.log ++ ms ∧ (ms.map Msg.topic).Sublist topics

section Publications
variable {w : World} {s t u : Stat}

theorem publishes_nothing (h : published t.log = published s.log) : Publishes [] s t :=
  ⟨[], by rw [h, List.append_nil], List.Sublist.refl []⟩

theorem Publishes.trans {first second : List String} (h : Publishes first s t)
    (h' : Publishes second t u) : Publishes (first ++ second) s u := by
  obtain ⟨ms, hms, hfirst⟩ := h
  obtain ⟨ns, hns, hsecond⟩ := h'
  refine ⟨ms ++ ns, by rw [hns, hms, List.append_assoc], ?_⟩
  rw [List.map_append]
  exact hfirst.append hsecond

theorem publishes_publish (topic : String) (payload : List Char) (s : Stat) :
    Publishes [topic] s (publish w topic payload s) := by
  rw [Publishes, publish_log]
  split_ifs
  · exact ⟨[⟨topic, payload⟩], published_publish .., List.Sublist.refl _⟩
  · exact ⟨[], (List.append_nil _).symm, List.nil_sublist _⟩

theorem publishes_publishHvacState (s : Stat) :
    Publishes stateTopics s (publishHvacState w s) :=
  (publishes_publish _ _ s).trans <| (publishes_publish _ _ _).trans <|
    (publishes_publish _ _ _).trans (publishes_publish _ _ _)

theorem publishes_targettemp (temp : ℤ) (s : Stat) : Publishes [] s (targettemp w temp s) := by
  apply publishes_nothing
  unfold targettemp
  split_ifs <;> simp [displayTemp]

theorem publishes_awayCb (payload : List Char) (s : Stat) :
    Publishes [] s (awayCb w payload s) := by
  apply publishes_nothing
  unfold awayCb
  split_ifs <;> simp [displayTemp]

theorem publishes_mqttCallback (m : Msg) (s : Stat) :
    Publishes (answers m.topic) s (mqttCallback w m s) := by
  have hquiet : Publishes [] s s := publishes_nothing rfl
  have hstate : Publishes stateTopics s (publishHvacState w s) := publishes_publishHvacState s
  have hmode : Publishes ("wyostat.hvacmode" :: stateTopics) s (requestmodeCb w m.payload s) :=
    (publishes_publish _ _ s).trans (publishes_publishHvacState _)
  rw [mqttCallback_eq]
  split_ifs with h₁ h₂ h₃ h₄ h₅ h₆
  · rw [h₁]
    exact publishes_targettemp _ s
  · rw [h₂]
    exact publishes_awayCb _ s
  · rw [h₃]
    exact hstate
  · rw [h₄]
    exact hstate
  · rw [h₅]
    exact hmode
  · rw [h₆]
    exact hquiet
  · rw [answers, if_neg (not_or.mpr ⟨h₃, h₄⟩), if_neg h₅]
    exact hquiet

/-- What the device publishes in answer to a message is drawn from its answers, in order. -/
theorem news_sublist (m : Msg) (s : Stat) :
    ((news s (mqttCallback w m s)).map Msg.topic).Sublist (answers m.topic) := by
  obtain ⟨ms, hms, hsub⟩ := publishes_mqttCallback (w := w) m s
  rwa [news, hms, List.drop_left]

end Publications

/-- An echo is never answered. -/
theorem echoes_of_mem_echoes {topic t : String} (h : t ∈ echoes topic) : echoes t = [] := by
  have hstate : ∀ t ∈ stateTopics.filter (· ∈ subscribe), echoes t = [] := by decide
  have hmode : ∀ t ∈ ("wyostat.hvacmode" :: stateTopics).filter (· ∈ subscribe),
      echoes t = [] := by decide
  unfold echoes answers at h
  split_ifs at h
  · exact hstate t h
  · exact hmode t h
  · cases h

theorem length_echoes_le (topic : String) : (echoes topic).length ≤ 3 := by
  unfold echoes answers
  split_ifs <;> decide

theorem burden_le (m : Msg) : burden m ≤ 4 := Nat.succ_le_succ (length_echoes_le m.topic)

/-- A message is worth more than all that handling it brings back. -/
theorem pays_burden (w : World) : Pays (deliver w) burden := by
  intro m s
  have hsub : (((deliver w m s).2).map Msg.topic).Sublist (echoes m.topic) := by
    have h := (news_sublist (w := w) m s).filter (· ∈ subscribe)
    rwa [List.filter_map] at h
  have hone : ∀ b ∈ (deliver w m s).2.map burden, b = 1 := by
    intro b hb
    obtain ⟨m', hm', rfl⟩ := List.mem_map.mp hb
    rw [burden, echoes_of_mem_echoes (hsub.subset (List.mem_map_of_mem hm')), List.length_nil]
  calc ((deliver w m s).2.map burden).sum = (deliver w m s).2.length := by
        rw [List.eq_replicate_of_mem hone, List.sum_replicate, List.length_map, Nat.nsmul_eq_mul,
          Nat.mul_one]
    _ ≤ (echoes m.topic).length := by
        rw [← List.length_map Msg.topic]
        exact hsub.length_le
    _ < burden m := Nat.lt_succ_self _

/-- In whatever state and order `n` messages are handled, together with those that come back, no
more than `4 * n` deliveries are possible, and they go on until no message is left. -/
theorem deliveries_die_out {w : World} {s : Stat} {flight : Multiset Msg} {k : ℕ}
    {d : Flight Stat Msg} (h : Delivers (deliver w) ⟨s, flight⟩ k d) :
    k + d.inflight.card ≤ 4 * flight.card ∧
      (d.inflight ≠ 0 → ∃ e, Delivers (deliver w) ⟨s, flight⟩ (k + 1) e) :=
  ⟨h.add_card_le (pays_burden w) burden_le, h.more⟩

/-- One request for the state, just after `setup()`. -/
theorem deliveries_die_out_setup :
    1 + (0 + ((deliver stillWorld ⟨"wyostat.requeststate", []⟩
      (setup stillWorld (.num 70) Eeprom.erased 1)).2 : Multiset Msg)).card ≤ 4 * 1 :=
  (deliveries_die_out (Delivers.next Delivers.none)).1

end Wyostat.OpenThermostat
