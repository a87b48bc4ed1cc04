import Wyostat.OpenThermostat.Frame
import Wyostat.PubSubClient.Framing

/-! `hvacmode_cb` copies whatever payload the MQTT client hands over; the client's packets are
longer than the array. -/
namespace Wyostat.OpenThermostat
open PubSubClient

/-- The stores of `hvacmode_cb` into the array, in order. -/
def hvacmodeStores (payload : List Char) : List (ℕ × Char) :=
  payload.zipIdx.map Prod.swap ++ [(payload.length, nul)]

section Stores

theorem copyMode_eq_foldl (mode : Vector Char 50) (i : ℕ) (payload : List Char) :
    copyMode mode i payload =
      ((payload.zipIdx i).map Prod.swap).foldl (fun m p => m.setIfInBounds p.1 p.2) mode := by
  induction payload generalizing mode i with
  | nil => rfl
  | cons c rest ih => exact ih (mode.setIfInBounds i c) (i + 1)

/-- A message on its topic makes the callback do these stores and nothing else. -/
theorem mqttCallback_hvacmode (w : World) (s : Stat) {m : Msg} (h : m.topic = "wyostat.hvacmode") :
    mqttCallback w m s =
      s.setHvacmode ((hvacmodeStores m.payload).foldl (fun v p => v.setIfInBounds p.1 p.2)
        s.hvacmode) := by
  have hcb : mqttCallback w m s = hvacmodeCb w m.payload s := by
    simp [mqttCallback_eq, h]
  rw [hcb, hvacmodeCb, hvacmodeStores, List.foldl_append, ← copyMode_eq_foldl]
  rfl

theorem hvacmodeStores_lt_iff (payload : List Char) (n : ℕ) :
    (∀ p ∈ hvacmodeStores payload, p.1 < n) ↔ payload.length < n := by
  constructor
  · intro h
    exact h (payload.length, nul) (by simp [hvacmodeStores])
  · intro h p hp
    rcases List.mem_append.mp hp with hp | hp
    · obtain ⟨q, hq, rfl⟩ := List.mem_map.mp hp
      exact (List.snd_lt_of_mem_zipIdx hq).trans h
    · rw [List.mem_singleton.mp hp]
      exact h

end Stores

/-- A payload handed over on `wyostat.hvacmode` is stored byte by byte, and stays inside the array
exactly when it has less than 50 bytes; and every payload whose packet fits the client's buffer is
handed over. -/
theorem hvacmode_in_bounds_iff (buffer : Memory) :
    (∀ input, ∀ h ∈ PubSubClient.loop buffer input, h.msg.topic = "wyostat.hvacmode" →
      (∀ w s, mqttCallback w h.msg s = s.setHvacmode ((hvacmodeStores h.msg.payload).foldl
        (fun v p => v.setIfInBounds p.1 p.2) s.hvacmode)) ∧
      ((∀ p ∈ hvacmodeStores h.msg.payload, p.1 < 50) ↔ h.length.toNat < 50)) ∧
    ∀ (first : UInt8) (topic rest more : List UInt8), isPublish first →
      String.ofList (cString (topic.map toChar)) = "wyostat.hvacmode" →
      msgIdSize first ≤ rest.length → (publishPacket first topic rest).length ≤ 128 →
      ∃ h ∈ PubSubClient.loop buffer (publishPacket first topic rest ++ more),
        h.msg = ⟨"wyostat.hvacmode", (rest.drop (msgIdSize first)).map toChar⟩ ∧
          h.length.toNat = rest.length - msgIdSize first := by
  have hlength (h : Handed) : h.msg.payload.length = h.length.toNat := by
    simp [Handed.msg, Handed.bytes]
  constructor
  · intro input h _ htopic
    refine ⟨fun w s => mqttCallback_hvacmode w s htopic, ?_⟩
    rw [hvacmodeStores_lt_iff, hlength]
  · intro first topic rest more hfirst htopic hid hfits
    obtain ⟨h, hloop, ht, hbytes⟩ := loop_publishPacket hfirst hfits hid buffer more
    have hmsg : h.msg = ⟨"wyostat.hvacmode", (rest.drop (msgIdSize first)).map toChar⟩ := by
      rw [Handed.msg, ht, htopic, hbytes]
    refine ⟨h, hloop, hmsg, ?_⟩
    rw [← hlength, hmsg, List.length_map, List.length_drop]

section Overflow

/-- The bytes of the topic. -/
def modeTopic : List UInt8 := "wyostat.hvacmode".toList.map fun c => UInt8.ofNat c.toNat

/-- A PUBLISH packet of quality of service 0 for the mode. -/
def modePacket (payload : List UInt8) : List UInt8 := publishPacket 0x30 modeTopic payload

/-- The mode `cool` stays inside the array. -/
theorem hvacmode_in_bounds_cool :
    ∃ h ∈ PubSubClient.loop (fun _ => 0) (modePacket [0x63, 0x6f, 0x6f, 0x6c]),
      h.msg.payload = ['c', 'o', 'o', 'l'] ∧ ∀ p ∈ hvacmodeStores h.msg.payload, p.1 < 50 := by
  obtain ⟨hiff, hall⟩ := hvacmode_in_bounds_iff fun _ => 0
  obtain ⟨h, hloop, hmsg, hlength⟩ := hall 0x30 modeTopic [0x63, 0x6f, 0x6f, 0x6c] []
    (by decide) (by decide +kernel) (by decide) (by decide +kernel)
  rw [List.append_nil] at hloop
  refine ⟨h, hloop, by rw [hmsg]; rfl, (hiff _ h hloop (by rw [hmsg])).2.mpr ?_⟩
  rw [hlength]
  decide

/-- A payload of 50 bytes, in a packet of 70, is handed over and overruns the array. -/
theorem hvacmode_overrun :
    ¬ ∀ input : List UInt8, input.length ≤ 128 →
      ∀ h ∈ PubSubClient.loop (fun _ => 0) input, h.msg.topic = "wyostat.hvacmode" →
        ∀ p ∈ hvacmodeStores h.msg.payload, p.1 < 50 := by
  intro hall
  have hhanded : (PubSubClient.loop (fun _ => 0) (modePacket (List.replicate 50 0x63))).map
      (fun h => (h.msg.topic, h.msg.payload.length)) = some ("wyostat.hvacmode", 50) := by
    decide +kernel
  obtain ⟨h, hloop, heq⟩ := Option.map_eq_some_iff.mp hhanded
  obtain ⟨htopic, hlength⟩ := Prod.mk.inj heq
  have hbound := hall _ (by decide +kernel) h hloop htopic
  rw [hvacmodeStores_lt_iff, hlength] at hbound
  exact absurd hbound (by decide)

end Overflow

end Wyostat.OpenThermostat
