import Wyostat.AdafruitMqtt.Pinging

/-! How the MQTT client of Adafruit connects: it asks for each of its subscriptions, up to three
times, until it is acknowledged. -/
namespace Wyostat.AdafruitMqtt
open PubSubClient (Memory Packet store)

/-- `will`, with a topic that is not empty. -/
structure Will where
  topic : List UInt8
  payload : List UInt8
  qos : UInt8
  retain : Bool

/-- What `connect` is given: an empty name or password is none. -/
structure Login where
  servername : List UInt8
  clientid : List UInt8
  username : List UInt8
  password : List UInt8
  will : Option Will

def Will.flags (w : Will) : UInt8 :=
  (0x04 : UInt8) ||| (if w.qos = 1 then (0x08 : UInt8) else if w.qos = 2 then 0x18 else 0) |||
    (if w.retain then (0x20 : UInt8) else 0)

def Login.flags (l : Login) : UInt8 :=
  (0x02 : UInt8) ||| l.will.elim 0 Will.flags |||
    (if l.username ≠ [] then (0x80 : UInt8) else 0) |||
    (if l.password ≠ [] then (0x40 : UInt8) else 0)

/-- What follows the length in a CONNECT packet. -/
def Login.body (l : Login) : List UInt8 :=
  stringprint [0x4d, 0x51, 0x54, 0x54] ++ [4, l.flags, 0x01, 0x2c] ++ stringprint l.clientid ++
    l.will.elim [] (fun w => stringprint w.topic ++ stringprint w.payload) ++
    (if l.username ≠ [] then stringprint l.username else []) ++
    (if l.password ≠ [] then stringprint l.password else [])

def connectPacket (l : Login) : List UInt8 := shortPacket 0x10 l.body

/-- The tries for one subscription: whether it has been acknowledged, what has been sent, and what
has not been read. -/
def Client.trySubscribe (sub : Subscription) :
    ℕ → Client → Stream → Client × Bool × List (List UInt8) × Stream
  | 0, c, input => (c, false, [], input)
  | n + 1, c, input =>
    let packet := subscribePacket sub.topic sub.qos c.packetIdCounter
    let buffer := store c.buffer 0
      (writtenPacket 0x82 (subscribeBody sub.topic sub.qos c.packetIdCounter))
    let r := processPacketsUntil 0x9 (input.length + 1) buffer input
    let c := { c with buffer := r.1, packetIdCounter := c.packetIdCounter + 1 }
    if r.2.1 ≠ 0 then (c, true, [packet], r.2.2)
    else
      let r := c.trySubscribe sub n r.2.2
      (r.1, r.2.1, packet :: r.2.2.1, r.2.2.2)

/-- The loop over the table; it ends with the first subscription that is not acknowledged. -/
def Client.subscribeAll : List (Fin maxSubscriptions) → Client → Stream →
    Client × Bool × List (List UInt8) × Stream
  | [], c, input => (c, true, [], input)
  | i :: is, c, input =>
    match c.subscriptions i with
    | none => c.subscribeAll is input
    | some sub =>
      let r := c.trySubscribe sub 3 input
      if r.2.1 then
        let r' := r.1.subscribeAll is r.2.2.2
        (r'.1, r'.2.1, r.2.2.1 ++ r'.2.2.1, r'.2.2.2)
      else r

/-- `connect`: the client, the code that it returns, what it has sent, and what it has not read. -/
def Client.connect (c : Client) (l : Login) (connected : Bool) (input : Stream) :
    Client × ℤ × List (List UInt8) × Stream :=
  let buffer := store (store c.buffer 0 (List.replicate maxBufferSize 0)) 0 (l.servername ++ [0])
  if connected = false then ({ c with buffer }, -1, [], input)
  else
    let r := readFullPacket (store buffer 0 (writtenPacket 0x10 l.body)) input
    let c := { c with buffer := r.1 }
    if r.2.1 % 256 ≠ 4 ∨ c.buffer 0 ≠ 0x20 ∨ c.buffer 1 ≠ 2 then (c, -1, [connectPacket l], r.2.2)
    else if c.buffer 3 ≠ 0 then (c, (c.buffer 3).toInt8.toInt, [connectPacket l], r.2.2)
    else
      let r := c.subscribeAll (List.finRange maxSubscriptions) r.2.2
      (r.1, if r.2.1 then 0 else -2, connectPacket l :: r.2.2.1, r.2.2.2)

section Answers

/-- What arrives for a subscription: the tries that go without an answer, each up to a pause, and
what comes before the acknowledgement of the last one. -/
structure Exchange where
  unanswered : List (List Packet)
  before : List Packet
  suback : Packet

def Exchange.stream (e : Exchange) : Stream :=
  (e.unanswered.flatMap fun ps => (ps.flatMap Packet.bytes).map some ++ [none]) ++
    ((e.before.flatMap Packet.bytes).map some ++ e.suback.bytes.map some)

/-- No more than two tries are lost, and no other SUBACK arrives. -/
structure Exchange.Timely (e : Exchange) : Prop where
  tries : e.unanswered.length ≤ 2
  unanswered : ∀ ps ∈ e.unanswered, ∀ p ∈ ps, Dropped 0x9 p
  before : ∀ p ∈ e.before, Dropped 0x9 p
  body : e.suback.body ≠ []
  fits : e.suback.bytes.length ≤ 149
  type : e.suback.first >>> 4 = 0x9

/-- The requests for one subscription, by their identifiers. -/
def requests (sub : Subscription) : ℕ → UInt16 → List (List UInt8)
  | 0, _ => []
  | n + 1, id => subscribePacket sub.topic sub.qos id :: requests sub n (id + 1)

/-- The requests for all of them, one subscription after the other. -/
def allRequests : List (Subscription × Exchange) → UInt16 → List (List UInt8)
  | [], _ => []
  | (sub, e) :: rest, id => requests sub (e.unanswered.length + 1) id ++
      allRequests rest (id + UInt16.ofNat (e.unanswered.length + 1))

variable (c : Client) (sub : Subscription)

/-- Whatever is dropped in a try, the rest is waited for with enough fuel left. -/
theorem processPacketsUntil_try {ps : List Packet} (hps : ∀ p ∈ ps, Dropped 0x9 p) (buffer : Memory)
    (hbuffer : buffer 0 = 0x82) (more : Stream) : ∃ (buffer' : Memory) (fuel : ℕ),
    processPacketsUntil 0x9 (((ps.flatMap Packet.bytes).map some ++ more).length + 1) buffer
      ((ps.flatMap Packet.bytes).map some ++ more) =
        processPacketsUntil 0x9 (fuel + 1) buffer' more := by
  have hcount := length_le_flatMap_bytes ps
  obtain ⟨buffer', fuel, hfuel, -, hdropped⟩ := processPacketsUntil_dropped hps
    (show ps.length ≤ ((ps.flatMap Packet.bytes).map some ++ more).length + 1 by
      rw [List.length_append, List.length_map]
      omega) buffer (by rw [hbuffer]; decide) more
  obtain ⟨n, rfl⟩ : ∃ n, fuel = n + 1 := Nat.exists_eq_succ_of_ne_zero (by
    rw [List.length_append, List.length_map] at hfuel
    omega)
  exact ⟨buffer', n, hdropped⟩

theorem trySubscribe_unanswered (n : ℕ) {ps : List Packet} (hps : ∀ p ∈ ps, Dropped 0x9 p)
    (more : Stream) : ∃ buffer,
    c.trySubscribe sub (n + 1) ((ps.flatMap Packet.bytes).map some ++ none :: more) =
      let r := Client.trySubscribe sub n ⟨buffer, c.packetIdCounter + 1, c.subscriptions⟩ more
      (r.1, r.2.1, subscribePacket sub.topic sub.qos c.packetIdCounter :: r.2.2.1, r.2.2.2) := by
  obtain ⟨buffer, fuel, hwait⟩ := processPacketsUntil_try hps (store c.buffer 0
    (writtenPacket 0x82 (subscribeBody sub.topic sub.qos c.packetIdCounter))) rfl (none :: more)
  have hquiet : processPacketsUntil 0x9 (fuel + 1) buffer (none :: more) = (buffer, 0, more) := rfl
  rw [hquiet] at hwait
  refine ⟨buffer, ?_⟩
  rw [Client.trySubscribe]
  simp only [hwait, ne_eq, not_true_eq_false, if_false]

theorem trySubscribe_answered (n : ℕ) {ps : List Packet} (hps : ∀ p ∈ ps, Dropped 0x9 p)
    {q : Packet} (hbody : q.body ≠ []) (hfits : q.bytes.length ≤ 149)
    (htype : q.first >>> 4 = 0x9) (more : Stream) :
    ∃ buffer,
    c.trySubscribe sub (n + 1) ((ps.flatMap Packet.bytes).map some ++ (q.bytes.map some ++ more)) =
      (⟨buffer, c.packetIdCounter + 1, c.subscriptions⟩, true,
        [subscribePacket sub.topic sub.qos c.packetIdCounter], more) := by
  obtain ⟨buffer, fuel, hwait⟩ := processPacketsUntil_try hps (store c.buffer 0
    (writtenPacket 0x82 (subscribeBody sub.topic sub.qos c.packetIdCounter))) rfl
    (q.bytes.map some ++ more)
  have hpos : ¬ q.bytes.length = 0 := by
    have hlength := q.length_bytes
    omega
  have hfound : processPacketsUntil 0x9 (fuel + 1) buffer (q.bytes.map some ++ more) =
      (store buffer 0 q.bytes, q.bytes.length, more) := by
    have hfirst : store buffer 0 q.bytes 0 = q.first := rfl
    rw [processPacketsUntil, readFullPacket_packet hbody hfits]
    simp only [if_neg hpos, hfirst, htype, if_true]
  rw [hfound] at hwait
  refine ⟨store buffer 0 q.bytes, ?_⟩
  rw [Client.trySubscribe]
  simp only [hwait, ne_eq, hpos, not_false_eq_true, if_true]

theorem trySubscribe_exchange {e : Exchange} (he : e.Timely) (more : Stream) {n : ℕ}
    (hn : e.unanswered.length < n) : ∃ buffer,
    c.trySubscribe sub n (e.stream ++ more) =
      (⟨buffer, c.packetIdCounter + UInt16.ofNat (e.unanswered.length + 1), c.subscriptions⟩, true,
        requests sub (e.unanswered.length + 1) c.packetIdCounter, more) := by
  obtain ⟨unanswered, before, suback⟩ := e
  obtain ⟨-, hunanswered, hbefore, hbody, hfits, htype⟩ := he
  dsimp only at *
  induction unanswered generalizing c n with
  | nil =>
    obtain ⟨n, rfl⟩ := Nat.exists_eq_succ_of_ne_zero (show n ≠ 0 by omega)
    obtain ⟨buffer, hanswered⟩ := trySubscribe_answered c sub n hbefore hbody hfits htype more
    refine ⟨buffer, ?_⟩
    simp only [Exchange.stream, List.flatMap_nil, List.nil_append, List.append_assoc]
    exact hanswered
  | cons ps unanswered ih =>
    obtain ⟨n, rfl⟩ := Nat.exists_eq_succ_of_ne_zero (show n ≠ 0 by omega)
    rw [List.length_cons] at hn
    have hstream : (⟨ps :: unanswered, before, suback⟩ : Exchange).stream ++ more =
        (ps.flatMap Packet.bytes).map some ++
          none :: ((⟨unanswered, before, suback⟩ : Exchange).stream ++ more) := by
      simp only [Exchange.stream, List.flatMap_cons, List.append_assoc, List.cons_append,
        List.nil_append]
    obtain ⟨buffer, htry⟩ := trySubscribe_unanswered c sub n (hunanswered ps List.mem_cons_self)
      ((⟨unanswered, before, suback⟩ : Exchange).stream ++ more)
    obtain ⟨buffer', hrest⟩ := ih ⟨buffer, c.packetIdCounter + 1, c.subscriptions⟩
      (show unanswered.length < n by omega)
        fun qs hqs => hunanswered qs (List.mem_cons_of_mem _ hqs)
    have hid : c.packetIdCounter + 1 + UInt16.ofNat (unanswered.length + 1) =
        c.packetIdCounter + UInt16.ofNat (unanswered.length + 1 + 1) := by
      rw [UInt16.ofNat_add (unanswered.length + 1) 1, UInt16.add_assoc,
        UInt16.add_comm 1]
      rfl
    refine ⟨buffer', ?_⟩
    rw [hstream, htry, hrest]
    simp only [hid, List.length_cons, requests]

theorem subscribeAll_exchanges (is : List (Fin maxSubscriptions))
    (script : List (Subscription × Exchange))
    (hscript : script.map Prod.fst = is.filterMap c.subscriptions)
    (htimely : ∀ x ∈ script, x.2.Timely) (more : Stream) : ∃ buffer counter,
    c.subscribeAll is ((script.flatMap fun x => x.2.stream) ++ more) =
      (⟨buffer, counter, c.subscriptions⟩, true, allRequests script c.packetIdCounter, more) := by
  induction is generalizing c script with
  | nil =>
    obtain rfl : script = [] := List.map_eq_nil_iff.mp hscript
    exact ⟨c.buffer, c.packetIdCounter, rfl⟩
  | cons i is ih =>
    rcases hsub : c.subscriptions i with _ | sub
    · rw [List.filterMap_cons_none hsub] at hscript
      obtain ⟨buffer, counter, hrest⟩ := ih c script hscript htimely
      refine ⟨buffer, counter, ?_⟩
      rw [Client.subscribeAll, hsub]
      exact hrest
    · rw [List.filterMap_cons_some hsub] at hscript
      rcases script with _ | ⟨⟨sub', e⟩, script⟩
      · cases hscript
      obtain ⟨hsame, htail⟩ := List.cons_eq_cons.mp hscript
      have hsame : sub' = sub := hsame
      subst hsame
      have he := htimely (sub', e) List.mem_cons_self
      obtain ⟨buffer, htry⟩ := trySubscribe_exchange c sub' he
        ((script.flatMap fun x => x.2.stream) ++ more) (Nat.lt_succ_of_le he.tries)
      obtain ⟨buffer', counter, hrest⟩ := ih ⟨buffer,
        c.packetIdCounter + UInt16.ofNat (e.unanswered.length + 1), c.subscriptions⟩ script htail
        fun x hx => htimely x (List.mem_cons_of_mem _ hx)
      refine ⟨buffer', counter, ?_⟩
      rw [Client.subscribeAll, hsub, List.flatMap_cons, List.append_assoc]
      simp only [htry, if_true, hrest, allRequests]

/-- If the broker accepts the connection and acknowledges every subscription of the table by the
third try, `connect` succeeds, whatever else arrives in between; it has then asked for each of them
in the order of the table, with an identifier of its own for each try. A broker accepts and
acknowledges only requests that fit the 150 bytes of the buffer. -/
theorem connect_subscribes (l : Login) (flag : UInt8) (script : List (Subscription × Exchange))
    (hscript : script.map Prod.fst = (List.finRange maxSubscriptions).filterMap c.subscriptions)
    (htimely : ∀ x ∈ script, x.2.Timely) (more : Stream) :
    let r := c.connect l true ((Packet.bytes ⟨0x20, [flag, 0]⟩).map some ++
      ((script.flatMap fun x => x.2.stream) ++ more))
    r.1.subscriptions = c.subscriptions ∧ r.2.1 = 0 ∧
      r.2.2.1 = connectPacket l :: allRequests script c.packetIdCounter ∧ r.2.2.2 = more := by
  have hbytes : Packet.bytes ⟨0x20, [flag, 0]⟩ = [0x20, 2, flag, 0] := by
    rw [Packet.bytes, PubSubClient.lengthBytes_of_lt
      (show (Packet.mk 0x20 [flag, 0]).body.length < 128 from by simp)]
    rfl
  obtain ⟨buffer, hbuffer⟩ : ∃ buffer, buffer = store (store (store c.buffer 0
    (List.replicate maxBufferSize 0)) 0 (l.servername ++ [0])) 0
    (writtenPacket 0x10 l.body) := ⟨_, rfl⟩
  have hread := readFullPacket_packet (p := ⟨0x20, [flag, 0]⟩) (by simp)
    (by rw [hbytes]; exact (by decide : 4 ≤ 149)) buffer
    ((script.flatMap fun x => x.2.stream) ++ more)
  obtain ⟨buffer', counter, hall⟩ := subscribeAll_exchanges
    ⟨store buffer 0 [0x20, 2, flag, 0], c.packetIdCounter, c.subscriptions⟩ _
    script hscript htimely more
  rw [hbytes] at hread ⊢
  have haccepted : ¬ ([0x20, 2, flag, 0].length % 256 ≠ 4 ∨
      store buffer 0 [0x20, 2, flag, 0] 0 ≠ 0x20 ∨ store buffer 0 [0x20, 2, flag, 0] 1 ≠ 2) := by
    simp [store]
  have hcode : ¬ store buffer 0 [0x20, 2, flag, 0] 3 ≠ 0 := by
    simp [store]
  unfold Client.connect
  simp only [← hbuffer, Bool.true_eq_false, if_false, hread, if_neg haccepted, if_neg hcode, hall,
    if_true, and_self]

/-- A client with a single subscription. -/
def singleSubscription : Client :=
  ⟨fun _ => 0, 0, fun i => if i = 0 then some ⟨[0x61], 1, [], 0⟩ else none⟩

/-- The first try brings a message to the topic and no acknowledgement, the second one brings it. -/
def secondTry : Exchange := ⟨[[⟨0x30, [0, 1, 0x61, 0x31]⟩]], [], ⟨0x90, [0, 1, 1]⟩⟩

theorem connect_subscribes_secondTry :
    let r := singleSubscription.connect ⟨[], [], [], [], none⟩ true
      ((Packet.bytes ⟨0x20, [0, 0]⟩).map some ++
        (([((⟨[0x61], 1, [], 0⟩ : Subscription), secondTry)].flatMap fun x => x.2.stream) ++
          [none]))
    r.1.subscriptions = singleSubscription.subscriptions ∧ r.2.1 = 0 ∧
      r.2.2.1 = [connectPacket ⟨[], [], [], [], none⟩, subscribePacket [0x61] 1 0,
        subscribePacket [0x61] 1 1] ∧ r.2.2.2 = [none] := by
  have hbytes (first : UInt8) (body : List UInt8) (h : body.length < 128) :
      (Packet.bytes ⟨first, body⟩).length = 2 + body.length := by
    rw [Packet.length_bytes, PubSubClient.lengthBytes_of_lt h]
    rfl
  have htimely : secondTry.Timely := by
    refine ⟨by decide, ?_, by simp [secondTry], by simp [secondTry], ?_, by decide⟩
    · intro ps hps p hp
      obtain rfl : ps = [⟨0x30, [0, 1, 0x61, 0x31]⟩] := List.mem_singleton.mp hps
      obtain rfl : p = ⟨0x30, [0, 1, 0x61, 0x31]⟩ := List.mem_singleton.mp hp
      exact ⟨by simp, by rw [hbytes _ _ (by decide)]; decide, by decide⟩
    · rw [secondTry, hbytes _ _ (by decide)]
      decide
  refine connect_subscribes singleSubscription ⟨[], [], [], [], none⟩ 0
    [(⟨[0x61], 1, [], 0⟩, secondTry)] (by decide) ?_ [none]
  intro x hx
  obtain rfl : x = (⟨[0x61], 1, [], 0⟩, secondTry) := List.mem_singleton.mp hx
  exact htimely

end Answers

end Wyostat.AdafruitMqtt
