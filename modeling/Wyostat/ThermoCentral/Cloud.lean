import Wyostat.ThermoCentral.Loop
import Wyostat.AdafruitIo.Data
import Wyostat.AdafruitMqtt.Hearing

/-! What boards save to their feeds, from the packets that are published to the handlers of the
boards that receive them. -/
namespace Wyostat.ThermoCentral
open Machine AdafruitMqtt
open AdafruitIo (Coordinates quote bytes chars toNat_of_mem_itoa toNat_of_mem_bytes
  chars_bytes_itoa)

/-- The names that the sketch asks `io.feed` for. -/
def feedName : Feed → List Char
  | .livingroomtemp => ['L', 'i', 'v', 'i', 'n', 'g', 'R', 'o', 'o', 'm', 'T', 'e', 'm', 'p']
  | .setTempLo =>
    ['w', 'y', 'o', 's', 't', 'a', 't', '.', 's', 'e', 't', 't', 'e', 'm', 'p', 'l', 'o']
  | .setTempHi =>
    ['w', 'y', 'o', 's', 't', 'a', 't', '.', 's', 'e', 't', 't', 'e', 'm', 'p', 'h', 'i']
  | .furnaceState =>
    ['w', 'y', 'o', 's', 't', 'a', 't', '.', 'f', 'u', 'r', 'n', 'a', 'c', 'e', '-', 's', 't', 'a',
      't', 'e']
  | .acState =>
    ['w', 'y', 'o', 's', 't', 'a', 't', '.', 'a', 'c', '-', 's', 't', 'a', 't', 'e']

/-- The topic that `AdafruitIO_Feed::_init` makes of a name. -/
def feedTopic (user : List UInt8) (feed : Feed) : List UInt8 :=
  user ++ bytes ['/', 'f', '/'] ++ bytes (feedName feed) ++ bytes ['/', 'c', 's', 'v']

/-- The feeds in the order in which the sketch makes them. -/
def feeds : List Feed := [.livingroomtemp, .setTempLo, .setTempHi, .furnaceState, .acState]

/-- A subscription as its constructor leaves it. -/
def newSubscription (topic : List UInt8) : Subscription :=
  ⟨topic, 0, List.replicate subscriptionDataLen 0, 0⟩

/-- The client once every feed has subscribed to its topic. -/
def subscribeFeeds (user : List UInt8) (c : Client) : Client :=
  feeds.foldl (fun c feed => (c.subscribe (newSubscription (feedTopic user feed))).1) c

def slot : Feed → Fin maxSubscriptions
  | .livingroomtemp => 0
  | .setTempLo => 1
  | .setTempHi => 2
  | .furnaceState => 3
  | .acState => 4

/-- The feed whose callback a subscription has. -/
def feedAt (i : Fin maxSubscriptions) : Feed := feeds.getD i .livingroomtemp

/-- A board between its calls of `readSubscription`; every feed has its data. -/
structure Board (α : Type*) where
  client : Client
  input : Stream
  data : Feed → AdafruitIo.Data α
  stat : Stat

/-- What a board sends to a feed. -/
structure Saving (α : Type*) where
  feed : Feed
  value : ℤ
  lat : α
  lon : α
  ele : α

variable {α : Type*} (co : Coordinates α)

/-- `AdafruitIO_Feed::subCallback` and the handler of the sketch behind it. -/
def Board.subCallback (b : Board α) (feed : Feed) (text : List UInt8) : Board α :=
  let d := ((b.data feed).setCSV co text).1
  { b with data := Function.update b.data feed d, stat := handle b.stat ⟨feed, chars d.value⟩ }

/-- One pass of `processPackets`; `beyond` is what stands behind a text that has no end. -/
def Board.receive (beyond : List UInt8) (b : Board α) (_ : Unit) : Board α :=
  let r := b.client.readSubscription b.input
  let b := { b with client := r.1, input := r.2.2.2 }
  match r.2.1 with
  | none => b
  | some i => match r.1.subscriptions i with
    | none => b
    | some sub => b.subCallback co (feedAt i) (sub.text.getD (sub.lastread ++ beyond))

/-- `toCSV` of what `save` has set. -/
def Saving.csv (s : Saving α) : List UInt8 :=
  AdafruitIo.Data.toCSV co ⟨bytes (Decimal.itoa s.value), s.lat, s.lon, s.ele⟩

def Saving.message (user : List UInt8) (s : Saving α) : Publication :=
  ⟨feedTopic user s.feed, s.csv co, none⟩

/-- The packets of `AdafruitIO_Feed::save`. -/
def savePackets (user : List UInt8) (id : UInt16) (ss : List (Saving α)) : List UInt8 :=
  ss.flatMap fun s => publishPacket (feedTopic user s.feed) (s.csv co) 0 id

section Topics
variable {user : List UInt8}

/-- Every feed has its place in the table of the client. -/
def Subscribed (user : List UInt8) (c : Client) : Prop :=
  ∀ feed, (c.subscriptions (slot feed)).map (·.topic) = some (feedTopic user feed)

theorem subscribed_subscribeFeeds (user : List UInt8) {c : Client}
    (hfree : ∀ i, c.subscriptions i = none) : Subscribed user (subscribeFeeds user c) := by
  obtain ⟨buffer, counter, subscriptions⟩ := c
  obtain rfl : subscriptions = fun _ => none := funext hfree
  intro feed
  cases feed <;> rfl

theorem feedAt_slot (feed : Feed) : feedAt (slot feed) = feed := by
  cases feed <;> rfl

theorem exists_slot (i : Fin maxSubscriptions) : ∃ feed, i = slot feed := by
  have hall : ∀ i : Fin maxSubscriptions, i = slot (feedAt i) := by decide
  exact ⟨feedAt i, hall i⟩

theorem slot_inj {f g : Feed} : slot f = slot g ↔ f = g := by
  constructor
  · intro h
    rw [← feedAt_slot f, h, feedAt_slot]
  · rintro rfl
    rfl

theorem sameTopic_feedTopic {f g : Feed} :
    sameTopic (feedTopic user f) (feedTopic user g) ↔ f = g := by
  constructor
  · intro h
    unfold sameTopic feedTopic at h
    simp only [List.map_append] at h
    have hnames : (bytes (feedName f)).map lower = (bytes (feedName g)).map lower :=
      List.append_cancel_left (List.append_cancel_right h)
    cases f <;> cases g <;> first | rfl | exact absurd hnames (by decide)
  · rintro rfl
    rfl

theorem Subscribed.find_eq {c : Client} (h : Subscribed user c) (feed : Feed) :
    c.find (feedTopic user feed) = some (slot feed) := by
  have hmatch : (fun i => (c.subscriptions i).any fun sub =>
      sub.topic.length = (feedTopic user feed).length ∧ sameTopic (feedTopic user feed) sub.topic) =
      fun i => decide (i = slot feed) := by
    funext i
    obtain ⟨g, rfl⟩ := exists_slot i
    obtain ⟨sub, hsub, htopic⟩ := Option.map_eq_some_iff.mp (h g)
    have htopic : sub.topic = feedTopic user g := htopic
    rw [hsub, Option.any_some, htopic]
    simp only [sameTopic_feedTopic, slot_inj, decide_eq_decide]
    constructor
    · exact fun hboth => hboth.2.symm
    · rintro rfl
      exact ⟨rfl, rfl⟩
  rw [Client.find, hmatch]
  cases feed <;> rfl

theorem Subscribed.kept {c : Client} (h : Subscribed user c) (m : Publication) :
    Subscribed user (c.kept m) := fun feed => (sameTopics_kept c m (slot feed)).symm.trans (h feed)

theorem length_feedTopic_le (user : List UInt8) (feed : Feed) :
    (feedTopic user feed).length ≤ user.length + 28 := by
  have hname : (feedName feed).length ≤ 21 := by cases feed <;> decide
  simp only [feedTopic, bytes, List.length_append, List.length_map, List.length_cons,
    List.length_nil]
  omega

end Topics

section Delivery
variable {co} {user : List UInt8} (beyond : List UInt8) {s : Saving α}

theorem length_csv_le (hshort : ∀ x, (co.text x).length ≤ 18) (hlo : -2 ^ 31 ≤ s.value)
    (hhi : s.value < 2 ^ 31) : (s.csv co).length ≤ 70 := by
  have hvalue := Decimal.length_itoa_le hlo hhi
  have hlat := hshort s.lat
  have hlon := hshort s.lon
  have hele := hshort s.ele
  simp only [Saving.csv, AdafruitIo.Data.toCSV, bytes, List.length_append, List.length_map,
    List.length_cons, List.length_nil]
  omega

theorem quote_not_mem_value (n : ℤ) : quote ∉ bytes (Decimal.itoa n) := fun h => by
  have hlo := toNat_of_mem_bytes (fun _ => toNat_of_mem_itoa) h
  exact absurd hlo (by decide)

theorem nul_not_mem_value (n : ℤ) : 0 ∉ bytes (Decimal.itoa n) := fun h => by
  have hlo := toNat_of_mem_bytes (fun _ => toNat_of_mem_itoa) h
  exact absurd hlo (by decide)

theorem textOf_csv (hco : co.Plain) (hlength : (s.csv co).length ≤ 70) :
    textOf (s.csv co) = some (s.csv co) := by
  have hclip : clip (s.csv co) = s.csv co := by
    rw [clip, if_neg]
    unfold subscriptionDataLen
    omega
  have hall : (s.csv co).takeWhile (· ≠ 0) = s.csv co :=
    AdafruitIo.toCSV_noNul _ hco (nul_not_mem_value s.value)
  rw [textOf, hclip, hall, if_pos]
  right
  unfold subscriptionDataLen
  omega

theorem receive_saving (hco : co.Plain) (hshort : ∀ x, (co.text x).length ≤ 18)
    (huser : user.length ≤ 27) {b : Board α} (hb : Subscribed user b.client)
    (hlo : -2 ^ 31 ≤ s.value) (hhi : s.value < 2 ^ 31) {more : Stream}
    (hinput : b.input = (s.message co user).packet.bytes.map some ++ more) :
    ∃ c data, Subscribed user c ∧ b.receive co beyond () =
      ⟨c, more, data, handle b.stat ⟨s.feed, Decimal.itoa s.value⟩⟩ := by
  have hcsv := length_csv_le hshort hlo hhi
  have htopic := length_feedTopic_le user s.feed
  have hlength : (s.message co user).length ≤ 127 := by
    have hsum : (s.message co user).length =
        2 + (feedTopic user s.feed).length + (s.csv co).length := rfl
    omega
  have hfind : b.client.find (s.message co user).topic = some (slot s.feed) := hb.find_eq s.feed
  obtain ⟨sub, hkept⟩ := kept_of_find hfind
  have htext : (sub.keep (clip (s.message co user).payload)).text = some (s.csv co) :=
    (text_keep sub _).trans (textOf_csv hco hcsv)
  have hset := AdafruitIo.setCSV_toCSV
    (⟨bytes (Decimal.itoa s.value), s.lat, s.lon, s.ele⟩ : AdafruitIo.Data α) (b.data s.feed) hco
    (quote_not_mem_value s.value) (nul_not_mem_value s.value)
  refine ⟨b.client.kept (s.message co user),
    Function.update b.data s.feed ((b.data s.feed).setCSV co (s.csv co)).1, hb.kept _, ?_⟩
  unfold Board.receive
  rw [hinput, readSubscription_short hlength, hfind]
  simp only [hkept, htext, Option.getD_some, feedAt_slot, Board.subCallback, Saving.csv, hset,
    chars_bytes_itoa]

/-- What is saved to the feeds of a user whose name has no more than 27 characters arrives:
receiving the packets is `io.run()` over the values that were saved, in order and once, wherever
they were saved. -/
theorem savings_arrive (hco : co.Plain) (hshort : ∀ x, (co.text x).length ≤ 18)
    (huser : user.length ≤ 27) (b : Board α) (hb : Subscribed user b.client) (id : UInt16)
    (ss : List (Saving α)) (hss : ∀ s ∈ ss, -2 ^ 31 ≤ s.value ∧ s.value < 2 ^ 31) (more : Stream)
    (hinput : b.input = (savePackets co user id ss).map some ++ more) :
    (run (Board.receive co beyond) b (ss.map fun _ => ())).stat =
        ioRun (ss.map fun s => ⟨s.feed, Decimal.itoa s.value⟩) b.stat ∧
      (run (Board.receive co beyond) b (ss.map fun _ => ())).input = more := by
  induction ss generalizing b with
  | nil => exact ⟨rfl, hinput⟩
  | cons s ss ih =>
    obtain ⟨hlo, hhi⟩ := hss s List.mem_cons_self
    have hpacket : publishPacket (feedTopic user s.feed) (s.csv co) 0 id =
        (s.message co user).packet.bytes := by
      have hcsv := length_csv_le hshort hlo hhi
      have htopic := length_feedTopic_le user s.feed
      refine publishPacket_eq (s.message co user) id ?_
      have hsum : (s.message co user).length =
          2 + (feedTopic user s.feed).length + (s.csv co).length := rfl
      omega
    rw [savePackets, List.flatMap_cons, hpacket, List.map_append, List.append_assoc] at hinput
    obtain ⟨c, data, hc, hreceive⟩ := receive_saving beyond hco hshort huser hb hlo hhi hinput
    rw [List.map_cons, List.map_cons, run_cons, hreceive]
    exact ih _ hc (fun s hs => hss s (List.mem_cons_of_mem _ hs)) rfl

/-- A board that has just started, with the lower set-point of another one on its way to it. -/
def sentSixtyEight : Board ℤ where
  client := subscribeFeeds [0x77] ⟨fun _ => 0, 0, fun _ => none⟩
  input := (savePackets AdafruitIo.wholeDegrees [0x77] 0 [⟨.setTempLo, 68, 0, 0, 0⟩]).map some ++
    [none]
  data := fun _ => ⟨[], 0, 0, 0⟩
  stat := setup Eeprom.erased

theorem savings_arrive_once :
    (run (Board.receive AdafruitIo.wholeDegrees []) sentSixtyEight [()]).stat =
        ioRun [⟨.setTempLo, Decimal.itoa 68⟩] (setup Eeprom.erased) ∧
      (run (Board.receive AdafruitIo.wholeDegrees []) sentSixtyEight [()]).input = [none] :=
  savings_arrive [] AdafruitIo.wholeDegrees_plain (fun _ => (List.length_take_le _ _)) (by decide)
    sentSixtyEight (subscribed_subscribeFeeds _ fun _ => rfl) 0 [⟨.setTempLo, 68, 0, 0, 0⟩]
    (by simp) [none] rfl

end Delivery

end Wyostat.ThermoCentral
