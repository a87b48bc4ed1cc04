import Wyostat.PubSubClient.Bounds
import Wyostat.Lib.KeepAlive

/-! One connection of the client from `connect` on: how often it sends, when it gives the broker up
and when it does not. -/
namespace Wyostat.PubSubClient
open Machine KeepAlive

/-- The client and whether its network connection stands. -/
structure Session where
  client : Client
  up : Bool

/-- The calls of a sketch between `connect` and `disconnect`, one after the other, at times in
milliseconds of which the clock keeps 32 bits, and the loss of the network connection. -/
inductive Use
  | publish (time : ℕ) (topic payload : List UInt8) (retained : Bool)
  | subscribe (time : ℕ) (topic : List UInt8) (qos : UInt8)
  | unsubscribe (time : ℕ) (topic : List UInt8)
  | loop (time : ℕ) (input : List UInt8)
  | drop (time : ℕ)

def Use.time : Use → ℕ
  | .publish time _ _ _ => time
  | .subscribe time _ _ => time
  | .unsubscribe time _ => time
  | .loop time _ => time
  | .drop time => time

def Use.polls : Use → Bool
  | .loop _ _ => true
  | _ => false

def Use.drops : Use → Bool
  | .drop _ => true
  | _ => false

/-- What arrives stays inside the buffer. -/
def Use.Fits : Use → Prop
  | .loop _ input => ShortLength input
  | _ => True

instance (u : Use) : Decidable u.Fits := by
  cases u <;> unfold Use.Fits <;> infer_instance

def Effect.stops : Effect → Bool
  | .stop => true
  | _ => false

def Effect.writes : Effect → Option (List UInt8)
  | .write bytes => some bytes
  | _ => none

/-- The client after a use, and what it has done. -/
def Session.perform (s : Session) : Use → Client × List Effect
  | .publish time topic payload retained =>
    s.client.publish (UInt32.ofNat time) s.up topic payload retained
  | .subscribe time topic qos => s.client.subscribe (UInt32.ofNat time) s.up topic qos
  | .unsubscribe time topic => s.client.unsubscribe (UInt32.ofNat time) s.up topic
  | .loop time input => s.client.call (.loop (UInt32.ofNat time) ⟨s.up, input⟩)
  | .drop _ => (s.client, [])

/-- A connection that has been stopped, or is lost, does not come back by itself. -/
def Session.use (s : Session) (u : Use) : Session :=
  let (client, es) := s.perform u
  ⟨client, s.up && !es.any Effect.stops && !u.drops⟩

/-- What a packet with this first byte means to the timers. -/
def packetKind (first : UInt8) : Heard × Reply :=
  if first &&& 0xF0 = 0x30 then (.something, if first &&& 0x06 = 0x02 then .noted else .none)
  else if first &&& 0xF0 = 0xC0 then (.something, .quiet)
  else if first &&& 0xF0 = 0xD0 then (.answer, .none)
  else (.something, .none)

/-- What arrives, as far as it matters to the timers; a packet that breaks off, or does not fit the
buffer, does not count. -/
def Client.hears (c : Client) (input : List UInt8) : Heard × Reply :=
  if input = [] then (.nothing, .none)
  else
    match tryPacket c.buffer input with
    | .error _ => (.nothing, .none)
    | .ok (r, _) => if 0 < r.len then packetKind (r.buffer 0) else (.nothing, .none)

/-- The use of a session as the timers see it. -/
def Session.input (s : Session) : Use → Input
  | .publish time topic payload _ =>
    if 7 + topic.length + payload.length ≤ 128 then .send time else .rest time
  | .subscribe time topic qos =>
    if qos ≤ 1 ∧ topic.length ≤ 119 then .send time else .rest time
  | .unsubscribe time topic => if topic.length ≤ 119 then .send time else .rest time
  | .loop time input =>
    let (heard, reply) := (s.client.pinged (UInt32.ofNat time)).1.hears input
    .poll time heard reply
  | .drop time => .cut time

/-- The timers of a client. -/
def Client.monitor (c : Client) (closed : Bool) : Monitor 32 :=
  ⟨c.lastOutActivity.toBitVec, c.lastInActivity.toBitVec, c.pingOutstanding, closed⟩

def Session.monitor (s : Session) : Monitor 32 := s.client.monitor (!s.up)

/-- When a session sends something. -/
def Session.sends (s : Session) (u : Use) : List ℕ :=
  ((s.perform u).2.filterMap Effect.writes).map fun _ => u.time

section View

/-- The keep-alive time in milliseconds. -/
def keepalive : ℕ := 15000

theorem overdue_iff (c : Client) (time : ℕ) (closed : Bool) :
    c.overdue (UInt32.ofNat time) ↔ Overdue keepalive (c.monitor closed) time := by
  unfold Client.overdue Overdue elapsed
  rw [UInt32.lt_iff_toNat_lt, UInt32.lt_iff_toNat_lt]
  exact Iff.rfl

theorem pinged_monitor (c : Client) (time : ℕ) :
    (c.pinged (UInt32.ofNat time)).1.monitor false =
      KeepAlive.pinged keepalive (c.monitor false) time := by
  have hiff := overdue_iff c time false
  unfold Client.pinged KeepAlive.pinged
  by_cases hdue : c.overdue (UInt32.ofNat time)
  · rw [if_pos hdue, if_pos (hiff.mp hdue)]
    rfl
  · rw [if_neg hdue, if_neg (mt hiff.mpr hdue)]

theorem handle_monitor (c : Client) (time len llen : ℕ) :
    (c.handle (UInt32.ofNat time) len llen).1.monitor false =
      reply (hear (c.monitor false) time (packetKind (c.buffer 0)).1) time
        (packetKind (c.buffer 0)).2 := by
  dsimp only [Client.handle, packetKind]
  split_ifs <;> rfl

/-- How many packets a reply is. -/
def replyCount : Reply → ℕ
  | .none => 0
  | _ => 1

theorem handle_effects (c : Client) (t : UInt32) (len llen : ℕ) :
    (c.handle t len llen).1.state = c.state ∧
      (c.handle t len llen).2.any Effect.stops = false ∧
      ((c.handle t len llen).2.filterMap Effect.writes).length =
        replyCount (packetKind (c.buffer 0)).2 := by
  dsimp only [Client.handle, packetKind]
  split_ifs <;> exact ⟨rfl, rfl, rfl⟩

theorem receive_monitor (c : Client) (time : ℕ) {input : List UInt8} (h : ShortLength input) :
    (c.receive (UInt32.ofNat time) ⟨true, input⟩).1.monitor false =
      reply (hear (c.monitor false) time (c.hears input).1) time (c.hears input).2 := by
  simp only [Client.receive, Client.hears, reads_eq c h]
  split_ifs with hempty
  · rfl
  · cases tryPacket c.buffer input with
    | error m => rfl
    | ok x =>
      dsimp only
      split_ifs with hlen
      · exact handle_monitor { c with buffer := x.1.buffer } time _ _
      · rfl

theorem receive_effects (c : Client) (t : UInt32) (input : List UInt8) :
    (c.receive t ⟨true, input⟩).1.state = c.state ∧
      (c.receive t ⟨true, input⟩).2.1.any Effect.stops = false ∧
      ((c.receive t ⟨true, input⟩).2.1.filterMap Effect.writes).length =
        replyCount (c.hears input).2 := by
  have hbuffer : (c.reads input).buffer = c.buffer := rfl
  simp only [Client.receive, Client.hears, hbuffer]
  split_ifs with hempty
  · exact ⟨rfl, rfl, rfl⟩
  · cases tryPacket c.buffer input with
    | error m => exact ⟨rfl, rfl, rfl⟩
    | ok x =>
      dsimp only
      split_ifs with hlen
      · exact handle_effects { c.reads input with buffer := x.1.buffer } t _ _
      · exact ⟨rfl, rfl, rfl⟩

theorem givesUp_iff (c : Client) (time : ℕ) :
    c.closes (UInt32.ofNat time) ↔ GivesUp keepalive (c.monitor false) time :=
  and_congr_left fun _ => overdue_iff c time false

theorem loop_giveUp (c : Client) (t : UInt32) (h : c.closes t) (input : List UInt8) :
    c.call (.loop t ⟨true, input⟩) = ({ c with state := mqttConnectionTimeout }, [.stop]) := by
  simp [Client.call, Client.loop, Client.connected, h.1, h.2]

theorem loop_poll (c : Client) (t : UInt32) (h : ¬ c.closes t) (input : List UInt8) :
    c.call (.loop t ⟨true, input⟩) =
      (((c.pinged t).1.receive t ⟨true, input⟩).1,
        (c.pinged t).2 ++ ((c.pinged t).1.receive t ⟨true, input⟩).2.1) := by
  have hloop := loop_of_not_closes h input
  dsimp only at hloop
  rw [Client.call, hloop]

theorem pinged_effects (c : Client) (t : UInt32) :
    (c.pinged t).1.state = c.state ∧ (c.pinged t).2.any Effect.stops = false ∧
      (c.pinged t).2.filterMap Effect.writes = if c.overdue t then [[0xC0, 0]] else [] := by
  unfold Client.pinged
  split_ifs <;> exact ⟨rfl, rfl, rfl⟩

end View

section Simulation

theorem connected_false (c : Client) (closed : Bool) :
    (c.connected false).1.monitor closed = c.monitor closed ∧
      (c.connected false).2.filterMap Effect.writes = [] ∧
      ((c.connected false).1.state = c.state ∨ c.state = mqttConnected) := by
  unfold Client.connected
  by_cases hstate : c.state = mqttConnected
  · rw [if_pos ⟨rfl, hstate⟩]
    exact ⟨rfl, rfl, Or.inr hstate⟩
  · rw [if_neg fun h => hstate h.2]
    exact ⟨rfl, rfl, Or.inl rfl⟩

theorem perform_of_down (s : Session) (h : s.up = false) (u : Use) (closed : Bool) :
    (s.perform u).1.monitor closed = s.client.monitor closed ∧
      (s.perform u).2.filterMap Effect.writes = [] ∧
      ((s.perform u).1.state = s.client.state ∨ s.client.state = mqttConnected) := by
  have hdown := connected_false s.client closed
  have hrest : (s.client, ([] : List Effect)).1.monitor closed = s.client.monitor closed ∧
      (s.client, ([] : List Effect)).2.filterMap Effect.writes = [] ∧
      ((s.client, ([] : List Effect)).1.state = s.client.state ∨ s.client.state = mqttConnected) :=
    ⟨rfl, rfl, Or.inl rfl⟩
  cases u with
  | publish time topic payload retained =>
    simpa [Session.perform, Client.publish, h] using hdown
  | subscribe time topic qos =>
    simp only [Session.perform, Client.subscribe, h, Bool.false_eq_true, if_false]
    split_ifs
    · exact hrest
    · exact hrest
    · exact hdown
  | unsubscribe time topic =>
    simp only [Session.perform, Client.unsubscribe, h, Bool.false_eq_true, if_false]
    split_ifs
    · exact hrest
    · exact hdown
  | loop time input => simpa [Session.perform, Client.call, Client.loop, h] using hdown
  | drop time => exact hrest

theorem wrote_monitor (c : Client) (time : ℕ) (p : Packet) (closed : Bool) :
    (c.wrote (UInt32.ofNat time) p).monitor closed =
      { c.monitor closed with out := BitVec.ofNat 32 time } := rfl

/-- What a call that sends at most one packet does on a connection that stands. -/
inductive Sending (s : Session) (u : Use) : Prop
  | sends (c : Client) (bytes : List UInt8) (hperform : s.perform u = (c, [.write bytes]))
      (hmonitor : c.monitor false = { s.client.monitor false with out := BitVec.ofNat 32 u.time })
      (hstate : c.state = s.client.state) (hinput : s.input u = .send u.time)
  | rests (hperform : s.perform u = (s.client, [])) (hinput : s.input u = .rest u.time)

theorem sending_publish (s : Session) (h : s.up = true) (time : ℕ) (topic payload : List UInt8)
    (retained : Bool) : Sending s (.publish time topic payload retained) := by
  by_cases hfits : 7 + topic.length + payload.length ≤ 128
  · have hperform : s.perform (.publish time topic payload retained) = _ :=
      (congrArg (s.client.publish _ · topic payload retained) h).trans
        (publish_eq s.client (UInt32.ofNat time) topic payload retained hfits)
    exact .sends _ _ hperform (wrote_monitor _ _ _ _) rfl (if_pos hfits)
  · refine .rests ?_ (if_neg hfits)
    have hlong : 128 < 5 + 2 + topic.length + payload.length := by omega
    simp [Session.perform, Client.publish, Client.connected, h, hlong]

theorem sending_subscribe (s : Session) (h : s.up = true) (time : ℕ) (topic : List UInt8)
    (qos : UInt8) : Sending s (.subscribe time topic qos) := by
  by_cases hfits : qos ≤ 1 ∧ topic.length ≤ 119
  · have hperform : s.perform (.subscribe time topic qos) = _ :=
      (congrArg (s.client.subscribe _ · topic qos) h).trans
        (subscribe_eq s.client (UInt32.ofNat time) topic qos hfits.1 hfits.2)
    have hmonitor : (s.client.drawId.spilled topic qos).monitor false = s.client.monitor false := by
      rw [spilled_eq s.client.drawId qos hfits.2]
      rfl
    exact .sends _ _ hperform ((wrote_monitor _ time _ _).trans (by rw [hmonitor]; rfl)) rfl
      (if_pos hfits)
  · refine .rests ?_ (if_neg hfits)
    dsimp only [Session.perform, Client.subscribe]
    split_ifs with hqos hlong
    · rfl
    · rfl
    · exact absurd ⟨UInt8.not_lt.mp fun hlt => hqos (Or.inr hlt), by omega⟩ hfits

theorem sending_unsubscribe (s : Session) (h : s.up = true) (time : ℕ) (topic : List UInt8) :
    Sending s (.unsubscribe time topic) := by
  by_cases hfits : topic.length ≤ 119
  · have hperform : s.perform (.unsubscribe time topic) = _ :=
      (congrArg (s.client.unsubscribe _ · topic) h).trans
        (unsubscribe_eq s.client (UInt32.ofNat time) topic hfits)
    exact .sends _ _ hperform (wrote_monitor _ _ _ _) rfl (if_pos hfits)
  · refine .rests ?_ (if_neg hfits)
    have hlong : 128 < 9 + topic.length := by omega
    simp [Session.perform, Client.unsubscribe, hlong]

theorem input_time (s : Session) (u : Use) : (s.input u).time = u.time := by
  cases u <;> dsimp only [Session.input]
  case loop => rfl
  case drop => rfl
  all_goals split_ifs <;> rfl

theorem input_polls (s : Session) (u : Use) : (s.input u).polls = u.polls := by
  cases u <;> dsimp only [Session.input]
  case loop => rfl
  case drop => rfl
  all_goals split_ifs <;> rfl

theorem step_of_sending {s : Session} (h : s.up = true) {u : Use} (hu : u.drops = false)
    (hs : Sending s u) :
    (s.use u).monitor = KeepAlive.step keepalive s.monitor (s.input u) ∧
      s.sends u = KeepAlive.sends keepalive s.monitor (s.input u) := by
  have hmon : s.monitor = s.client.monitor false := by simp [Session.monitor, h]
  have hopen : (s.client.monitor false).closed = false := rfl
  cases hs with
  | sends c bytes hperform hmonitor hstate hinput =>
    have huse : (s.use u).monitor = c.monitor false := by
      simp [Session.use, Session.monitor, hperform, Effect.stops, h, hu]
    rw [huse, hmonitor, hinput, hmon]
    simp [KeepAlive.step, KeepAlive.sends, hopen, Session.sends, hperform, Effect.writes]
  | rests hperform hinput =>
    have huse : (s.use u).monitor = s.client.monitor false := by
      simp [Session.use, Session.monitor, hperform, h, hu]
    rw [huse, hinput, hmon]
    simp [KeepAlive.step, KeepAlive.sends, Session.sends, hperform]

theorem loop_simulates (s : Session) (h : s.up = true) (time : ℕ) {input : List UInt8}
    (hfits : ShortLength input) :
    (s.use (.loop time input)).monitor =
        KeepAlive.step keepalive s.monitor (s.input (.loop time input)) ∧
      s.sends (.loop time input) =
        KeepAlive.sends keepalive s.monitor (s.input (.loop time input)) := by
  have hmon : s.monitor = s.client.monitor false := by simp [Session.monitor, h]
  have hopen : (s.client.monitor false).closed = false := rfl
  have hiff := givesUp_iff s.client time
  rw [hmon]
  by_cases hgive : s.client.closes (UInt32.ofNat time)
  · have hperform : s.perform (.loop time input) = _ :=
      (congrArg (fun up => s.client.call (.loop _ ⟨up, input⟩)) h).trans
        (loop_giveUp s.client (UInt32.ofNat time) hgive input)
    have huse : (s.use (.loop time input)).monitor = s.client.monitor true := by
      simp [Session.use, Session.monitor, hperform, Effect.stops, Client.monitor]
    rw [huse]
    refine ⟨(step_giveUp hopen (hiff.mp hgive) _ _).symm, ?_⟩
    simp [Session.sends, hperform, Effect.writes, Session.input, KeepAlive.sends, hiff.mp hgive]
  · obtain ⟨-, hstops, hwrites⟩ := pinged_effects s.client (UInt32.ofNat time)
    obtain ⟨-, hstops', hwrites'⟩ := receive_effects (s.client.pinged (UInt32.ofNat time)).1
      (UInt32.ofNat time) input
    have hmonitor := receive_monitor (s.client.pinged (UInt32.ofNat time)).1 time hfits
    have hperform : s.perform (.loop time input) = _ :=
      (congrArg (fun up => s.client.call (.loop _ ⟨up, input⟩)) h).trans
        (loop_poll s.client (UInt32.ofNat time) hgive input)
    have huse : (s.use (.loop time input)).monitor =
        (s.perform (.loop time input)).1.monitor false := by
      simp [Session.use, Session.monitor, hperform, hstops, hstops', h, Use.drops]
    have hsends : s.sends (.loop time input) =
        (if s.client.overdue (UInt32.ofNat time) then [time] else []) ++
          List.replicate
            (replyCount ((s.client.pinged (UInt32.ofNat time)).1.hears input).2) time := by
      simp only [Session.sends, hperform, List.filterMap_append, List.map_append, hwrites,
        List.map_const', hwrites', Use.time]
      split_ifs <;> rfl
    have hdue := overdue_iff s.client time false
    rw [huse, hperform, hmonitor, pinged_monitor, hsends]
    refine ⟨(step_poll hopen (mt hiff.mpr hgive) _ _).symm, ?_⟩
    simp only [Session.input, KeepAlive.sends, hopen, Bool.false_eq_true, if_false,
      if_neg (mt hiff.mpr hgive), ← hdue]
    congr 1
    cases ((s.client.pinged (UInt32.ofNat time)).1.hears input).2 <;> rfl

/-- The timers of a session, and when it sends something, are those of the general monitor. -/
theorem use_simulates (s : Session) (u : Use) (hfits : u.Fits) :
    (s.use u).monitor = KeepAlive.step keepalive s.monitor (s.input u) ∧
      s.sends u = KeepAlive.sends keepalive s.monitor (s.input u) := by
  cases hup : s.up with
  | false =>
    obtain ⟨hmonitor, hwrites, -⟩ := perform_of_down s hup u true
    have hmon : s.monitor = s.client.monitor true := by simp [Session.monitor, hup]
    have hclosed : s.monitor.closed = true := by simp [Session.monitor, Client.monitor, hup]
    have huse : (s.use u).monitor = (s.perform u).1.monitor true := by
      simp [Session.use, Session.monitor, hup]
    rw [huse, hmonitor, KeepAlive.step_of_closed hclosed, hmon]
    refine ⟨rfl, ?_⟩
    simp [Session.sends, hwrites, KeepAlive.sends, Client.monitor]
  | true =>
    cases u with
    | publish time topic payload retained =>
      exact step_of_sending hup rfl (sending_publish s hup time topic payload retained)
    | subscribe time topic qos =>
      exact step_of_sending hup rfl (sending_subscribe s hup time topic qos)
    | unsubscribe time topic =>
      exact step_of_sending hup rfl (sending_unsubscribe s hup time topic)
    | loop time input => exact loop_simulates s hup time hfits
    | drop time =>
      have hmon : s.monitor = s.client.monitor false := by simp [Session.monitor, hup]
      rw [hmon]
      exact ⟨by simp [Session.use, Session.perform, Session.monitor, Session.input, KeepAlive.step,
        Client.monitor, Use.drops],
      by simp [Session.sends, Session.perform, Session.input, KeepAlive.sends]⟩

theorem handle_writes (c : Client) (t : UInt32) (len llen : ℕ) :
    [0xC0, 0] ∉ (c.handle t len llen).2.filterMap Effect.writes := by
  dsimp only [Client.handle]
  split_ifs <;> simp [Effect.writes, Client.send]

theorem receive_writes (c : Client) (t : UInt32) (input : List UInt8) :
    [0xC0, 0] ∉ (c.receive t ⟨true, input⟩).2.1.filterMap Effect.writes := by
  have hbuffer : (c.reads input).buffer = c.buffer := rfl
  simp only [Client.receive, hbuffer]
  split_ifs with hempty
  · simp
  · cases tryPacket c.buffer input with
    | error m => simp
    | ok x =>
      dsimp only
      split_ifs with hlen
      · exact handle_writes { c.reads input with buffer := x.1.buffer } t _ _
      · simp

/-- What becomes of the pings of a session: they are the packets of type PINGREQ that it sends, and
answered by those of type PINGRESP that it handles. -/
def Session.events (s : Session) : Use → List KeepAlive.Event
  | .loop time input =>
    let es := (s.perform (.loop time input)).2
    if s.up then
      if es.any Effect.stops then [.close time]
      else (if [0xC0, 0] ∈ es.filterMap Effect.writes then [.ping time] else []) ++
        if ((s.client.pinged (UInt32.ofNat time)).1.hears input).1 = .answer then [.answer time]
        else []
    else []
  | _ => []

theorem events_eq (s : Session) (u : Use) :
    s.events u = KeepAlive.events keepalive s.monitor (s.input u) := by
  have hnone : KeepAlive.events keepalive s.monitor (.rest u.time) = [] ∧
      KeepAlive.events keepalive s.monitor (.send u.time) = [] ∧
      KeepAlive.events keepalive s.monitor (.cut u.time) = [] := by
    simp [KeepAlive.events]
  cases u with
  | publish time topic payload retained =>
    dsimp only [Session.input]
    split_ifs
    · exact hnone.2.1.symm
    · exact hnone.1.symm
  | subscribe time topic qos =>
    dsimp only [Session.input]
    split_ifs
    · exact hnone.2.1.symm
    · exact hnone.1.symm
  | unsubscribe time topic =>
    dsimp only [Session.input]
    split_ifs
    · exact hnone.2.1.symm
    · exact hnone.1.symm
  | drop time => exact hnone.2.2.symm
  | loop time input =>
    cases hup : s.up with
    | false => simp [Session.events, KeepAlive.events, Session.monitor, Client.monitor, hup]
    | true =>
      have hmon : s.monitor = s.client.monitor false := by simp [Session.monitor, hup]
      have hopen : (s.client.monitor false).closed = false := rfl
      have hiff := givesUp_iff s.client time
      rw [hmon]
      by_cases hgive : s.client.closes (UInt32.ofNat time)
      · have hperform : s.perform (.loop time input) = _ :=
          (congrArg (fun up => s.client.call (.loop _ ⟨up, input⟩)) hup).trans
            (loop_giveUp s.client (UInt32.ofNat time) hgive input)
        simp [Session.events, hup, hperform, Effect.stops, KeepAlive.events, Session.input, hopen,
          hiff.mp hgive]
      · obtain ⟨-, hstops, hwrites⟩ := pinged_effects s.client (UInt32.ofNat time)
        obtain ⟨-, hstops', -⟩ := receive_effects (s.client.pinged (UInt32.ofNat time)).1
          (UInt32.ofNat time) input
        have hreceive := receive_writes (s.client.pinged (UInt32.ofNat time)).1
          (UInt32.ofNat time) input
        have hdue := overdue_iff s.client time false
        have hperform : s.perform (.loop time input) = _ :=
          (congrArg (fun up => s.client.call (.loop _ ⟨up, input⟩)) hup).trans
            (loop_poll s.client (UInt32.ofNat time) hgive input)
        have hping : [0xC0, 0] ∈ (s.perform (.loop time input)).2.filterMap Effect.writes ↔
            s.client.overdue (UInt32.ofNat time) := by
          rw [hperform, List.filterMap_append, List.mem_append, hwrites]
          split_ifs with h <;> simp [h, hreceive]
        have hquiet : (s.perform (.loop time input)).2.any Effect.stops = false := by
          rw [hperform, List.any_append, hstops, hstops']
          rfl
        simp only [Session.events, hup, if_true, hquiet, Bool.false_eq_true, if_false, hping]
        simp only [Session.input, KeepAlive.events, hopen, Bool.false_eq_true, if_false,
          if_neg (mt hiff.mpr hgive), ← hdue]

end Simulation

section Connection

/-- A connection as `connect` leaves it: the request went out at `o`, the answer came at `a`. -/
structure Session.Opened (s : Session) (o a : ℕ) : Prop where
  up : s.up = true
  state : s.client.state = mqttConnected
  out : s.client.lastOutActivity = UInt32.ofNat o
  into : s.client.lastInActivity = UInt32.ofNat a
  ping : s.client.pingOutstanding = false

variable {s : Session} {o a gap : ℕ} {us : List Use}

/-- The wait for an answer that is in at `a`, to a request that goes out at `o`. -/
def answered (o a : ℕ) (answer : List UInt8) : Dial :=
  ⟨true, UInt32.ofNat o, some (UInt32.ofNat a, answer)⟩

/-- A call of `connect` that the broker accepts; the request and the answer stay inside the
buffer. -/
structure Opening (o a : ℕ) where
  client : Client
  login : Login
  answer : List UInt8
  fits : ConnectFits login (answered o a answer)
  accepted : (client.connect false login (answered o a answer)).2.2 = true

def Opening.session (c : Opening o a) : Session :=
  ⟨(c.client.connect false c.login (answered o a c.answer)).1, true⟩

theorem Opening.opened (c : Opening o a) : c.session.Opened o a := by
  obtain ⟨c, l, answer, hfits, h⟩ := c
  simp only [Opening.session, answered, Client.connect, Bool.false_eq_true, if_false, if_true]
    at h ⊢
  generalize ({ (c.connected false).1 with nextMsgId := 1 }.request (UInt32.ofNat o) l).1 = c' at *
  simp only [Client.await, reads_eq _ (hfits.2 _ rfl)] at h ⊢
  cases hread : tryPacket c'.buffer answer with
  | error m =>
    rw [hread] at h
    cases h
  | ok x =>
    rw [hread] at h
    dsimp only at h ⊢
    by_cases hlen : x.1.len = 4
    · rw [if_pos hlen] at h ⊢
      by_cases hzero : x.1.buffer 3 = 0
      · rw [if_pos hzero]
        exact ⟨rfl, rfl, rfl, rfl, rfl⟩
      · rw [if_neg hzero] at h
        cases h
    · rw [if_neg hlen] at h
      cases h

/-- The uses of a session as the timers see them. -/
def Session.inputs (s : Session) (us : List Use) : List Input :=
  outputs Session.use (fun s u => [s.input u]) s us

theorem along_fits (hfits : ∀ u ∈ us, u.Fits) : Along Session.use (fun _ u => u.Fits) s us :=
  along_of_forall_mem (fun u hu _ => hfits u hu) s

theorem run_monitor (hfits : ∀ u ∈ us, u.Fits) :
    (run Session.use s us).monitor = run (KeepAlive.step keepalive) s.monitor (s.inputs us) :=
  run_simulates (I := fun _ => True) Session.monitor _ (fun _ _ _ _ => trivial)
    (fun s u _ hu => (use_simulates s u hu).1) trivial (along_fits hfits)

theorem Session.Opened.monitor_eq (h : s.Opened o a) :
    s.monitor = ⟨BitVec.ofNat 32 o, BitVec.ofNat 32 a, false, false⟩ := by
  simp only [Session.monitor, Client.monitor, h.up, h.out, h.into, h.ping, Bool.not_true]
  rfl

theorem up_eq (s : Session) : s.up = !s.monitor.closed := by
  simp [Session.monitor, Client.monitor]

/-- From a `connect` on, up to the end of the connection: as long as `loop()` is called every `gap`
milliseconds and no length that arrives overruns the buffer, the client sends something every 15
seconds and a gap. -/
theorem isChain_sends_session (c : Opening o a) (hoa : o ≤ a) (hgap : keepalive + gap < 2 ^ 32)
    (hanswer : a ≤ o + gap) (hp : Paced Use.time Use.polls gap o a us)
    (hfits : ∀ u ∈ us, u.Fits) :
    (o :: (outputs Session.use Session.sends c.session us ++
      if (run Session.use c.session us).up then [endTime Use.time a us] else [])).IsChain
        (Within (keepalive + gap)) := by
  have hsends := outputs_view (s := c.session) Session.monitor Session.input
    (fun s u hu => (use_simulates s u hu).1) (fun s u hu => (use_simulates s u hu).2)
    (along_fits hfits)
  have hlive : Live keepalive gap c.session.monitor o a o o := by
    rw [c.opened.monitor_eq]
    exact ⟨rfl, rfl, le_rfl, hoa, hoa, hanswer, Nat.le_add_right _ _⟩
  have hpaced : Paced Input.time Input.polls gap o a (c.session.inputs us) :=
    paced_outputs input_time input_polls hp
  have hchain := isChain_sends hgap hlive hpaced
  rw [← run_monitor hfits, Session.inputs, endTime_outputs input_time, ← Session.inputs] at hchain
  rw [hsends, up_eq]
  cases hclosed : (run Session.use c.session us).monitor.closed with
  | false => rwa [hclosed] at hchain
  | true => rwa [hclosed] at hchain

/-- A first connection, opened at a clock of 0. -/
def firstOpening : Opening 0 0 where
  client := ⟨mqttDisconnected, 0, 0, 0, false, fun _ => 0⟩
  login := ⟨[0x61], none, none, none⟩
  answer := [0x20, 2, 0, 0]
  fits := by
    refine ⟨by decide, fun a ha => ?_⟩
    obtain rfl := Option.some_inj.mp ha
    decide
  accepted := by decide

theorem isChain_sends_session_once :
    (0 :: (outputs Session.use Session.sends firstOpening.session [.loop 7500 [], .loop 15001 []] ++
      if (run Session.use firstOpening.session [.loop 7500 [], .loop 15001 []]).up then
        [endTime Use.time 0 [.loop 7500 [], .loop 15001 []]] else [])).IsChain
          (Within (keepalive + 7501)) :=
  isChain_sends_session firstOpening le_rfl (by decide) (by decide) (by decide) (by decide)

/-- The connection stands, or the broker has been given up. -/
def Session.UpOrTimedOut (s : Session) : Prop :=
  s.up = true ∧ s.client.state = mqttConnected ∨
    s.up = false ∧ s.client.state = mqttConnectionTimeout

theorem upOrTimedOut_use (hs : s.UpOrTimedOut) {u : Use} (hu : u.drops = false) :
    (s.use u).UpOrTimedOut := by
  rcases hs with ⟨hup, hstate⟩ | ⟨hdown, hstate⟩
  · have hsending (hs : Sending s u) : (s.use u).UpOrTimedOut := by
      cases hs with
      | sends c bytes hperform hmonitor hstate' hinput =>
        left
        simp [Session.use, hperform, Effect.stops, hup, hu, hstate', hstate]
      | rests hperform hinput =>
        left
        simp [Session.use, hperform, hup, hu, hstate]
    cases u with
    | publish time topic payload retained => exact hsending (sending_publish s hup _ _ _ _)
    | subscribe time topic qos => exact hsending (sending_subscribe s hup _ _ _)
    | unsubscribe time topic => exact hsending (sending_unsubscribe s hup _ _)
    | drop time => cases hu
    | loop time input =>
      by_cases hgive : s.client.closes (UInt32.ofNat time)
      · right
        have hperform : s.perform (.loop time input) = _ :=
          (congrArg (fun up => s.client.call (.loop _ ⟨up, input⟩)) hup).trans
            (loop_giveUp s.client (UInt32.ofNat time) hgive input)
        simp [Session.use, hperform, Effect.stops]
      · left
        obtain ⟨hsame, hstops, -⟩ := pinged_effects s.client (UInt32.ofNat time)
        obtain ⟨hsame', hstops', -⟩ := receive_effects (s.client.pinged (UInt32.ofNat time)).1
          (UInt32.ofNat time) input
        have hperform : s.perform (.loop time input) = _ :=
          (congrArg (fun up => s.client.call (.loop _ ⟨up, input⟩)) hup).trans
            (loop_poll s.client (UInt32.ofNat time) hgive input)
        simp [Session.use, hperform, hstops, hstops', hup, hu, hsame, hsame', hstate]
  · right
    obtain ⟨-, -, hsame⟩ := perform_of_down s hdown u true
    have hstate' : (s.perform u).1.state = mqttConnectionTimeout := by
      rcases hsame with hsame | hconnected
      · rw [hsame, hstate]
      · rw [hstate] at hconnected
        cases hconnected
    exact ⟨by simp [Session.use, hdown], hstate'⟩

/-- A broker from which no whole packet comes is given up after two times 15 seconds and a gap, on a
connection that is not lost before, as long as no length that arrives overruns the buffer. -/
theorem timeout_of_silence (c : Opening o a) (hgap : keepalive + gap < 2 ^ 32)
    (hp : Paced Use.time Use.polls gap a a us) (hfits : ∀ u ∈ us, u.Fits)
    (hdrops : ∀ u ∈ us, u.drops = false) (hsilent : ∀ i ∈ c.session.inputs us, i.Silent)
    (hlong : a + 2 * (keepalive + gap) < endTime Use.time a us) :
    (run Session.use c.session us).up = false ∧
      (run Session.use c.session us).client.state = mqttConnectionTimeout := by
  have hstates : Always Session.use Session.UpOrTimedOut c.session us :=
    always_of_along (fun _ _ hs hu => upOrTimedOut_use hs hu)
      (Or.inl ⟨c.opened.up, c.opened.state⟩) (along_of_forall_mem (fun u hu _ => hdrops u hu) _)
  rcases hstates.last with ⟨hup, -⟩ | hdown
  · have hquiet : Quiet keepalive gap c.session.monitor a a a := by
      rw [c.opened.monitor_eq]
      exact ⟨rfl, rfl, le_rfl, le_rfl, Nat.le_add_right _ _, Nat.le_add_right _ _⟩
    have hpaced : Paced Input.time Input.polls gap a a (c.session.inputs us) :=
      paced_outputs input_time input_polls hp
    have hopen : (run (KeepAlive.step keepalive) c.session.monitor
        (c.session.inputs us)).closed = false := by
      rw [← run_monitor hfits]
      simp [Session.monitor, Client.monitor, hup]
    have hend := endTime_le_of_silent hgap hquiet hpaced hsilent hopen
    rw [Session.inputs, endTime_outputs input_time, c.opened.monitor_eq] at hend
    simp only [patience, Bool.false_eq_true, if_false] at hend
    omega
  · exact hdown

theorem silent_inputs (h : ∀ u ∈ us, ∃ time, u = .loop time []) : ∀ i ∈ s.inputs us, i.Silent := by
  intro i hi
  induction us generalizing s with
  | nil => cases hi
  | cons u us ih =>
    obtain ⟨time, rfl⟩ := h u List.mem_cons_self
    rcases List.mem_cons.mp hi with rfl | hi
    · rfl
    · exact ih (fun v hv => h v (List.mem_cons_of_mem _ hv)) hi

theorem timeout_of_silence_once :
    (run Session.use firstOpening.session
        [.loop 15001 [], .loop 30002 [], .loop 45003 [], .loop 60004 []]).up = false ∧
      (run Session.use firstOpening.session [.loop 15001 [], .loop 30002 [], .loop 45003 [],
        .loop 60004 []]).client.state = mqttConnectionTimeout :=
  timeout_of_silence firstOpening (by decide)
    (show Paced Use.time Use.polls 15001 0 0 _ by decide) (by decide) (by simp [Use.drops])
    (silent_inputs (by simp)) (by decide)

/-- From a `connect` on, up to the end of the connection, as long as no length that arrives overruns
the buffer: a ping goes out only when no other one is unanswered, and the client gives the broker up
only when a ping has been unanswered for longer than 15 seconds. -/
theorem isChain_events_session (c : Opening o a) (hf : Forward Use.time a us)
    (hfits : ∀ u ∈ us, u.Fits) :
    (KeepAlive.Event.answer a :: outputs Session.use Session.events c.session us).IsChain
      (Follows keepalive) := by
  have hevents := outputs_view (s := c.session) Session.monitor Session.input
    (fun s u hu => (use_simulates s u hu).1) (fun s u _ => events_eq s u) (along_fits hfits)
  have htells : Tells c.session.monitor a (.answer a) := by
    rw [c.opened.monitor_eq]
    rfl
  rw [hevents]
  exact isChain_events htells (forward_outputs input_time hf)

theorem isChain_events_session_once :
    (KeepAlive.Event.answer 0 :: outputs Session.use Session.events firstOpening.session
      [.loop 15001 [], .loop 30002 []]).IsChain (Follows keepalive) :=
  isChain_events_session firstOpening (by decide) (by decide)

end Connection

end Wyostat.PubSubClient
