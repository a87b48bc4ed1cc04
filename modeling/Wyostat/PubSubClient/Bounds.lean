import Wyostat.PubSubClient.Messages

/-! Which calls of the client stay inside its buffer, over whole runs of calls. -/
namespace Wyostat.PubSubClient
open Machine

theorem sameBehind_store {m : Memory} {start : ℕ} {bytes : List UInt8}
    (h : start + bytes.length ≤ 128) : SameBehind m (store m start bytes) :=
  fun _ hi => store_of_le m (by omega)

section Members
variable {m m' : Memory} {i : ℕ}

theorem uint16At_congr (h : ∀ j < 2, m' (i + j) = m (i + j)) : uint16At m' i = uint16At m i := by
  have hlow := h 0 (by decide)
  rw [Nat.add_zero] at hlow
  rw [uint16At, uint16At, hlow, h 1 (by decide)]

theorem uint32At_congr (h : ∀ j < 4, m' (i + j) = m (i + j)) : uint32At m' i = uint32At m i := by
  have hlow := h 0 (by decide)
  rw [Nat.add_zero] at hlow
  rw [uint32At, uint32At, hlow, h 1 (by decide), h 2 (by decide), h 3 (by decide)]

theorem uint16At_store (m : Memory) (i : ℕ) (n : UInt16) :
    uint16At (store m i (bytes16 n)) i = n := by
  have hlow : store m i (bytes16 n) i = UInt8.ofNat n.toNat :=
    store_add (i := 0) m (by simp [bytes16])
  have hhigh : store m i (bytes16 n) (i + 1) = UInt8.ofNat (n.toNat / 256) :=
    store_add m (by simp [bytes16])
  have hn := n.toNat_lt
  rw [uint16At, hlow, hhigh, ← UInt16.toNat_inj, UInt16.toNat_ofNat', UInt8.toNat_ofNat',
    UInt8.toNat_ofNat']
  omega

theorem uint32At_store (m : Memory) (i : ℕ) (n : UInt32) :
    uint32At (store m i (bytes32 n)) i = n := by
  have hbyte (j : ℕ) (hj : j < 4) : store m i (bytes32 n) (i + j) = (bytes32 n)[j] :=
    store_add m hj
  have hlow := hbyte 0 (by decide)
  rw [Nat.add_zero] at hlow
  have hn := n.toNat_lt
  rw [uint32At, hlow, hbyte 1 (by decide), hbyte 2 (by decide), hbyte 3 (by decide),
    ← UInt32.toNat_inj, UInt32.toNat_ofNat']
  simp only [bytes32, List.getElem_cons_zero, List.getElem_cons_succ, UInt8.toNat_ofNat']
  omega

theorem overlaid_memory (c : Client) : c.overlaid c.memory = c := by
  have hid : uint16At c.memory 128 = c.nextMsgId :=
    (uint16At_congr fun j hj => by interval_cases j <;> rfl).trans
      (uint16At_store c.buffer 128 c.nextMsgId)
  have hout : uint32At c.memory 132 = c.lastOutActivity :=
    (uint32At_congr fun j hj => by interval_cases j <;> rfl).trans
      (uint32At_store c.buffer 132 c.lastOutActivity)
  have hinto : uint32At c.memory 136 = c.lastInActivity :=
    (uint32At_congr fun j hj => by interval_cases j <;> rfl).trans
      (uint32At_store c.buffer 136 c.lastInActivity)
  have hbyte : c.memory 140 = if c.pingOutstanding then 1 else 0 := rfl
  have hping : decide (c.memory 140 ≠ 0) = c.pingOutstanding := by
    rw [hbyte]
    cases c.pingOutstanding <;> decide
  unfold Client.overlaid
  rw [hid, hout, hinto, hping]

/-- What is stored inside the buffer does not reach the members. -/
theorem overlaid_eq {c : Client} (h : SameBehind c.memory m) : c.overlaid m = c := by
  have hsame : c.overlaid m = c.overlaid c.memory := by
    unfold Client.overlaid
    rw [uint16At_congr fun j _ => h _ (by omega), uint32At_congr fun j _ => h _ (by omega),
      uint32At_congr fun j _ => h _ (by omega), h 140 (by decide)]
  rw [hsame, overlaid_memory]

theorem spilled_eq (c : Client) {topic : List UInt8} (qos : UInt8) (h : topic.length ≤ 119) :
    c.spilled topic qos = { c with nextMsgId := (c.spilled topic qos).nextMsgId } := by
  have hself := overlaid_memory c
  have hkept : ∀ j, 130 ≤ j → store c.memory (9 + topic.length) [qos] j = c.memory j := fun j hj =>
    store_of_le _ (by rw [List.length_singleton]; omega)
  have hout : uint32At (store c.memory (9 + topic.length) [qos]) 132 = c.lastOutActivity :=
    (uint32At_congr fun j _ => hkept _ (by omega)).trans (congrArg Client.lastOutActivity hself)
  have hinto : uint32At (store c.memory (9 + topic.length) [qos]) 136 = c.lastInActivity :=
    (uint32At_congr fun j _ => hkept _ (by omega)).trans (congrArg Client.lastInActivity hself)
  have hping : decide (store c.memory (9 + topic.length) [qos] 140 ≠ 0) = c.pingOutstanding := by
    rw [hkept 140 (by decide)]
    exact congrArg Client.pingOutstanding hself
  unfold Client.spilled Client.overlaid
  rw [hout, hinto, hping]

/-- The quality of service of the longest subscription becomes the low byte of the next message's
id. -/
theorem spilled_nextMsgId (c : Client) {topic : List UInt8} (qos : UInt8)
    (h : topic.length ≤ 119) :
    (c.spilled topic qos).nextMsgId =
      if topic.length = 119 then UInt16.ofNat (qos.toNat + 256 * (c.nextMsgId.toNat / 256))
      else c.nextMsgId := by
  change uint16At (store c.memory (9 + topic.length) [qos]) 128 = _
  split_ifs with hlong
  · have hlow : store c.memory 128 [qos] 128 = qos := store_add (i := 0) c.memory (by simp)
    have hhigh : store c.memory 128 [qos] (128 + 1) = UInt8.ofNat (c.nextMsgId.toNat / 256) :=
      store_of_le c.memory (by simp)
    have hid := c.nextMsgId.toNat_lt
    rw [hlong, uint16At, hlow, hhigh, UInt8.toNat_ofNat', Nat.mod_eq_of_lt (by omega)]
  · have hsame : SameBehind c.memory (store c.memory (9 + topic.length) [qos]) := fun i hi =>
      store_of_le c.memory (by rw [List.length_singleton]; omega)
    rw [uint16At_congr fun j _ => hsame _ (by omega)]
    exact congrArg Client.nextMsgId (overlaid_memory c)

end Members

section Calls

theorem connected_buffer (c : Client) (up : Bool) : (c.connected up).1.buffer = c.buffer := by
  unfold Client.connected
  split_ifs <;> rfl

theorem send_sameBehind (c : Client) {bytes : List UInt8} (h : bytes.length ≤ 128) :
    SameBehind c.buffer (c.send bytes).1.buffer :=
  sameBehind_store (by rw [Nat.zero_add]; exact h)

theorem packetStart_add (p : Packet) (h : p.body.length < 65536) :
    packetStart p.body.length + p.bytes.length = 5 + p.body.length := by
  have hthree : (lengthBytes p.body.length).length ≤ 3 := by
    rw [length_lengthBytes]
    exact (Varint.length_encode_le_iff (by decide) _ 2).mpr (by omega)
  rw [p.length_bytes, packetStart]
  omega

theorem wrote_sameBehind (c : Client) (time : UInt32) (p : Packet) (h : 5 + p.body.length ≤ 128) :
    SameBehind c.buffer (c.wrote time p).buffer :=
  sameBehind_store (by rw [packetStart_add p (by omega)]; exact h)

theorem publish_sameBehind (c : Client) (time : UInt32) (up : Bool) (topic payload : List UInt8)
    (retained : Bool) :
    SameBehind c.buffer (c.publish time up topic payload retained).1.buffer := by
  cases up with
  | false =>
    have hbuffer := connected_buffer c false
    simp only [Client.publish, Bool.false_eq_true, if_false, hbuffer]
    exact SameBehind.refl _
  | true =>
    by_cases hfits : 7 + topic.length + payload.length ≤ 128
    · rw [publish_eq c time topic payload retained hfits]
      exact wrote_sameBehind c time _ (by simp [messagePacket]; omega)
    · simp only [Client.publish, Client.connected, Bool.true_eq_false, false_and, if_false, if_true]
      rw [if_pos (by omega)]
      exact SameBehind.refl _

theorem unsubscribe_sameBehind (c : Client) (time : UInt32) (up : Bool) (topic : List UInt8) :
    SameBehind c.buffer (c.unsubscribe time up topic).1.buffer := by
  by_cases hfits : 128 < 9 + topic.length
  · simp only [Client.unsubscribe, if_pos hfits]
    exact SameBehind.refl _
  · cases up with
    | false =>
      have hbuffer := connected_buffer c false
      simp only [Client.unsubscribe, if_neg hfits, Bool.false_eq_true, if_false, hbuffer]
      exact SameBehind.refl _
    | true =>
      rw [unsubscribe_eq c time topic (by omega)]
      exact wrote_sameBehind c.drawId time _ (by simp [unsubscribePacket, idBytes]; omega)

theorem subscribe_cases (c : Client) (time : UInt32) (up : Bool) (topic : List UInt8)
    (qos : UInt8) :
    (c.subscribe time up topic qos).1.buffer = c.buffer ∨
      qos ≤ 1 ∧ topic.length ≤ 119 ∧ (c.subscribe time up topic qos).1 =
        (c.drawId.spilled topic qos).wrote time (subscribePacket c.drawId.nextMsgId topic qos) := by
  by_cases hqos : qos ≤ 1
  · by_cases hfits : 128 < 9 + topic.length
    · left
      simp only [Client.subscribe, if_pos hfits]
      split_ifs <;> rfl
    · cases up with
      | false =>
        left
        have hbuffer := connected_buffer c false
        simp only [Client.subscribe, if_neg hfits, Bool.false_eq_true, if_false]
        split_ifs
        · rfl
        · exact hbuffer
      | true =>
        right
        rw [subscribe_eq c time topic qos hqos (by omega)]
        exact ⟨hqos, by omega, rfl⟩
  · left
    simp only [Client.subscribe, if_pos (Or.inr (UInt8.not_le.mp hqos))]

theorem subscribe_sameBehind (c : Client) (time : UInt32) (up : Bool) (topic : List UInt8)
    (qos : UInt8) (h : topic.length ≠ 119) :
    SameBehind c.buffer (c.subscribe time up topic qos).1.buffer := by
  rcases subscribe_cases c time up topic qos with hbuffer | ⟨-, hfits, hsent⟩
  · rw [hbuffer]
    exact SameBehind.refl _
  · rw [hsent]
    exact wrote_sameBehind (c.drawId.spilled topic qos) time _
      (by simp [subscribePacket, idBytes]; omega)

theorem subscribe_nextMsgId (c : Client) (time : UInt32) (topic : List UInt8) (qos : UInt8)
    (hqos : qos ≤ 1) :
    (c.subscribe time true topic qos).1.nextMsgId =
      if topic.length < 119 then nextId c.nextMsgId
      else if topic.length = 119 then
        UInt16.ofNat (qos.toNat + 256 * ((nextId c.nextMsgId).toNat / 256))
      else c.nextMsgId := by
  by_cases hfits : topic.length ≤ 119
  · have hid : (c.subscribe time true topic qos).1.nextMsgId =
        (c.drawId.spilled topic qos).nextMsgId := by
      rw [subscribe_eq c time topic qos hqos hfits]
      rfl
    have hdrawn : c.drawId.nextMsgId = nextId c.nextMsgId := rfl
    rw [hid, spilled_nextMsgId c.drawId qos hfits, hdrawn]
    by_cases hlong : topic.length = 119
    · rw [if_pos hlong, if_neg (by omega), if_pos hlong]
    · rw [if_neg hlong, if_pos (by omega)]
  · simp only [Client.subscribe]
    rw [if_pos (show 128 < 9 + topic.length by omega), if_neg (show ¬ topic.length < 119 by omega),
      if_neg (show topic.length ≠ 119 by omega)]
    split_ifs <;> rfl

theorem subscribe_inside_iff (c : Client) (time : UInt32) (topic : List UInt8) (qos : UInt8)
    (hqos : qos ≤ 1) :
    SameBehind c.buffer (c.subscribe time true topic qos).1.buffer ↔
      (topic.length = 119 → c.buffer 128 = qos) := by
  by_cases htopic : topic.length = 119
  · set p := subscribePacket c.drawId.nextMsgId topic qos with hp
    have hbody : p.body.length = 124 := by
      simp [hp, subscribePacket, idBytes]
      omega
    have hend := packetStart_add p (by omega)
    obtain ⟨xs, hxs⟩ : ∃ xs, p.bytes = xs ++ [qos] := ⟨p.header ++ (idBytes c.drawId.nextMsgId ++
      prefixed topic), by rw [List.append_assoc]; rfl⟩
    have hlast : packetStart p.body.length + xs.length = 128 := by
      rw [hxs, List.length_append, List.length_singleton] at hend
      omega
    have hspill : (c.subscribe time true topic qos).1.buffer =
        store (store c.buffer (packetStart p.body.length) xs) 128 [qos] := by
      rw [subscribe_eq c time topic qos hqos (by omega), ← hlast, store_append, ← hxs]
      rfl
    have hinside : SameBehind c.buffer (store c.buffer (packetStart p.body.length) xs) :=
      sameBehind_store (by omega)
    rw [hspill]
    constructor
    · intro h _
      exact (h 128 le_rfl).symm
    · intro h
      refine hinside.trans fun i hi => ?_
      by_cases hi' : i = 128
      · rw [hi']
        exact (h htopic).symm.trans (hinside 128 le_rfl).symm
      · exact store_of_le _ (by simp only [List.length_singleton]; omega)
  · exact ⟨fun _ h => absurd h htopic, fun _ => subscribe_sameBehind c time true topic qos htopic⟩

/-- A subscription of quality of service 0 or 1, on a connection that stands, stays inside the
buffer up to its last byte: with the longest topic that is let through, the quality of service goes
to the byte behind the buffer. That is the low one of `nextMsgId`, which goes on from there. -/
theorem subscribe_sameBehind_iff (c : Client) (time : UInt32) (topic : List UInt8) (qos : UInt8)
    (hqos : qos ≤ 1) :
    (SameBehind c.buffer (c.subscribe time true topic qos).1.buffer ↔
      (topic.length = 119 → c.buffer 128 = qos)) ∧
    (c.subscribe time true topic qos).1.nextMsgId =
      if topic.length < 119 then nextId c.nextMsgId
      else if topic.length = 119 then
        UInt16.ofNat (qos.toNat + 256 * ((nextId c.nextMsgId).toNat / 256))
      else c.nextMsgId :=
  ⟨subscribe_inside_iff c time topic qos hqos, subscribe_nextMsgId c time topic qos hqos⟩

theorem subscribe_sameBehind_long :
    SameBehind justConnected.buffer
        (justConnected.subscribe 0 true (List.replicate 119 0x61) 1).1.buffer ↔
      ((List.replicate 119 (0x61 : UInt8)).length = 119 → justConnected.buffer 128 = 1) :=
  (subscribe_sameBehind_iff justConnected 0 (List.replicate 119 0x61) 1 (by decide)).1

theorem handle_sameBehind (c : Client) (t : UInt32) (len llen : ℕ) :
    SameBehind c.buffer (c.handle t len llen).1.buffer := by
  dsimp only [Client.handle]
  split_ifs
  · exact send_sameBehind _ (by simp)
  · exact SameBehind.refl _
  · exact send_sameBehind _ (by simp)
  · exact SameBehind.refl _
  · exact SameBehind.refl _

/-- The length of the packet at the front takes no more than 125 digits. -/
def ShortLength (input : List UInt8) : Prop :=
  ((input.drop 1).takeWhile announces).length ≤ 124

instance (input : List UInt8) : Decidable (ShortLength input) := inferInstanceAs (Decidable (_ ≤ _))

theorem reads_eq (c : Client) {input : List UInt8} (h : ShortLength input) : c.reads input = c :=
  overlaid_eq (tryPacket_sameBehind c.memory input h)

theorem receive_sameBehind (c : Client) (t : UInt32) (link : Link) (h : ShortLength link.input) :
    SameBehind c.buffer (c.receive t link).1.buffer := by
  have hread := tryPacket_sameBehind c.buffer link.input h
  simp only [Client.receive, reads_eq c h]
  split_ifs
  · exact SameBehind.refl _
  · cases htry : tryPacket c.buffer link.input with
    | error m => rwa [htry] at hread
    | ok x =>
      rw [htry] at hread
      dsimp only
      split_ifs
      · exact hread.trans (handle_sameBehind _ _ _ _)
      · exact hread

theorem loop_sameBehind (c : Client) (t : UInt32) (link : Link) (h : ShortLength link.input) :
    SameBehind c.buffer (c.loop t link).1.buffer := by
  have hconnected := connected_buffer c link.up
  have hping : SameBehind c.buffer ((c.connected link.up).1.ping t).1.buffer := by
    rw [← hconnected]
    exact send_sameBehind _ (by simp)
  dsimp only [Client.loop]
  split_ifs
  · rw [hconnected]
    exact SameBehind.refl _
  · exact hping.trans (receive_sameBehind _ t link h)
  · rw [← hconnected]
    exact receive_sameBehind _ t link h
  · rw [hconnected]
    exact SameBehind.refl _

theorem disconnect_sameBehind (c : Client) (time : UInt32) :
    SameBehind c.buffer (c.disconnect time).1.buffer := send_sameBehind c (by simp)

theorem writeStrings_written (strings : List (List UInt8)) (buffer : Memory) (text : List UInt8)
    (h : 5 + (text ++ strings.flatMap prefixed).length < 65536) :
    writeStrings strings (written buffer text).1 (written buffer text).2 =
      written buffer (text ++ strings.flatMap prefixed) := by
  induction strings generalizing text with
  | nil => simp [writeStrings]
  | cons string strings ih =>
    rw [List.flatMap_cons, ← List.append_assoc] at h ⊢
    have hlen := h
    rw [List.length_append] at hlen
    rw [writeStrings, writeString_written buffer text string (by omega)]
    exact ih _ h

/-- The request of a login that fits, and an answer with a length that fits. -/
def ConnectFits (l : Login) (d : Dial) : Prop :=
  15 + (l.strings.flatMap prefixed).length ≤ 128 ∧ ∀ a ∈ d.answer, ShortLength a.2

def connectPacket (l : Login) : Packet := ⟨0x10, l.fixed ++ l.strings.flatMap prefixed⟩

theorem request_eq (c : Client) (time : UInt32) (l : Login)
    (h : 15 + (l.strings.flatMap prefixed).length ≤ 128) :
    c.request time l =
      (c.wrote time (connectPacket l), [.write (connectPacket l).bytes]) := by
  have hfixed (buffer : Memory) := copy_written buffer [] l.fixed (by simp [Login.fixed])
  simp only [written_nil, List.nil_append] at hfixed
  have hlen : 5 + (l.fixed ++ l.strings.flatMap prefixed).length < 65536 := by
    simp only [List.length_append, Login.fixed, List.length_cons, List.length_nil]
    omega
  have hmembers : c.overlaid (writeStrings l.strings (written c.memory l.fixed).1
      (written c.buffer l.fixed).2).1 = c := by
    have hwritten := writeStrings_written l.strings c.memory l.fixed hlen
    refine overlaid_eq ?_
    change SameBehind _ (writeStrings l.strings (written c.memory l.fixed).1
      (written c.memory l.fixed).2).1
    rw [hwritten]
    refine sameBehind_store ?_
    simp only [List.length_append, Login.fixed, List.length_cons, List.length_nil]
    omega
  simp only [Client.request]
  rw [hfixed, hfixed, hmembers, writeStrings_written _ _ _ hlen]
  exact write_written c time 0x10 _ hlen

theorem await_sameBehind (c : Client) (answer : Option (UInt32 × List UInt8))
    (h : ∀ a ∈ answer, ShortLength a.2) : SameBehind c.buffer (c.await answer).1.buffer := by
  cases answer with
  | none => exact SameBehind.refl _
  | some a =>
    obtain ⟨time, input⟩ := a
    have hread := tryPacket_sameBehind c.buffer input (h _ rfl)
    simp only [Client.await, reads_eq c (h _ rfl)]
    cases htry : tryPacket c.buffer input with
    | error m => rwa [htry] at hread
    | ok x =>
      rw [htry] at hread
      dsimp only
      split_ifs <;> exact hread

theorem connect_sameBehind (c : Client) (up : Bool) (l : Login) (d : Dial) (h : ConnectFits l d) :
    SameBehind c.buffer (c.connect up l d).1.buffer := by
  have hconnected := connected_buffer c up
  dsimp only [Client.connect]
  split_ifs
  · rw [hconnected]
    exact SameBehind.refl _
  · rw [request_eq _ _ _ h.1]
    refine SameBehind.trans ?_ (await_sameBehind _ _ h.2)
    have hrequest := wrote_sameBehind (c.connected up).1 d.time (connectPacket l) (by
      have := h.1
      simp only [connectPacket, List.length_append, Login.fixed, List.length_cons, List.length_nil]
      omega)
    rwa [hconnected] at hrequest
  · rw [hconnected]
    exact SameBehind.refl _

end Calls

section Runs

/-- The condition under which a call stays inside the buffer. -/
def Call.Fits : Call → Prop
  | .connect _ login dial => ConnectFits login dial
  | .subscribe _ _ topic _ => topic.length ≠ 119
  | .loop _ link => ShortLength link.input
  | _ => True

def step (c : Client) (call : Call) : Client := (c.call call).1

theorem step_sameBehind (c : Client) (call : Call) (h : call.Fits) :
    SameBehind c.buffer (step c call).buffer := by
  cases call with
  | connect up login dial => exact connect_sameBehind c up login dial h
  | publish time up topic payload retained =>
    exact publish_sameBehind c time up topic payload retained
  | subscribe time up topic qos => exact subscribe_sameBehind c time up topic qos h
  | unsubscribe time up topic => exact unsubscribe_sameBehind c time up topic
  | loop time link => exact loop_sameBehind c time link h
  | disconnect time => exact disconnect_sameBehind c time

/-- The memory behind the buffer is left alone in every run of calls that fit: no subscription has a
topic of 119 bytes, the strings of every login fit, and the lengths that arrive take no more than
125 digits. -/
theorem run_sameBehind (c : Client) (calls : List Call) (h : ∀ call ∈ calls, call.Fits) :
    SameBehind c.buffer (run step c calls).buffer := by
  induction calls generalizing c with
  | nil => exact SameBehind.refl _
  | cons call calls ih =>
    rw [run_cons]
    exact (step_sameBehind c call (h call List.mem_cons_self)).trans
      (ih _ fun call' h' => h call' (List.mem_cons_of_mem call h'))

/-- The calls of a sketch that subscribes, hears a message and publishes one. -/
theorem run_sameBehind_once :
    SameBehind justConnected.buffer (run step justConnected
      [.subscribe 0 true [0x61, 0x62] 0, .loop 10 ⟨true, [0x30, 3, 0, 1, 0x61]⟩,
        .publish 20 true [0x61] [0x31] false]).buffer :=
  run_sameBehind justConnected _ (List.forall_mem_cons.mpr ⟨show 2 ≠ 119 by decide,
    List.forall_mem_cons.mpr ⟨show ShortLength [0x30, 3, 0, 1, 0x61] by decide,
      List.forall_mem_cons.mpr ⟨trivial, List.forall_mem_nil _⟩⟩⟩)

end Runs

end Wyostat.PubSubClient
