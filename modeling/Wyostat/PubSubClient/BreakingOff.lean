import Wyostat.PubSubClient

/-! Which part of the memory the packet reader writes to, whether a packet breaks off or not. -/
namespace Wyostat.PubSubClient

section Memory

/-- What lies behind the buffer is the same in both memories. -/
def SameBehind (m m' : Memory) : Prop := ∀ i, 128 ≤ i → m' i = m i

theorem SameBehind.refl (m : Memory) : SameBehind m m := fun _ _ => rfl

theorem SameBehind.trans {m m' m'' : Memory} (h : SameBehind m m') (h' : SameBehind m' m'') :
    SameBehind m m'' := fun i hi => (h' i hi).trans (h i hi)

theorem sameBehind_update {m : Memory} {i : ℕ} (h : i < 128) (b : UInt8) :
    SameBehind m (Function.update m i b) := fun j hj => Function.update_of_ne (by omega) _ _

/-- The buffer that an attempt to read leaves. -/
def leftBuffer {α : Type} (buffer : α → Memory) : Except Memory α → Memory
  | .ok a => buffer a
  | .error m => m

theorem SameBehind.bind {α β : Type} {m : Memory} {f : α → Memory} {g : β → Memory}
    {x : Except Memory α} {k : α → Except Memory β} (h : SameBehind m (leftBuffer f x))
    (hk : ∀ a, x = .ok a → SameBehind (f a) (leftBuffer g (k a))) :
    SameBehind m (leftBuffer g (x >>= k)) := by
  cases x with
  | error m' => exact h
  | ok a => exact h.trans (hk a rfl)

/-- A digit that announces another one. -/
def announces (digit : UInt8) : Bool := digit &&& 128 ≠ 0

theorem readLength_sameBehind (buffer : Memory) (len length : UInt16) (multiplier : UInt32)
    (input : List UInt8) (h : len.toNat + (input.takeWhile announces).length < 128) :
    SameBehind buffer (leftBuffer (fun x => x.1.buffer) (readLength buffer len length multiplier
      input)) ∧ ∀ r n, readLength buffer len length multiplier input = .ok (r, n) →
        r.len.toNat = len.toNat + (input.takeWhile announces).length + 1 := by
  induction input generalizing buffer len length multiplier with
  | nil => exact ⟨SameBehind.refl buffer, fun r n hr => by cases hr⟩
  | cons digit input ih =>
    have hnext : (len + 1).toNat = len.toNat + 1 := by
      rw [UInt16.toNat_add]
      exact Nat.mod_eq_of_lt (by change len.toNat + 1 < 65536; omega)
    have hhere := sameBehind_update (m := buffer) (show len.toNat < 128 by omega) digit
    rw [readLength]
    by_cases hdigit : digit &&& 128 ≠ 0
    · have hann : announces digit = true := by simpa [announces] using hdigit
      rw [List.takeWhile_cons_of_pos hann, List.length_cons] at h
      obtain ⟨hsame, hlen⟩ := ih (Function.update buffer len.toNat digit) (len + 1)
        (length + ((digit &&& 127).toUInt32 * multiplier).toUInt16) (multiplier * 128)
        (by omega)
      rw [if_pos hdigit, List.takeWhile_cons_of_pos hann, List.length_cons]
      refine ⟨hhere.trans hsame, fun r n hr => ?_⟩
      rw [hlen r n hr, hnext]
      omega
    · have hann : ¬ announces digit = true := by simpa [announces] using hdigit
      rw [if_neg hdigit, List.takeWhile_cons_of_neg hann, List.length_nil]
      refine ⟨hhere, fun r n hr => ?_⟩
      cases hr
      exact hnext

theorem readRest_sameBehind (n : ℕ) (r : Reader) :
    SameBehind r.buffer (leftBuffer (·.buffer) (readRest n r)) := by
  induction n generalizing r with
  | zero => exact SameBehind.refl _
  | succ n ih =>
    obtain ⟨buffer, len, input⟩ := r
    cases input with
    | nil => exact SameBehind.refl _
    | cons digit input =>
      refine SameBehind.trans ?_ (ih _)
      dsimp only
      split_ifs with hlt
      · exact sameBehind_update (UInt16.lt_iff_toNat_lt.mp hlt) digit
      · exact SameBehind.refl _

theorem readByte_sameBehind (r : Reader) (h : r.len.toNat < 128) :
    SameBehind r.buffer (leftBuffer (·.buffer) r.readByte) ∧
      ∀ r', r.readByte = .ok r' → r'.len.toNat = r.len.toNat + 1 := by
  obtain ⟨buffer, len, input⟩ := r
  cases input with
  | nil => exact ⟨SameBehind.refl _, fun r' hr => by cases hr⟩
  | cons b input =>
    refine ⟨sameBehind_update h b, fun r' hr => ?_⟩
    cases hr
    rw [UInt16.toNat_add]
    exact Nat.mod_eq_of_lt (by change len.toNat + 1 < 65536; dsimp only at h; omega)

/-- Whatever arrives, a packet is stored inside the buffer as long as its length takes no more than
125 digits. -/
theorem tryPacket_sameBehind (buffer : Memory) (input : List UInt8)
    (h : ((input.drop 1).takeWhile announces).length ≤ 124) :
    SameBehind buffer (leftBuffer (fun x => x.1.buffer) (tryPacket buffer input)) := by
  obtain ⟨hfirst, hone⟩ := readByte_sameBehind ⟨buffer, 0, input⟩
    (Nat.zero_lt_succ _)
  refine SameBehind.bind hfirst fun r hr => ?_
  have hrest : r.input = input.drop 1 := by
    cases input with
    | nil => cases hr
    | cons first input =>
      cases hr
      rfl
  have hlen : r.len.toNat = 1 := hone r hr
  rw [← hrest] at h
  obtain ⟨hdigits, hcount⟩ := readLength_sameBehind r.buffer r.len 0 1 r.input (by omega)
  refine SameBehind.bind hdigits fun x hx => ?_
  obtain ⟨r', n⟩ := x
  have hlen' := hcount r' n hx
  have hrest (r : Reader) (n : ℕ) (llen : UInt8) :
      SameBehind r.buffer (leftBuffer (fun x : Reader × UInt8 => x.1.buffer)
        (readRest n r >>= fun r =>
        .ok (if mqttMaxPacketSize < r.len then { r with len := 0 } else r, llen))) := by
    refine SameBehind.bind (readRest_sameBehind n r) fun r _ => ?_
    by_cases hlt : mqttMaxPacketSize < r.len
    · rw [if_pos hlt]
      exact SameBehind.refl _
    · rw [if_neg hlt]
      exact SameBehind.refl _
  unfold readTopicLength
  by_cases hpublish : isPublish (r.buffer 0)
  · simp only [if_pos hpublish]
    -- the two bytes of the topic's length go into what is left of the buffer
    obtain ⟨hhigh, hnext⟩ := readByte_sameBehind r' (by omega)
    have hboth : SameBehind r'.buffer (leftBuffer (·.buffer)
        (r'.readByte >>= Reader.readByte)) := by
      refine SameBehind.bind hhigh fun r'' hr'' => ?_
      exact (readByte_sameBehind r'' (by rw [hnext r'' hr'']; omega)).1
    exact SameBehind.bind hboth fun _ _ => hrest _ _ _
  · simp only [if_neg hpublish]
    exact hrest _ _ _

end Memory

end Wyostat.PubSubClient
