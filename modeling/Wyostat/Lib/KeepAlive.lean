import Wyostat.Lib.Run
import Mathlib.Algebra.Order.Group.Nat

/-! Keeping a connection alive: one end sends a ping when nothing has gone out or come in for a
while, and gives up when the ping is not answered. Its clock has a fixed width and wraps. -/
namespace KeepAlive
open Machine

/-- What the clock showed at the last activity in either direction, whether a ping is unanswered,
and whether the connection is closed. -/
structure Monitor (width : ℕ) where
  out : BitVec width
  into : BitVec width
  waiting : Bool
  closed : Bool

/-- What a poll hears from the other end. -/
inductive Heard
  | nothing
  | something
  | answer
  deriving DecidableEq

/-- What is sent in reply to it; a quiet reply is not noted as activity. -/
inductive Reply
  | none
  | quiet
  | noted
  deriving DecidableEq

inductive Input
  | rest (time : ℕ)
  | send (time : ℕ)
  | poll (time : ℕ) (heard : Heard) (reply : Reply)
  | cut (time : ℕ)
  deriving DecidableEq

def Input.time : Input → ℕ
  | .rest time => time
  | .send time => time
  | .poll time _ _ => time
  | .cut time => time

variable {width : ℕ} (period : ℕ)

/-- What the clock makes of the time since it showed a stamp. -/
def elapsed (stamp : BitVec width) (time : ℕ) : ℕ := (BitVec.ofNat width time - stamp).toNat

def Overdue (m : Monitor width) (time : ℕ) : Prop :=
  period < elapsed m.into time ∨ period < elapsed m.out time

instance (m : Monitor width) (time : ℕ) : Decidable (Overdue period m time) :=
  inferInstanceAs (Decidable (_ ∨ _))

/-- The ping counts as activity in both directions. -/
def pinged (m : Monitor width) (time : ℕ) : Monitor width :=
  if Overdue period m time then ⟨BitVec.ofNat width time, BitVec.ofNat width time, true, false⟩
  else m

def hear (m : Monitor width) (time : ℕ) : Heard → Monitor width
  | .nothing => m
  | .something => { m with into := BitVec.ofNat width time }
  | .answer => { m with into := BitVec.ofNat width time, waiting := false }

def reply (m : Monitor width) (time : ℕ) : Reply → Monitor width
  | .noted => { m with out := BitVec.ofNat width time }
  | _ => m

/-- A poll that finds the ping unanswered for too long. -/
def GivesUp (m : Monitor width) (time : ℕ) : Prop := Overdue period m time ∧ m.waiting = true

instance (m : Monitor width) (time : ℕ) : Decidable (GivesUp period m time) :=
  inferInstanceAs (Decidable (_ ∧ _))

def step (m : Monitor width) (i : Input) : Monitor width :=
  if m.closed then m
  else
    match i with
    | .rest _ => m
    | .send time => { m with out := BitVec.ofNat width time }
    | .poll time heard r =>
      if GivesUp period m time then { m with closed := true }
      else reply (hear (pinged period m time) time heard) time r
    | .cut _ => { m with closed := true }

/-- When something is sent. -/
def sends (m : Monitor width) (i : Input) : List ℕ :=
  if m.closed then []
  else
    match i with
    | .send time => [time]
    | .poll time _ r =>
      if GivesUp period m time then []
      else (if Overdue period m time then [time] else []) ++ if r = .none then [] else [time]
    | _ => []

inductive Event
  | ping (time : ℕ)
  | answer (time : ℕ)
  | close (time : ℕ)
  deriving DecidableEq

/-- What becomes of the pings. -/
def events (m : Monitor width) (i : Input) : List Event :=
  if m.closed then []
  else
    match i with
    | .poll time heard _ =>
      if GivesUp period m time then [.close time]
      else (if Overdue period m time then [.ping time] else []) ++
        if heard = .answer then [.answer time] else []
    | _ => []

section Clock

theorem elapsed_le {a b : ℕ} (h : a ≤ b) : elapsed (BitVec.ofNat width a) b ≤ b - a := by
  obtain ⟨d, rfl⟩ := Nat.exists_eq_add_of_le h
  have hsub : BitVec.ofNat width (a + d) - BitVec.ofNat width a = BitVec.ofNat width d := by
    rw [BitVec.ofNat_add, BitVec.add_comm, BitVec.add_sub_cancel]
  rw [elapsed, hsub, BitVec.toNat_ofNat, Nat.add_sub_cancel_left]
  exact Nat.mod_le _ _

theorem elapsed_eq {a b : ℕ} (h : a ≤ b) (hlt : b - a < 2 ^ width) :
    elapsed (BitVec.ofNat width a) b = b - a := by
  obtain ⟨d, rfl⟩ := Nat.exists_eq_add_of_le h
  have hsub : BitVec.ofNat width (a + d) - BitVec.ofNat width a = BitVec.ofNat width d := by
    rw [BitVec.ofNat_add, BitVec.add_comm, BitVec.add_sub_cancel]
  rw [Nat.add_sub_cancel_left] at hlt ⊢
  rw [elapsed, hsub, BitVec.toNat_ofNat, Nat.mod_eq_of_lt hlt]

end Clock

section Parts

@[simp] theorem hear_out (m : Monitor width) (time : ℕ) (heard : Heard) :
    (hear m time heard).out = m.out := by
  cases heard <;> rfl

@[simp] theorem hear_closed (m : Monitor width) (time : ℕ) (heard : Heard) :
    (hear m time heard).closed = m.closed := by
  cases heard <;> rfl

@[simp] theorem reply_closed (m : Monitor width) (time : ℕ) (r : Reply) :
    (reply m time r).closed = m.closed := by
  cases r <;> rfl

@[simp] theorem reply_into (m : Monitor width) (time : ℕ) (r : Reply) :
    (reply m time r).into = m.into := by
  cases r <;> rfl

@[simp] theorem reply_waiting (m : Monitor width) (time : ℕ) (r : Reply) :
    (reply m time r).waiting = m.waiting := by
  cases r <;> rfl

end Parts

def Input.polls : Input → Bool
  | .poll _ _ _ => true
  | _ => false

section Timing
variable {ι κ : Type*} (time : ι → ℕ) (polls : ι → Bool)

/-- From a last poll at `p` and a time `t` on: time goes forward, and nothing is more than `gap`
behind the last poll. -/
def Paced (gap : ℕ) : ℕ → ℕ → List ι → Prop
  | _, _, [] => True
  | p, t, i :: is =>
    t ≤ time i ∧ time i ≤ p + gap ∧ Paced gap (if polls i then time i else p) (time i) is

/-- Time goes forward. -/
def Forward : ℕ → List ι → Prop
  | _, [] => True
  | t, i :: is => t ≤ time i ∧ Forward (time i) is

def endTime (t : ℕ) (is : List ι) : ℕ := ((is.map time).getLast?).getD t

@[simp] theorem endTime_nil (t : ℕ) : endTime time t [] = t := rfl

theorem endTime_cons (t : ℕ) (i : ι) (is : List ι) :
    endTime time t (i :: is) = endTime time (time i) is := by
  cases is with
  | nil => rfl
  | cons j is => simp [endTime, List.getLast?_cons]

instance decidablePaced (gap : ℕ) : (p t : ℕ) → (is : List ι) →
    Decidable (Paced time polls gap p t is)
  | _, _, [] => inferInstanceAs (Decidable True)
  | p, t, i :: is =>
    have := decidablePaced gap (if polls i then time i else p) (time i) is
    inferInstanceAs (Decidable (t ≤ time i ∧ time i ≤ p + gap ∧ _))

instance decidableForward : (t : ℕ) → (is : List ι) → Decidable (Forward time t is)
  | _, [] => inferInstanceAs (Decidable True)
  | t, i :: is =>
    have := decidableForward (time i) is
    inferInstanceAs (Decidable (t ≤ time i ∧ _))

variable {σ : Type*} {step : σ → κ → σ} {o : σ → κ → ι} {time' : κ → ℕ} {polls' : κ → Bool}
variable {time polls}

theorem paced_outputs (htime : ∀ s k, time (o s k) = time' k)
    (hpolls : ∀ s k, polls (o s k) = polls' k) {gap p t : ℕ} {s : σ} {ks : List κ}
    (h : Paced time' polls' gap p t ks) :
    Paced time polls gap p t (outputs step (fun s k => [o s k]) s ks) := by
  induction ks generalizing s p t with
  | nil => trivial
  | cons k ks ih =>
    obtain ⟨ht, hgap, hrest⟩ := h
    refine ⟨?_, ?_, ?_⟩
    · rwa [htime]
    · rwa [htime]
    · rw [htime, hpolls]
      exact ih hrest

theorem forward_outputs (htime : ∀ s k, time (o s k) = time' k) {t : ℕ} {s : σ} {ks : List κ}
    (h : Forward time' t ks) : Forward time t (outputs step (fun s k => [o s k]) s ks) := by
  induction ks generalizing s t with
  | nil => trivial
  | cons k ks ih =>
    refine ⟨?_, ?_⟩
    · rw [htime]
      exact h.1
    · rw [htime]
      exact ih h.2

theorem endTime_outputs (htime : ∀ s k, time (o s k) = time' k) (t : ℕ) (s : σ) (ks : List κ) :
    endTime time t (outputs step (fun s k => [o s k]) s ks) = endTime time' t ks := by
  induction ks generalizing s t with
  | nil => rfl
  | cons k ks ih =>
    rw [endTime_cons, ← ih, ← htime s k]
    exact endTime_cons time t _ _

end Timing

variable {period} {m : Monitor width}

theorem step_of_closed (h : m.closed = true) (i : Input) : step period m i = m := by
  unfold step
  rw [if_pos h]

theorem run_of_closed (h : m.closed = true) (is : List Input) : run (step period) m is = m := by
  induction is with
  | nil => rfl
  | cons i is ih => rw [run_cons, step_of_closed h, ih]

theorem sends_of_closed (h : m.closed = true) (is : List Input) :
    outputs (step period) (sends period) m is = [] := by
  induction is with
  | nil => rfl
  | cons i is ih =>
    have hnone : sends period m i = [] := by
      unfold sends
      rw [if_pos h]
    rw [outputs, step_of_closed h, ih, hnone, List.nil_append]

theorem step_giveUp (hopen : m.closed = false) {time : ℕ} (h : GivesUp period m time)
    (heard : Heard) (r : Reply) :
    step period m (.poll time heard r) = { m with closed := true } := by
  simp [step, hopen, h]

theorem step_poll (hopen : m.closed = false) {time : ℕ} (h : ¬ GivesUp period m time)
    (heard : Heard) (r : Reply) : step period m (.poll time heard r) =
      reply (hear (pinged period m time) time heard) time r := by
  simp [step, hopen, h]

section Cadence

/-- At time `t`, with the last poll at `p`: the activity that is noted for the way out was at `o`,
and something was sent at `s` or later. -/
structure Live (period gap : ℕ) (m : Monitor width) (p t o s : ℕ) : Prop where
  isOpen : m.closed = false
  out : m.out = BitVec.ofNat width o
  noted : o ≤ s
  sent : s ≤ t
  polled : p ≤ t
  due : t ≤ p + gap
  recent : p ≤ o + period

variable {gap p t o s : ℕ} {is : List Input}

/-- No later than a period and a gap after the last one. -/
def Within (d a b : ℕ) : Prop := b ≤ a + d

theorem live_step (hwidth : period + gap < 2 ^ width) (h : Live period gap m p t o s)
    (i : Input) (ht : t ≤ i.time)
    (hgap : i.time ≤ p + gap) :
    (step period m i).closed = true ∧ sends period m i = [] ∨
      ∃ o' s', Live period gap (step period m i) (if i.polls then i.time else p) i.time o' s' ∧
        ∀ rest, (s' :: rest).IsChain (Within (period + gap)) →
          (s :: (sends period m i ++ rest)).IsChain (Within (period + gap)) := by
  obtain ⟨hopen, hout, hnoted, hsent, hpolled, -, hrecent⟩ := h
  cases i with
  | rest time =>
    right
    refine ⟨o, s, ?_, fun rest hrest => ?_⟩
    · rw [show step period m (.rest time) = m by simp [step]]
      exact ⟨hopen, hout, hnoted, hsent.trans ht, hpolled.trans ht, hgap, hrecent⟩
    · rwa [show sends period m (.rest time) = [] by simp [sends], List.nil_append]
  | send time =>
    right
    have hsince : time ≤ s + (period + gap) := by
      simp only [Input.time] at hgap
      omega
    refine ⟨time, time, ?_, fun rest hrest => ?_⟩
    · rw [show step period m (.send time) = { m with out := BitVec.ofNat width time } by
        simp [step, hopen]]
      refine ⟨hopen, rfl, le_rfl, le_rfl, hpolled.trans ht, hgap, ?_⟩
      show p ≤ time + period
      simp only [Input.time] at ht
      omega
    · rw [show sends period m (.send time) = [time] by simp [sends, hopen]]
      exact hrest.cons_cons hsince
  | poll time heard r =>
    by_cases hgive : GivesUp period m time
    · left
      rw [step_giveUp hopen hgive]
      exact ⟨rfl, by simp [sends, hgive]⟩
    · right
      simp only [Input.time] at ht hgap
      have hsince : Within (period + gap) s time := by
        unfold Within
        omega
      have hself : Within (period + gap) time time := Nat.le_add_right _ _
      rw [step_poll hopen hgive]
      by_cases hdue : Overdue period m time
      · -- a ping goes out, and perhaps a reply
        have hsends : sends period m (.poll time heard r) =
            [time] ++ if r = .none then [] else [time] := by
          simp [sends, hopen, hgive, hdue]
        have hstamp : (reply (hear (pinged period m time) time heard) time r).out =
            BitVec.ofNat width time := by
          cases r <;> simp [reply, pinged, hdue]
        refine ⟨time, time, ⟨?_, hstamp, le_rfl, le_rfl, le_rfl, Nat.le_add_right _ _,
          Nat.le_add_right _ _⟩, fun rest hrest => ?_⟩
        · rw [reply_closed, hear_closed, pinged, if_pos hdue]
        · rw [hsends]
          cases r with
          | none => exact hrest.cons_cons hsince
          | quiet => exact (hrest.cons_cons hself).cons_cons hsince
          | noted => exact (hrest.cons_cons hself).cons_cons hsince
      · -- the way out has not been idle for longer than a period
        have hrecent' : time ≤ o + period := by
          have hle : elapsed m.out time ≤ period := Nat.not_lt.mp fun h => hdue (Or.inr h)
          rw [hout, elapsed_eq (by omega) (by omega)] at hle
          omega
        have hsends : sends period m (.poll time heard r) = if r = .none then [] else [time] := by
          simp [sends, hopen, hgive, hdue]
        have hstill : (hear m time heard).closed = false := by rw [hear_closed, hopen]
        rw [hsends, pinged, if_neg hdue]
        cases r with
        | none =>
          exact ⟨o, s, ⟨hstill, (hear_out m time heard).trans hout, hnoted, hsent.trans ht, le_rfl,
            Nat.le_add_right _ _, hrecent'⟩, fun rest hrest => hrest⟩
        | quiet =>
          exact ⟨o, time, ⟨hstill, (hear_out m time heard).trans hout, by omega, le_rfl, le_rfl,
            Nat.le_add_right _ _, hrecent'⟩, fun rest hrest => hrest.cons_cons hsince⟩
        | noted =>
          exact ⟨time, time, ⟨hstill, rfl, le_rfl, le_rfl, le_rfl, Nat.le_add_right _ _,
            Nat.le_add_right _ _⟩, fun rest hrest => hrest.cons_cons hsince⟩
  | cut time =>
    left
    exact ⟨by simp [step, hopen], by simp [sends]⟩

/-- As long as the connection is open, nothing is sent later than a period and a gap after what was
sent before. -/
theorem isChain_sends (hwidth : period + gap < 2 ^ width) (h : Live period gap m p t o s)
    (hp : Paced Input.time Input.polls gap p t is) :
    (s :: (outputs (step period) (sends period) m is ++
      if (run (step period) m is).closed then [] else [endTime Input.time t is])).IsChain
        (Within (period + gap)) := by
  induction is generalizing m p t o s with
  | nil =>
    have hsince : Within (period + gap) s t := by
      have := h.due
      have := h.recent
      have := h.noted
      unfold Within
      omega
    simp [outputs, h.isOpen, hsince]
  | cons i is ih =>
    obtain ⟨ht, hgap, hrest⟩ := hp
    rw [outputs, run_cons, endTime_cons, List.append_assoc]
    rcases live_step hwidth h i ht hgap with ⟨hclosed, hnone⟩ | ⟨o', s', hlive, hchain⟩
    · rw [hnone, sends_of_closed hclosed, run_of_closed hclosed, if_pos hclosed]
      exact .singleton s
    · exact hchain _ (ih hlive hrest)

end Cadence

section Silence

/-- Nothing is heard. -/
def Input.Silent : Input → Prop
  | .poll _ heard _ => heard = .nothing
  | _ => True

/-- At time `t`, with the last poll at `p`: the way in has been quiet since `a`. -/
structure Quiet (period gap : ℕ) (m : Monitor width) (p t a : ℕ) : Prop where
  isOpen : m.closed = false
  into : m.into = BitVec.ofNat width a
  noted : a ≤ t
  polled : p ≤ t
  due : t ≤ p + gap
  recent : p ≤ a + period

/-- How much longer the connection can stay open: one period for the ping to fall due, unless it is
out already, and one for its answer. -/
def patience (period gap : ℕ) (m : Monitor width) : ℕ :=
  (if m.waiting then 1 else 2) * (period + gap)

variable {gap p t a : ℕ} {is : List Input}

theorem quiet_step (hwidth : period + gap < 2 ^ width) (h : Quiet period gap m p t a) (i : Input)
    (hsilent : i.Silent) (ht : t ≤ i.time) (hgap : i.time ≤ p + gap) :
    (step period m i).closed = true ∨
      ∃ a', Quiet period gap (step period m i) (if i.polls then i.time else p) i.time a' ∧
        a' + patience period gap (step period m i) ≤ a + patience period gap m := by
  obtain ⟨hopen, hinto, hnoted, hpolled, -, hrecent⟩ := h
  cases i with
  | rest time =>
    right
    rw [show step period m (.rest time) = m by simp [step]]
    exact ⟨a, ⟨hopen, hinto, hnoted.trans ht, hpolled.trans ht, hgap, hrecent⟩, le_rfl⟩
  | send time =>
    right
    rw [show step period m (.send time) = { m with out := BitVec.ofNat width time } by
      simp [step, hopen]]
    exact ⟨a, ⟨hopen, hinto, hnoted.trans ht, hpolled.trans ht, hgap, hrecent⟩, le_rfl⟩
  | poll time heard r =>
    obtain rfl : heard = .nothing := hsilent
    simp only [Input.time] at ht hgap
    by_cases hgive : GivesUp period m time
    · left
      rw [step_giveUp hopen hgive]
    · right
      rw [step_poll hopen hgive]
      by_cases hdue : Overdue period m time
      · -- the ping goes out, no later than a period and a gap after the last sign of life
        have hwaiting : m.waiting = false := by
          by_contra hwaiting
          exact hgive ⟨hdue, by simpa using hwaiting⟩
        refine ⟨time, ⟨?_, ?_, le_rfl, le_rfl, Nat.le_add_right _ _, Nat.le_add_right _ _⟩, ?_⟩
        · simp [hear, pinged, hdue]
        · simp [hear, pinged, hdue]
        · simp only [patience, reply_waiting, hear, pinged, if_pos hdue, hwaiting]
          simp
          omega
      · have hrecent' : time ≤ a + period := by
          have hle : elapsed m.into time ≤ period := Nat.not_lt.mp fun h => hdue (Or.inl h)
          rw [hinto, elapsed_eq (by omega) (by omega)] at hle
          omega
        rw [pinged, if_neg hdue]
        refine ⟨a, ⟨?_, ?_, hnoted.trans ht, le_rfl, Nat.le_add_right _ _, hrecent'⟩, ?_⟩
        · rw [reply_closed, hear_closed, hopen]
        · rw [reply_into]
          exact hinto
        · simp [patience, hear]
  | cut time =>
    left
    simp [step, hopen]

/-- In silence, the connection does not stay open for longer than two periods and two gaps. -/
theorem endTime_le_of_silent (hwidth : period + gap < 2 ^ width) (h : Quiet period gap m p t a)
    (hp : Paced Input.time Input.polls gap p t is) (hsilent : ∀ i ∈ is, i.Silent)
    (hopen : (run (step period) m is).closed = false) :
    endTime Input.time t is ≤ a + patience period gap m := by
  induction is generalizing m p t a with
  | nil =>
    have hsoon : t ≤ a + (period + gap) := by
      have := h.due
      have := h.recent
      omega
    have hpatience : period + gap ≤ patience period gap m := by
      unfold patience
      split_ifs <;> omega
    rw [endTime_nil]
    omega
  | cons i is ih =>
    obtain ⟨ht, hgap, hrest⟩ := hp
    rw [run_cons] at hopen
    rw [endTime_cons]
    rcases quiet_step hwidth h i (hsilent i List.mem_cons_self) ht hgap with
      hclosed | ⟨a', hquiet, hless⟩
    · rw [run_of_closed hclosed, hclosed] at hopen
      cases hopen
    · exact (ih hquiet hrest (fun j hj => hsilent j (List.mem_cons_of_mem i hj)) hopen).trans hless

end Silence

section Alarms

/-- A ping follows an answer, an answer whatever was before, and the end only a ping that has been
out for longer than a period. -/
def Follows (period : ℕ) : Event → Event → Prop
  | .ping s, .close t => s + period < t
  | .ping _, .answer _ => True
  | .answer _, .ping _ => True
  | .answer _, .answer _ => True
  | _, _ => False

/-- What the last event at time `t` says of the monitor. -/
def Tells (m : Monitor width) (t : ℕ) : Event → Prop
  | .answer _ => m.waiting = false
  | .ping s => m.waiting = true ∧ ∃ o a, m.out = BitVec.ofNat width o ∧
      m.into = BitVec.ofNat width a ∧ s ≤ o ∧ o ≤ t ∧ s ≤ a ∧ a ≤ t
  | .close _ => m.closed = true

variable {t : ℕ} {e : Event} {is : List Input}

theorem Tells.mono {t' : ℕ} (h : Tells m t e) (ht : t ≤ t') : Tells m t' e := by
  cases e with
  | ping s =>
    obtain ⟨hwaiting, o, a, hout, hinto, hso, hot, hsa, hat⟩ := h
    exact ⟨hwaiting, o, a, hout, hinto, hso, hot.trans ht, hsa, hat.trans ht⟩
  | answer s => exact h
  | close s => exact h

/-- An answer settles the ping; anything else that is heard, or sent, only shows activity. -/
theorem Tells.pass (h : Tells m t e) {time : ℕ} (ht : t ≤ time) {heard : Heard}
    (hheard : heard ≠ .answer) (r : Reply) : Tells (reply (hear m time heard) time r) time e := by
  cases e with
  | ping s =>
    obtain ⟨hwaiting, o, a, hout, hinto, hso, hot, hsa, hat⟩ := h
    refine ⟨?_, if r = .noted then time else o, if heard = .something then time else a, ?_⟩
    · cases heard <;> simp_all [hear]
    · cases heard <;> cases r <;> simp_all [hear, reply] <;> omega
  | answer s =>
    have hwaiting : m.waiting = false := h
    show (reply (hear m time heard) time r).waiting = false
    cases heard <;> simp_all [hear]
  | close s =>
    show (reply (hear m time heard) time r).closed = true
    rw [reply_closed, hear_closed]
    exact h

theorem lt_of_givesUp (hopen : m.closed = false) (h : Tells m t e) {time : ℕ} (ht : t ≤ time)
    (hgive : GivesUp period m time) : Follows period e (.close time) := by
  obtain ⟨hdue, hwaiting⟩ := hgive
  cases e with
  | ping s =>
    obtain ⟨-, o, a, hout, hinto, hso, hot, hsa, hat⟩ := h
    show s + period < time
    rcases hdue with hlt | hlt
    · have hle : elapsed (BitVec.ofNat width a) time ≤ time - a := elapsed_le (hat.trans ht)
      rw [hinto] at hlt
      omega
    · have hle : elapsed (BitVec.ofNat width o) time ≤ time - o := elapsed_le (hot.trans ht)
      rw [hout] at hlt
      omega
  | answer s =>
    have hnot : m.waiting = false := h
    simp [hnot] at hwaiting
  | close s =>
    have hclosed : m.closed = true := h
    simp [hopen] at hclosed

theorem ping_step (hopen : m.closed = false) (h : Tells m t e) {time : ℕ} (ht : t ≤ time)
    (hgive : ¬ GivesUp period m time) :
    ∃ e', Tells (pinged period m time) time e' ∧ Follows period e' (.answer time) ∧
      ∀ rest, (e' :: rest).IsChain (Follows period) →
        (e :: ((if Overdue period m time then [.ping time] else []) ++ rest)).IsChain
          (Follows period) := by
  by_cases hdue : Overdue period m time
  · rw [pinged, if_pos hdue, if_pos hdue]
    refine ⟨.ping time, ⟨rfl, time, time, rfl, rfl, le_rfl, le_rfl, le_rfl, le_rfl⟩, trivial,
      fun rest hrest => hrest.cons_cons ?_⟩
    cases e with
    | ping s => exact hgive ⟨hdue, h.1⟩
    | answer s => trivial
    | close s =>
      have hclosed : m.closed = true := h
      simp [hopen] at hclosed
  · rw [pinged, if_neg hdue, if_neg hdue]
    refine ⟨e, h.mono ht, ?_, fun rest hrest => hrest⟩
    cases e with
    | ping s => trivial
    | answer s => trivial
    | close s =>
      have hclosed : m.closed = true := h
      simp [hopen] at hclosed

theorem event_step (h : Tells m t e) (i : Input) (ht : t ≤ i.time) :
    ∃ e', Tells (step period m i) i.time e' ∧
      ∀ rest, (e' :: rest).IsChain (Follows period) →
        (e :: (events period m i ++ rest)).IsChain (Follows period) := by
  cases hclosed : m.closed with
  | true =>
    refine ⟨e, ?_, fun rest hrest => ?_⟩
    · rw [step_of_closed hclosed]
      exact h.mono ht
    · rwa [show events period m i = [] by simp [events, hclosed], List.nil_append]
  | false =>
    cases i with
    | rest time =>
      refine ⟨e, ?_, fun rest hrest => ?_⟩
      · rw [show step period m (.rest time) = m by simp [step]]
        exact h.mono ht
      · rwa [show events period m (.rest time) = [] by simp [events], List.nil_append]
    | send time =>
      refine ⟨e, ?_, fun rest hrest => ?_⟩
      · rw [show step period m (.send time) = reply (hear m time .nothing) time .noted by
          simp [step, hclosed, reply, hear]]
        exact h.pass ht (by decide) .noted
      · rwa [show events period m (.send time) = [] by simp [events], List.nil_append]
    | cut time =>
      refine ⟨e, ?_, fun rest hrest => ?_⟩
      · rw [show step period m (.cut time) = { m with closed := true } by simp [step, hclosed]]
        cases e with
        | ping s => exact h.mono ht
        | answer s => exact h
        | close s => rfl
      · rwa [show events period m (.cut time) = [] by simp [events], List.nil_append]
    | poll time heard r =>
      by_cases hgive : GivesUp period m time
      · refine ⟨.close time, ?_, fun rest hrest => ?_⟩
        · rw [step_giveUp hclosed hgive]
          rfl
        · rw [show events period m (.poll time heard r) = [.close time] by
            simp [events, hclosed, hgive]]
          exact hrest.cons_cons (lt_of_givesUp hclosed h ht hgive)
      · obtain ⟨e', htells, hfollows, hchain⟩ := ping_step hclosed h ht hgive
        have hevents : events period m (.poll time heard r) =
            (if Overdue period m time then [.ping time] else []) ++
              if heard = .answer then [.answer time] else [] := by
          simp [events, hclosed, hgive]
        rw [step_poll hclosed hgive, hevents]
        by_cases hanswer : heard = .answer
        · rw [if_pos hanswer, hanswer]
          refine ⟨.answer time, ?_, fun rest hrest => ?_⟩
          · cases r <;> rfl
          · rw [List.append_assoc]
            exact hchain _ (hrest.cons_cons hfollows)
        · rw [if_neg hanswer, List.append_nil]
          exact ⟨e', htells.pass le_rfl hanswer r, hchain⟩

/-- Whatever happens, a ping is sent only when no other one is unanswered, and the connection is
given up only when a ping has been unanswered for longer than a period. -/
theorem isChain_events (h : Tells m t e) (hf : Forward Input.time t is) :
    (e :: outputs (step period) (events period) m is).IsChain (Follows period) := by
  induction is generalizing m t e with
  | nil => exact .singleton e
  | cons i is ih =>
    obtain ⟨e', htells, hchain⟩ := event_step h i hf.1
    exact hchain _ (ih htells hf.2)

end Alarms

end KeepAlive
