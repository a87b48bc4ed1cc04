import Wyostat.Lib.Run
import Mathlib.Algebra.Order.Group.Nat

/-! Reporting a value no more than once a period, and only when it differs from the last one
reported: the clock has a fixed width and wraps, and what is kept of a report may be less than
was reported. -/
namespace Throttle
open Machine

variable {α β : Type*} {width : ℕ}

structure Sample (α : Type*) where
  time : ℕ
  value : α
  deriving DecidableEq

/-- What the clock showed when a report was last due, and what is kept of the last report; the
report itself is known to the proofs only. -/
structure Reporter (width : ℕ) (α β : Type*) where
  since : BitVec width
  kept : β
  last : Option (Sample α)

variable (period : ℕ) (keep : α → β) (widen : β → α)

/-- The clock has moved on by more than a period. -/
def Due (since : BitVec width) (time : ℕ) : Prop :=
  (period : ℤ) < (BitVec.ofNat width time - since).toInt

instance (since : BitVec width) (time : ℕ) : Decidable (Due period since time) :=
  inferInstanceAs (Decidable (_ < _))

section Steps
variable [DecidableEq α]

def report (x : Reporter width α β) (r : Sample α) : List (Sample α) :=
  if Due period x.since r.time ∧ r.value ≠ widen x.kept then [r] else []

def step (x : Reporter width α β) (r : Sample α) : Reporter width α β :=
  if Due period x.since r.time then
    if r.value ≠ widen x.kept then ⟨BitVec.ofNat width r.time, keep r.value, some r⟩
    else ⟨BitVec.ofNat width r.time, x.kept, x.last⟩
  else x

end Steps

/-- More than a period apart, and a different value. -/
def Separate (p q : Sample α) : Prop := p.time + period < q.time ∧ p.value ≠ q.value

/-- When a report is due, a value that was reported last is one that is kept whole. -/
def NoRepeat (x : Reporter width α β) (r : Sample α) : Prop :=
  Due period x.since r.time → ∀ p ∈ x.last, r.value = p.value → widen (keep r.value) = r.value

/-- At time `t`: the clock was read no later, and no earlier than the last report. -/
structure Keeps (t : ℕ) (x : Reporter width α β) : Prop where
  since : ∃ c ≤ t, x.since = BitVec.ofNat width c ∧ ∀ p ∈ x.last, p.time ≤ c
  kept : ∀ p ∈ x.last, x.kept = keep p.value

variable {period keep widen} {x : Reporter width α β} {r : Sample α} {t : ℕ}

theorem lt_of_due {a b : ℕ} (hab : a ≤ b) (h : Due period (BitVec.ofNat width a) b) :
    a + period < b := by
  obtain ⟨d, rfl⟩ := Nat.exists_eq_add_of_le hab
  have hsub : BitVec.ofNat width (a + d) - BitVec.ofNat width a = BitVec.ofNat width d := by
    rw [BitVec.ofNat_add, BitVec.add_comm, BitVec.add_sub_cancel]
  have hle : (BitVec.ofNat width d).toInt ≤ d := by
    rw [BitVec.toInt_ofNat', Int.bmod_def]
    have hmod : (d : ℤ) % (2 ^ width : ℕ) ≤ d := Int.ofNat_le.mpr (Nat.mod_le d _)
    split_ifs <;> omega
  rw [Due, hsub] at h
  omega

variable [DecidableEq α]

theorem keeps_step (h : Keeps keep t x) (ht : t ≤ r.time) :
    Keeps keep r.time (step period keep widen x r) := by
  obtain ⟨c, hc, hsince, hlast⟩ := h.since
  unfold step
  split_ifs with hdue hne
  · refine ⟨⟨r.time, le_rfl, rfl, ?_⟩, ?_⟩
    · rintro p ⟨⟩
      exact le_rfl
    · rintro p ⟨⟩
      rfl
  · exact ⟨⟨r.time, le_rfl, rfl, fun p hp => (hlast p hp).trans (hc.trans ht)⟩, h.kept⟩
  · exact ⟨⟨c, hc.trans ht, hsince, hlast⟩, h.kept⟩

theorem isChain_report_iff (h : Keeps keep t x) (ht : t ≤ r.time) (rest : List (Sample α)) :
    (x.last.toList ++ (report period widen x r ++ rest)).IsChain (Separate period) ↔
      NoRepeat period keep widen x r ∧
        ((step period keep widen x r).last.toList ++ rest).IsChain (Separate period) := by
  by_cases hdue : Due period x.since r.time
  · by_cases hne : r.value ≠ widen x.kept
    · rw [report, if_pos ⟨hdue, hne⟩, step, if_pos hdue, if_pos hne]
      cases hp : x.last with
      | none => simp [NoRepeat, hp]
      | some p =>
        obtain ⟨c, hc, hsince, hlast⟩ := h.since
        have hapart : p.time + period < r.time := by
          rw [hsince] at hdue
          have := lt_of_due (hc.trans ht) hdue
          have := hlast p hp
          omega
        have hrepeat : NoRepeat period keep widen x r ↔ p.value ≠ r.value := by
          rw [h.kept p hp] at hne
          constructor
          · intro hno heq
            exact hne (heq ▸ (hno hdue p hp heq.symm).symm)
          · rintro hdiff - q hq heq
            cases hp.symm.trans hq
            exact absurd heq.symm hdiff
        rw [hrepeat]
        simp [Separate, hapart]
    · rw [not_not] at hne
      have hno : NoRepeat period keep widen x r := by
        intro _ p hp heq
        rw [heq, ← h.kept p hp, ← hne, heq]
      rw [report, if_neg fun h' => h'.2 hne, step, if_pos hdue, if_neg (not_not.mpr hne)]
      simp [hno]
  · have hno : NoRepeat period keep widen x r := fun hd => absurd hd hdue
    rw [report, if_neg fun h' => hdue h'.1, step, if_neg hdue]
    simp [hno]

/-- Whenever time does not run backwards, successive reports are separate if and only if no value
that is not kept whole comes up again when the next report is due. -/
theorem isChain_reports_iff (h : Keeps keep t x) {rs : List (Sample α)}
    (hrs : (t :: rs.map Sample.time).IsChain (· ≤ ·)) :
    (x.last.toList ++ outputs (step period keep widen) (report period widen) x rs).IsChain
        (Separate period) ↔
      Along (step period keep widen) (NoRepeat period keep widen) x rs := by
  induction rs generalizing x t with
  | nil => cases x.last <;> simp [outputs, Along]
  | cons r rs ih =>
    rw [List.map_cons, List.isChain_cons_cons] at hrs
    rw [outputs, isChain_report_iff h hrs.1, ih (keeps_step h hrs.1) hrs.2, Along]

end Throttle
