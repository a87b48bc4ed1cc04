import Mathlib.Algebra.GroupWithZero.Nat
import Mathlib.Algebra.BigOperators.Group.Multiset.Basic
import Mathlib.Algebra.Order.BigOperators.Group.Multiset
import Mathlib.Algebra.Order.Group.Nat

/-! Tokens in flight that are handled one at a time, in any order, where handling one may send
further tokens: the cascade dies out once a weight on tokens pays for all that each one causes. -/
namespace Cascade

variable {σ τ : Type*}

/-- A state and the tokens in flight, in no order. -/
structure Flight (σ τ : Type*) where
  state : σ
  inflight : Multiset τ

/-- `k` tokens are handled one after the other, each of them any token in flight by then. -/
inductive Delivers (handle : τ → σ → σ × List τ) (c : Flight σ τ) : ℕ → Flight σ τ → Prop
  | none : Delivers handle c 0 c
  | next {k : ℕ} {s : σ} {t : τ} {rest : Multiset τ} (h : Delivers handle c k ⟨s, t ::ₘ rest⟩) :
      Delivers handle c (k + 1) ⟨(handle t s).1, rest + (handle t s).2⟩

variable {handle : τ → σ → σ × List τ} {c d : Flight σ τ} {k : ℕ}

theorem Delivers.more (h : Delivers handle c k d) (hd : d.inflight ≠ 0) :
    ∃ e, Delivers handle c (k + 1) e := by
  obtain ⟨s, inflight⟩ := d
  obtain ⟨t, ht⟩ := Multiset.exists_mem_of_ne_zero hd
  obtain ⟨rest, rfl⟩ := Multiset.exists_cons_of_mem ht
  exact ⟨_, h.next⟩

/-- A token weighs more than all it causes. -/
def Pays (handle : τ → σ → σ × List τ) (weight : τ → ℕ) : Prop :=
  ∀ t s, ((handle t s).2.map weight).sum < weight t

def total (weight : τ → ℕ) (c : Flight σ τ) : ℕ := (c.inflight.map weight).sum

variable {weight : τ → ℕ}

theorem Delivers.add_total_le (hpays : Pays handle weight) (h : Delivers handle c k d) :
    k + total weight d ≤ total weight c := by
  induction h with
  | none => exact (Nat.zero_add _).le
  | @next k s t rest _ ih =>
    have hpay := hpays t s
    simp only [total, Multiset.map_cons, Multiset.sum_cons] at ih
    simp only [total, Multiset.map_add, Multiset.sum_add, Multiset.map_coe, Multiset.sum_coe]
    omega

theorem card_le_total (hpos : ∀ t, 0 < weight t) (c : Flight σ τ) :
    c.inflight.card ≤ total weight c := by
  have h := Multiset.card_nsmul_le_sum (s := c.inflight.map weight) (a := 1) fun n hn => by
    obtain ⟨t, -, rfl⟩ := Multiset.mem_map.mp hn
    exact hpos t
  rwa [Multiset.card_map, Nat.nsmul_eq_mul, mul_one] at h

theorem total_le {b : ℕ} (hb : ∀ t, weight t ≤ b) (c : Flight σ τ) :
    total weight c ≤ b * c.inflight.card := by
  have h := Multiset.sum_le_card_nsmul (c.inflight.map weight) b fun n hn => by
    obtain ⟨t, -, rfl⟩ := Multiset.mem_map.mp hn
    exact hb t
  rwa [Multiset.card_map, Nat.nsmul_eq_mul, mul_comm] at h

/-- When every token pays for what it causes and none weighs more than `b`, the cascade is over
after `b` times as many deliveries as there were tokens, whatever their order. -/
theorem Delivers.add_card_le {b : ℕ} (hpays : Pays handle weight) (hb : ∀ t, weight t ≤ b)
    (h : Delivers handle c k d) : k + d.inflight.card ≤ b * c.inflight.card := by
  have hpos (t : τ) : 0 < weight t := (Nat.zero_le _).trans_lt (hpays t c.state)
  calc k + d.inflight.card ≤ k + total weight d := Nat.add_le_add_left (card_le_total hpos d) k
    _ ≤ total weight c := h.add_total_le hpays
    _ ≤ b * c.inflight.card := total_le hb c

end Cascade
