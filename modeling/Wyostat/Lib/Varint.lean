import Mathlib.Algebra.GroupWithZero.Nat
import Mathlib.Data.List.Basic
import Mathlib.Tactic.Common

/-! Numbers of variable length on a wire: digits of some base, lowest first, where every digit but
the last is raised by the base. -/
namespace Varint

variable {b : ℕ}

/-- The digits of a number; one that has more to come is raised by the base. -/
def encode (b n : ℕ) : List ℕ := if 1 < b ∧ b ≤ n then (n % b + b) :: encode b (n / b) else [n]
termination_by n
decreasing_by exact Nat.div_lt_self (by omega) (by omega)

/-- The number at the start of a list of digits, and the digits behind it. -/
def decode (b : ℕ) : List ℕ → Option (ℕ × List ℕ)
  | [] => none
  | d :: ds => if d < b then some (d, ds) else (decode b ds).map fun r => (d - b + b * r.1, r.2)

theorem encode_of_lt {n : ℕ} (h : n < b) : encode b n = [n] := by
  rw [encode, if_neg (by omega)]

theorem encode_of_le {n : ℕ} (hb : 1 < b) (h : b ≤ n) :
    encode b n = (n % b + b) :: encode b (n / b) := by
  rw [encode, if_pos ⟨hb, h⟩]

theorem digitsInduction (hb : 1 < b) {P : ℕ → Prop} (last : ∀ n < b, P n)
    (more : ∀ n, b ≤ n → P (n / b) → P n) (n : ℕ) : P n := by
  induction n using Nat.strongRecOn with
  | ind n ih =>
    rcases Nat.lt_or_ge n b with h | h
    · exact last n h
    · exact more n h (ih _ (Nat.div_lt_self (by omega) hb))

theorem decode_encode (hb : 1 < b) (n : ℕ) (rest : List ℕ) :
    decode b (encode b n ++ rest) = some (n, rest) := by
  induction n using digitsInduction hb with
  | last n h => simp [encode_of_lt h, decode, h]
  | more n h ih =>
    have hhigh : ¬ n % b + b < b := by omega
    have hlow : n % b + b - b + b * (n / b) = n := by
      rw [Nat.add_sub_cancel]
      exact Nat.mod_add_div n b
    simp only [encode_of_le hb h, List.cons_append, decode, if_neg hhigh, ih, Option.map_some, hlow]

/-- No encoding is the beginning of another one. -/
theorem encode_append_inj (hb : 1 < b) {m n : ℕ} {xs ys : List ℕ}
    (h : encode b m ++ xs = encode b n ++ ys) : m = n ∧ xs = ys := by
  have hm := decode_encode hb m xs
  rw [h, decode_encode hb n ys, Option.some_inj, Prod.mk.injEq] at hm
  exact ⟨hm.1.symm, hm.2.symm⟩

theorem lt_of_mem_encode (hb : 1 < b) {n d : ℕ} (h : d ∈ encode b n) : d < 2 * b := by
  induction n using digitsInduction hb with
  | last n hn =>
    rw [encode_of_lt hn, List.mem_singleton] at h
    omega
  | more n hn ih =>
    rw [encode_of_le hb hn, List.mem_cons] at h
    rcases h with rfl | h
    · have := Nat.mod_lt n (show 0 < b by omega)
      omega
    · exact ih h

theorem length_encode_pos (b n : ℕ) : 0 < (encode b n).length := by
  rw [encode]
  split_ifs <;> exact Nat.succ_pos _

theorem length_encode_le_iff (hb : 1 < b) (n k : ℕ) :
    (encode b n).length ≤ k + 1 ↔ n < b ^ (k + 1) := by
  induction n using digitsInduction hb generalizing k with
  | last n h =>
    have hle : b ≤ b ^ (k + 1) := Nat.le_self_pow (Nat.succ_ne_zero k) b
    rw [encode_of_lt h, List.length_singleton]
    omega
  | more n h ih =>
    rw [encode_of_le hb h, List.length_cons]
    cases k with
    | zero =>
      have := length_encode_pos b (n / b)
      rw [Nat.pow_one]
      omega
    | succ k =>
      rw [Nat.succ_le_succ_iff, ih k, Nat.div_lt_iff_lt_mul (by omega), ← Nat.pow_succ]

end Varint
