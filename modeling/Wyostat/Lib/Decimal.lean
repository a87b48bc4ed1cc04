import Mathlib.Algebra.Group.Int.Defs
import Mathlib.Data.Int.Order.Basic
import Mathlib.Data.List.TakeWhile
import Mathlib.Tactic.Common

/-! Decimal text of integers: the encoder of `itoa` and the decoder of a 32-bit `atol`. -/
namespace Decimal

/-- The blanks `atol` skips: space, tab, newline, vertical tab, form feed, return. -/
def isSpace (c : Char) : Bool := c = ' ' || (9 ≤ c.toNat && c.toNat ≤ 13)

/-- A 32-bit `long` saturates at its bounds. -/
def saturate (n : ℤ) : ℤ := max (-2 ^ 31) (min n (2 ^ 31 - 1))

/-- The value of the leading digits; anything after them is ignored. -/
def digitsValue (cs : List Char) : ℕ := Nat.ofDigitChars 10 (cs.takeWhile Char.isDigit) 0

def atol (cs : List Char) : ℤ :=
  match cs.dropWhile isSpace with
  | '-' :: rest => saturate (-(digitsValue rest : ℤ))
  | '+' :: rest => saturate (digitsValue rest)
  | rest => saturate (digitsValue rest)

/-- Blanks, at most one sign, and a digit. -/
def StartsNumber (cs : List Char) : Prop :=
  ∃ (blanks sign rest : List Char) (digit : Char), cs = blanks ++ sign ++ digit :: rest ∧
    (∀ c ∈ blanks, isSpace c) ∧ sign ∈ [[], ['+'], ['-']] ∧ digit.isDigit

def itoa (n : ℤ) : List Char :=
  if n < 0 then '-' :: Nat.toDigits 10 n.natAbs else Nat.toDigits 10 n.natAbs

theorem saturate_of_mem {n : ℤ} (hlo : -2 ^ 31 ≤ n) (hhi : n < 2 ^ 31) : saturate n = n := by
  unfold saturate
  omega

theorem digitsValue_toDigits (n : ℕ) : digitsValue (Nat.toDigits 10 n) = n := by
  have hall : (Nat.toDigits 10 n).takeWhile Char.isDigit = Nat.toDigits 10 n := by
    rw [List.takeWhile_eq_self_iff]
    exact fun c hc => Nat.isDigit_of_mem_toDigits (by decide) (by decide) hc
  rw [digitsValue, hall, Nat.ofDigitChars_ten_toDigits]

theorem atol_cons {c : Char} (h : ¬ isSpace c) (cs : List Char) : atol (c :: cs) =
    if c = '-' then saturate (-(digitsValue cs : ℤ))
    else if c = '+' then saturate (digitsValue cs)
    else saturate (digitsValue (c :: cs)) := by
  simp only [atol, List.dropWhile_cons, h, if_false, Bool.false_eq_true]
  split <;> simp_all

theorem atol_of_digit {c : Char} {cs : List Char} (h : c.isDigit) :
    atol (c :: cs) = saturate (digitsValue (c :: cs)) := by
  have hc : 48 ≤ c.toNat := by
    simp only [Char.isDigit, Bool.and_eq_true, decide_eq_true_eq] at h
    exact h.1
  have hne {d : Char} (hd : d.toNat < 48) : c ≠ d := by
    rintro rfl
    omega
  have hspace : ¬ isSpace c := by
    simp only [isSpace, hne (show ' '.toNat < 48 by decide), decide_false, Bool.false_or,
      Bool.and_eq_true, decide_eq_true_eq]
    omega
  rw [atol_cons hspace, if_neg (hne (by decide)), if_neg (hne (by decide))]

theorem digitsValue_eq_zero {cs : List Char} (h : ∀ c ∈ cs.head?, ¬ c.isDigit) :
    digitsValue cs = 0 := by
  have hnone : cs.takeWhile Char.isDigit = [] := by
    cases cs with
    | nil => rfl
    | cons c cs => exact List.takeWhile_cons_of_neg (h c rfl)
  rw [digitsValue, hnone, Nat.ofDigitChars_nil]

theorem atol_eq_zero {cs : List Char} (h : ¬ StartsNumber cs) : atol cs = 0 := by
  have hblanks : ∀ c ∈ cs.takeWhile isSpace, isSpace c := fun c hc => List.mem_takeWhile_imp hc
  have hsplit : cs = cs.takeWhile isSpace ++ cs.dropWhile isSpace :=
    List.takeWhile_append_dropWhile.symm
  -- no digit stands behind the blanks and a sign
  have hdigits (sign : List Char) {rest : List Char} (htail : cs.dropWhile isSpace = sign ++ rest)
      (hsign : sign ∈ [[], ['+'], ['-']]) : digitsValue rest = 0 := by
    apply digitsValue_eq_zero
    intro c hc hdigit
    obtain ⟨rest', rfl⟩ := List.head?_eq_some_iff.mp hc
    rw [htail, ← List.append_assoc] at hsplit
    exact h ⟨_, sign, rest', c, hsplit, hblanks, hsign, hdigit⟩
  have hzero : saturate 0 = 0 := by decide
  unfold atol
  split
  · next rest htail => simp [hdigits ['-'] htail (by simp), hzero]
  · next rest htail => simp [hdigits ['+'] htail (by simp), hzero]
  · next rest => simp [hdigits [] rfl (by simp), hzero]

theorem atol_takeWhile {p : Char → Bool}
    (hp : ∀ c, isSpace c ∨ c = '+' ∨ c = '-' ∨ c.isDigit → p c) (cs : List Char) :
    atol (cs.takeWhile p) = atol cs := by
  have hdigits (cs : List Char) : digitsValue (cs.takeWhile p) = digitsValue cs := by
    have hboth : (fun c => Char.isDigit c && p c) = Char.isDigit := by
      funext c
      cases hc : c.isDigit with
      | false => rfl
      | true => simp [hp c (.inr (.inr (.inr hc)))]
    rw [digitsValue, digitsValue, List.takeWhile_takeWhile]
    simp only [Bool.decide_and, Bool.decide_eq_true, hboth]
  induction cs with
  | nil => rfl
  | cons c cs ih =>
    by_cases hspace : isSpace c
    · rw [List.takeWhile_cons_of_pos (hp c (.inl hspace))]
      have hskip (cs : List Char) : atol (c :: cs) = atol cs := by
        simp only [atol, List.dropWhile_cons, hspace, if_true]
      rw [hskip, hskip, ih]
    · have hread := atol_cons hspace
      cases hpc : p c with
      | true =>
        have hkeep := hdigits (c :: cs)
        rw [List.takeWhile_cons_of_pos hpc] at hkeep ⊢
        rw [hread, hread, hdigits, hkeep]
      | false =>
        have hminus : c ≠ '-' := by
          rintro rfl
          simp [hp] at hpc
        have hplus : c ≠ '+' := by
          rintro rfl
          simp [hp] at hpc
        have hcut := hdigits (c :: cs)
        rw [hread, if_neg hminus, if_neg hplus, ← hcut, List.takeWhile_cons_of_neg (by simp [hpc])]
        rfl

/-- Decoding what was encoded gives the number back, saturated. -/
theorem atol_itoa_eq_saturate (n : ℤ) : atol (itoa n) = saturate n := by
  unfold itoa
  split
  · next hneg =>
    have hspace : isSpace '-' = false := by decide
    have habs : -(n.natAbs : ℤ) = n := by omega
    simp only [atol, List.dropWhile_cons, hspace, Bool.false_eq_true, if_false,
      digitsValue_toDigits, habs]
  · next hpos =>
    have habs : (n.natAbs : ℤ) = n := by omega
    cases hd : Nat.toDigits 10 n.natAbs with
    | nil => exact absurd hd Nat.toDigits_ne_nil
    | cons c cs =>
      have hc : c.isDigit :=
        Nat.isDigit_of_mem_toDigits (b := 10) (n := n.natAbs) (by decide) (by decide)
          (by simp [hd])
      rw [atol_of_digit hc, ← hd, digitsValue_toDigits, habs]

theorem mem_itoa {n : ℤ} {c : Char} (h : c ∈ itoa n) : c = '-' ∨ c.isDigit := by
  have hdigit : c ∈ Nat.toDigits 10 n.natAbs → c.isDigit :=
    Nat.isDigit_of_mem_toDigits (by decide) (by decide)
  unfold itoa at h
  split_ifs at h
  · exact (List.mem_cons.mp h).imp_right hdigit
  · exact .inr (hdigit h)

theorem itoa_ne_nil (n : ℤ) : itoa n ≠ [] := by
  unfold itoa
  split_ifs
  · exact List.cons_ne_nil _ _
  · exact Nat.toDigits_ne_nil

theorem length_itoa_le {n : ℤ} (hlo : -2 ^ 31 ≤ n) (hhi : n < 2 ^ 31) : (itoa n).length ≤ 11 := by
  have hdigits : (Nat.toDigits 10 n.natAbs).length ≤ 10 := by
    rw [Nat.length_toDigits_le_iff (by decide) (by decide)]
    omega
  unfold itoa
  split
  · rw [List.length_cons]
    omega
  · omega

theorem atol_itoa {n : ℤ} (hlo : -2 ^ 31 ≤ n) (hhi : n < 2 ^ 31) : atol (itoa n) = n := by
  rw [atol_itoa_eq_saturate, saturate_of_mem hlo hhi]

end Decimal
