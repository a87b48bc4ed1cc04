import Wyostat.Device
import Wyostat.Lib.Delimited

/-! The Arduino `String` as far as the time look-up uses it. A string is its `len` bytes; the C
functions behind its methods stop at the first NUL. -/
namespace Wyostat.WString
open Delimited

/-- A copy, such as an argument passed by value: `strcpy` into a zeroed buffer keeps `len` and wipes
what stands behind the first NUL. -/
def copy (s : List Char) : List Char :=
  cString s ++ List.replicate (s.length - (cString s).length) nul

/-- `indexOf`, by `strstr` from an index on. -/
def indexOf (s find : List Char) (fromIndex : ℕ) : ℤ :=
  if s.length ≤ fromIndex then -1
  else
    match search (cString find) (cString (s.drop fromIndex)) with
    | some found => fromIndex + (cString (s.drop fromIndex)).length - found.length
    | none => -1

/-- The copy `substring` makes of the bytes between two indices in order. -/
def slice (s : List Char) (left right : ℕ) : List Char :=
  if s.length ≤ left then [] else cString ((s.take right).drop left)

/-- `substring`. A negative index becomes an `unsigned int` beyond every string, and indices in
the wrong order are swapped. -/
def substring (s : List Char) (left : ℕ) (right : ℤ) : List Char :=
  let right := if right < 0 then max left s.length else right.toNat
  if right < left then slice s right left else slice s left right

/-- `replace(" ", "")`: what stands before the first NUL moves up, the bytes behind it stay where
they are, and `len` drops by the number of blanks. -/
def removeBlanks (s : List Char) : List Char :=
  let kept := (cString s).filter (· ≠ ' ')
  (kept ++ nul :: (s ++ [nul]).drop (kept.length + 1)).take
    (s.length - ((cString s).length - kept.length))

def toInt (s : List Char) : ℤ := Decimal.atol s

/-- `equals`, by `strcmp`. -/
def equals (s cstr : List Char) : Bool := cString s = cstr

section CStrings
variable {s : List Char}

theorem length_cString_le (s : List Char) : (cString s).length ≤ s.length :=
  (List.takeWhile_prefix _).length_le

theorem length_cString_lt (h : nul ∈ s) : (cString s).length < s.length := by
  refine lt_of_le_of_ne (length_cString_le s) fun heq => nul_notMem_cString s ?_
  have hself : cString s = s := List.IsPrefix.eq_of_length (List.takeWhile_prefix _) heq
  rwa [hself]

theorem cString_take (s : List Char) (n : ℕ) : cString (s.take n) = (cString s).take n := by
  induction s generalizing n with
  | nil => simp [cString]
  | cons c s ih =>
    cases n with
    | zero => simp [cString]
    | succ n =>
      simp only [cString, List.take_succ_cons, List.takeWhile_cons] at ih ⊢
      split_ifs with hc
      · rw [List.take_succ_cons, ih]
      · rw [List.take_nil]

theorem length_copy (s : List Char) : (copy s).length = s.length := by
  have hle := length_cString_le s
  rw [copy, List.length_append, List.length_replicate]
  omega

/-- From any index on, a copy reads like what stands before the first NUL. -/
theorem cString_drop_copy (s : List Char) (n : ℕ) :
    cString ((copy s).drop n) = (cString s).drop n := by
  have hkept : ∀ c ∈ (cString s).drop n, decide (c ≠ nul) := by
    intro c hc
    simpa using ne_of_mem_of_not_mem (List.mem_of_mem_drop hc) (nul_notMem_cString s)
  rw [copy, List.drop_append, List.drop_replicate, cString, List.takeWhile_append_of_pos hkept]
  simp

theorem cString_copy (s : List Char) : cString (copy s) = cString s :=
  cString_drop_copy s 0

theorem copy_eq_self (h : nul ∉ s) : copy s = s := by
  rw [copy, cString_eq_self h, Nat.sub_self, List.replicate_zero, List.append_nil]

theorem cString_removeBlanks (s : List Char) :
    cString (removeBlanks s) = (cString s).filter (· ≠ ' ') := by
  have hkept : ∀ c ∈ (cString s).filter (· ≠ ' '), c ≠ nul := by
    rintro c hc rfl
    exact nul_notMem_cString s (List.mem_of_mem_filter hc)
  have hle : ((cString s).filter (· ≠ ' ')).length ≤
      s.length - ((cString s).length - ((cString s).filter (· ≠ ' ')).length) := by
    have hfilter := List.length_filter_le (fun c => decide (c ≠ ' ')) (cString s)
    have hwhile := length_cString_le s
    omega
  obtain ⟨m, hm⟩ := Nat.exists_eq_add_of_le hle
  unfold removeBlanks
  dsimp only
  rw [hm, List.take_length_add_append]
  generalize (cString s).filter (· ≠ ' ') = kept at hkept
  rw [cString, List.takeWhile_append_of_pos (by simpa using hkept)]
  cases m <;> simp

end CStrings

section Search

theorem search_singleton (c : Char) (text : List Char) :
    search [c] text = if c ∈ text then some (text.dropWhile (· ≠ c)) else none := by
  induction text with
  | nil => simp [search]
  | cons d text ih =>
    by_cases h : c = d
    · subst h
      simp [search]
    · have hne : d ≠ c := Ne.symm h
      simp [search, List.cons_prefix_cons, h, hne, ih]

theorem substring_add (s : List Char) (left len : ℕ) :
    substring s left (left + len : ℕ) = (cString (s.drop left)).take len := by
  have hright : ¬ ((left + len : ℕ) : ℤ) < 0 := by omega
  have horder : ¬ left + len < left := by omega
  unfold substring
  rw [if_neg hright, Int.toNat_natCast]
  dsimp only
  rw [if_neg horder, slice, List.drop_take, Nat.add_sub_cancel_left, cString_take]
  split_ifs with hend
  · rw [List.drop_eq_nil_of_le hend, cString, List.takeWhile_nil, List.take_nil]
  · rfl

theorem substring_neg_one (s : List Char) (left : ℕ) :
    substring s left (-1) = cString (s.drop left) := by
  have hneg : (-1 : ℤ) < 0 := by decide
  have horder : ¬ max left s.length < left := by omega
  unfold substring
  rw [if_pos hneg]
  dsimp only
  rw [if_neg horder, slice, List.take_of_length_le (le_max_right ..)]
  split_ifs with hend
  · rw [List.drop_eq_nil_of_le hend, cString, List.takeWhile_nil]
  · rfl

theorem nul_notMem_substring (s : List Char) (left : ℕ) (right : ℤ) :
    nul ∉ substring s left right := by
  have hslice (left right : ℕ) : nul ∉ slice s left right := by
    unfold slice
    split_ifs
    · exact List.not_mem_nil
    · exact nul_notMem_cString _
  unfold substring
  dsimp only
  split_ifs
  · exact hslice _ _
  · exact hslice _ _
  · exact hslice _ _
  · exact hslice _ _

/-- A substring that ends at the next occurrence of a character, or at a NUL. -/
theorem substring_indexOf (s : List Char) {c : Char} (hc : c ≠ nul) (left : ℕ) :
    substring s left (indexOf s [c] left) = (cString (s.drop left)).takeWhile (· ≠ c) := by
  have hcstring : cString [c] = [c] := cString_eq_self (by simpa using Ne.symm hc)
  have hadd := substring_add s left
  unfold indexOf
  rw [hcstring, search_singleton]
  by_cases hend : s.length ≤ left
  · rw [if_pos hend, substring_neg_one, List.drop_eq_nil_of_le hend, cString, List.takeWhile_nil,
      List.takeWhile_nil]
  rw [if_neg hend]
  have hrest := substring_neg_one s left
  generalize cString (s.drop left) = text at hadd hrest ⊢
  by_cases hmem : c ∈ text
  · have hsplit := congrArg List.length
      (List.takeWhile_append_dropWhile (p := fun d => decide (d ≠ c)) (l := text))
    rw [List.length_append] at hsplit
    have hindex : (left + text.length - (text.dropWhile (· ≠ c)).length : ℤ) =
        (left + (text.takeWhile (· ≠ c)).length : ℕ) := by
      omega
    rw [if_pos hmem]
    dsimp only
    rw [hindex, hadd]
    exact (List.prefix_iff_eq_take.mp (List.takeWhile_prefix _)).symm
  · rw [if_neg hmem, hrest]
    refine (List.takeWhile_eq_self_iff.mpr fun d hd => ?_).symm
    have hne : d ≠ c := by
      rintro rfl
      exact hmem hd
    simpa using hne

end Search

end Wyostat.WString
