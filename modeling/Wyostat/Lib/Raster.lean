import Mathlib.Data.List.Basic
import Mathlib.Logic.Function.Basic
import Mathlib.Tactic.Common

/-! Pictures of black and white pixels in bytes: eight rows make a page, and each byte of a page
holds the eight pixels of one column. -/
namespace Raster

def bit (b : UInt8) (k : ℕ) : Bool := b.toBitVec.getLsbD k

/-- A way to change pixels, and how it changes all pixels of a byte that a mask selects. -/
structure Brush where
  ink : Bool → Bool
  byte : UInt8 → UInt8 → UInt8
  bit_byte : ∀ mask b k, k < 8 →
    bit (byte mask b) k = if bit mask k then ink (bit b k) else bit b k

variable (width : ℕ)

/-- The pixel in column `x` and row `y`, in pages of a given width. -/
def pixel (f : ℕ → UInt8) (x y : ℕ) : Bool := bit (f (x + y / 8 * width)) (y % 8)

/-- The byte at an index, changed where the mask selects. -/
def Brush.stamp (brush : Brush) (f : ℕ → UInt8) (i : ℕ) (mask : UInt8) : ℕ → UInt8 :=
  Function.update f i (brush.byte mask (f i))

/-- The picture `g` is the picture `f` of a height, painted in a region; what lies behind the
picture is left alone. -/
structure Paints (brush : Brush) (height : ℕ) (f g : ℕ → UInt8) (region : ℕ → ℕ → Prop) :
    Prop where
  inside : ∀ x y, x < width → y < height → region x y →
    pixel width g x y = brush.ink (pixel width f x y)
  outside : ∀ x y, x < width → y < height → ¬ region x y → pixel width g x y = pixel width f x y
  behind : ∀ i, height / 8 * width ≤ i → g i = f i

/-- The picture `g` is the picture `f` but for some columns, and nothing has changed behind it. -/
structure Keeps (height : ℕ) (columns : ℕ → Prop) (f g : ℕ → UInt8) : Prop where
  outside : ∀ x y, x < width → y < height → ¬ columns x → pixel width g x y = pixel width f x y
  behind : ∀ i, height / 8 * width ≤ i → g i = f i

section Bits

theorem bit_or (a b : UInt8) (k : ℕ) : bit (a ||| b) k = (bit a k || bit b k) := by
  simp [bit]

theorem bit_and (a b : UInt8) (k : ℕ) : bit (a &&& b) k = (bit a k && bit b k) := by
  simp [bit]

theorem bit_xor (a b : UInt8) (k : ℕ) : bit (a ^^^ b) k = (bit a k ^^ bit b k) := by
  simp [bit]

theorem bit_not (a : UInt8) {k : ℕ} (h : k < 8) : bit (~~~a) k = !bit a k := by
  simp [bit, h]

theorem bit_of_le (b : UInt8) {k : ℕ} (h : 8 ≤ k) : bit b k = false := BitVec.getLsbD_of_ge _ _ h

theorem bit_ofNat (n : ℕ) {k : ℕ} (h : k < 8) : bit (UInt8.ofNat n) k = n.testBit k := by
  show (BitVec.ofNat 8 n).getLsbD k = n.testBit k
  rw [BitVec.getLsbD_ofNat, decide_eq_true h, Bool.true_and]

theorem bit_shiftLeft (b : UInt8) (n : ℕ) {k : ℕ} (h : k < 8) :
    bit (UInt8.ofNat (b.toNat <<< n)) k = (decide (n ≤ k) && bit b (k - n)) := by
  rw [bit_ofNat _ h, Nat.testBit_shiftLeft]
  rfl

theorem bit_shiftRight (b : UInt8) (n : ℕ) {k : ℕ} (h : k < 8) :
    bit (UInt8.ofNat (b.toNat >>> n)) k = bit b (n + k) := by
  rw [bit_ofNat _ h, Nat.testBit_shiftRight]
  rfl

theorem bit_shiftRight_one (a : UInt8) (k : ℕ) : bit (a >>> 1) k = bit a (k + 1) := by
  simp [bit, Nat.add_comm]

theorem bit_ext {a b : UInt8} (h : ∀ k < 8, bit a k = bit b k) : a = b :=
  UInt8.toBitVec_inj.mp (BitVec.eq_of_getLsbD_eq h)

theorem and_one_ne_zero (a : UInt8) : a &&& 0x01 ≠ 0 ↔ bit a 0 = true := by
  constructor
  · intro h
    by_contra hbit
    apply h
    apply bit_ext
    intro k _
    rw [bit_and]
    rcases k with _ | k
    · rw [eq_false_of_ne_true hbit]
      rfl
    · simp [bit]
  · intro h hzero
    have hbit := bit_and a 0x01 0
    rw [hzero, h] at hbit
    simp [bit] at hbit

end Bits

variable {width} {brush : Brush} {height : ℕ} {f g h : ℕ → UInt8} {R S : ℕ → ℕ → Prop}

theorem index_inj {x c y p : ℕ} (hx : x < width) (hc : c < width) :
    x + y / 8 * width = c + p * width ↔ x = c ∧ y / 8 = p := by
  constructor
  · intro h
    have hx' : (x + y / 8 * width) % width = x := by
      rw [Nat.add_mul_mod_self_right, Nat.mod_eq_of_lt hx]
    have hc' : (c + p * width) % width = c := by
      rw [Nat.add_mul_mod_self_right, Nat.mod_eq_of_lt hc]
    have hxc : x = c := by rw [← hx', h, hc']
    subst hxc
    exact ⟨rfl, Nat.eq_of_mul_eq_mul_right (by omega) (Nat.add_left_cancel h)⟩
  · rintro ⟨rfl, rfl⟩
    rfl

theorem Paints.refl (brush : Brush) (height : ℕ) (f : ℕ → UInt8) :
    Paints width brush height f f fun _ _ => False :=
  ⟨fun _ _ _ _ h => h.elim, fun _ _ _ _ _ => rfl, fun _ _ => rfl⟩

theorem Paints.congr (h : Paints width brush height f g R)
    (hRS : ∀ x y, x < width → y < height → (R x y ↔ S x y)) : Paints width brush height f g S :=
  ⟨fun x y hx hy hS => h.inside x y hx hy ((hRS x y hx hy).mpr hS),
    fun x y hx hy hS => h.outside x y hx hy (mt (hRS x y hx hy).mp hS), h.behind⟩

/-- Painting one region after another paints both, as long as no pixel is painted twice. -/
theorem Paints.trans (hf : Paints width brush height f g R) (hg : Paints width brush height g h S)
    (hdisjoint : ∀ x y, R x y → ¬ S x y) :
    Paints width brush height f h fun x y => R x y ∨ S x y := by
  refine ⟨?_, ?_, fun i hi => (hg.behind i hi).trans (hf.behind i hi)⟩
  · rintro x y hx hy (hR | hS)
    · rw [hg.outside x y hx hy (hdisjoint x y hR), hf.inside x y hx hy hR]
    · rw [hg.inside x y hx hy hS, hf.outside x y hx hy fun hR => hdisjoint x y hR hS]
  · intro x y hx hy hnot
    rw [not_or] at hnot
    rw [hg.outside x y hx hy hnot.2, hf.outside x y hx hy hnot.1]

/-- Steps that paint regions without common pixels paint all of them. -/
theorem paints_foldl {step : (ℕ → UInt8) → ℕ → ℕ → UInt8} (regions : ℕ → ℕ → ℕ → Prop) (n : ℕ)
    (hstep : ∀ f, ∀ k < n, Paints width brush height f (step f k) (regions k))
    (hdisjoint : ∀ j < n, ∀ k < n, j ≠ k → ∀ x y, regions j x y → ¬ regions k x y) (f : ℕ → UInt8) :
    Paints width brush height f ((List.range n).foldl step f) fun x y =>
      ∃ k < n, regions k x y := by
  induction n with
  | zero =>
    apply (Paints.refl brush height f).congr
    intro x y _ _
    exact ⟨False.elim, fun ⟨k, hk, _⟩ => absurd hk (Nat.not_lt_zero k)⟩
  | succ n ih =>
    have hfirst := ih (fun f k hk => hstep f k (by omega)) fun j hj k hk => hdisjoint j (by omega) k
      (by omega)
    rw [List.range_succ, List.foldl_append]
    apply (hfirst.trans (hstep _ n (by omega)) ?_).congr
    · intro x y _ _
      constructor
      · rintro (⟨k, hk, hR⟩ | hR)
        · exact ⟨k, by omega, hR⟩
        · exact ⟨n, by omega, hR⟩
      · rintro ⟨k, hk, hR⟩
        rcases Nat.lt_succ_iff_lt_or_eq.mp hk with hlt | rfl
        · exact Or.inl ⟨k, hlt, hR⟩
        · exact Or.inr hR
    · rintro x y ⟨k, hk, hR⟩
      exact hdisjoint k (by omega) n (by omega) (by omega) x y hR

/-- What has been painted determines the picture. -/
theorem Paints.unique {g' : ℕ → UInt8} (hwidth : 0 < width) (hg : Paints width brush height f g R)
    (hg' : Paints width brush height f g' R) : g = g' := by
  funext i
  by_cases hi : i < height / 8 * width
  · apply bit_ext
    intro k hk
    have hx := Nat.mod_lt i hwidth
    have hpage : i / width < height / 8 := Nat.div_lt_of_lt_mul (Nat.mul_comm _ _ ▸ hi)
    have hindex : i % width + (i / width * 8 + k) / 8 * width = i := by
      rw [show (i / width * 8 + k) / 8 = i / width by omega, Nat.mod_add_div']
    have hbit (f : ℕ → UInt8) : pixel width f (i % width) (i / width * 8 + k) = bit (f i) k := by
      unfold pixel
      rw [hindex, show (i / width * 8 + k) % 8 = k by omega]
    rw [← hbit g, ← hbit g']
    by_cases hR : R (i % width) (i / width * 8 + k)
    · rw [hg.inside _ _ hx (by omega) hR, hg'.inside _ _ hx (by omega) hR]
    · rw [hg.outside _ _ hx (by omega) hR, hg'.outside _ _ hx (by omega) hR]
  · rw [hg.behind i (by omega), hg'.behind i (by omega)]

variable {C : ℕ → Prop}

theorem Keeps.refl (height : ℕ) (C : ℕ → Prop) (f : ℕ → UInt8) : Keeps width height C f f :=
  ⟨fun _ _ _ _ _ => rfl, fun _ _ => rfl⟩

theorem Keeps.trans (hf : Keeps width height C f g) (hg : Keeps width height C g h) :
    Keeps width height C f h :=
  ⟨fun x y hx hy hC => (hg.outside x y hx hy hC).trans (hf.outside x y hx hy hC),
    fun i hi => (hg.behind i hi).trans (hf.behind i hi)⟩

theorem Paints.keeps (h : Paints width brush height f g R)
    (hC : ∀ x y, x < width → y < height → R x y → C x) : Keeps width height C f g :=
  ⟨fun x y hx hy hx' => h.outside x y hx hy fun hR => hx' (hC x y hx hy hR), h.behind⟩

theorem keeps_update (f : ℕ → UInt8) {i : ℕ} (hi : i < height / 8 * width) (hC : C (i % width))
    (b : UInt8) : Keeps width height C f (Function.update f i b) := by
  refine ⟨fun x y hx _ hx' => ?_, fun j hj => Function.update_of_ne (by omega) _ _⟩
  have hne : x + y / 8 * width ≠ i := by
    rintro rfl
    rw [Nat.add_mul_mod_self_right, Nat.mod_eq_of_lt hx] at hC
    exact hx' hC
  unfold pixel
  rw [Function.update_of_ne hne]

theorem paints_stamp (brush : Brush) (f : ℕ → UInt8) {c p : ℕ} (hc : c < width)
    (hp : p < height / 8) (mask : UInt8) :
    Paints width brush height f (brush.stamp f (c + p * width) mask)
      fun x y => x = c ∧ y / 8 = p ∧ bit mask (y % 8) = true := by
  have hpixel (x y : ℕ) (hx : x < width) :
      pixel width (brush.stamp f (c + p * width) mask) x y =
        if x = c ∧ y / 8 = p ∧ bit mask (y % 8) = true then brush.ink (pixel width f x y)
        else pixel width f x y := by
    unfold pixel Brush.stamp
    by_cases hi : x = c ∧ y / 8 = p
    · rw [(index_inj hx hc).mpr hi, Function.update_self, brush.bit_byte _ _ _ (by omega)]
      simp [hi]
    · rw [Function.update_of_ne (mt (index_inj hx hc).mp hi), if_neg fun h => hi ⟨h.1, h.2.1⟩]
  refine ⟨?_, ?_, ?_⟩
  · intro x y hx _ hR
    rw [hpixel x y hx, if_pos hR]
  · intro x y hx _ hR
    rw [hpixel x y hx, if_neg hR]
  · intro i hi
    have hlt : c + p * width < height / 8 * width := by
      calc c + p * width < width + p * width := by omega
        _ = (p + 1) * width := by rw [Nat.add_mul, Nat.one_mul, Nat.add_comm]
        _ ≤ height / 8 * width := Nat.mul_le_mul_right _ hp
    exact Function.update_of_ne (by omega) _ _

end Raster
