import Mathlib.Data.List.Basic
import Mathlib.Tactic.Common

/-! The texts to be drawn come in UTF-8, and the fonts have one glyph to a byte. -/
namespace Wyostat.Oled

/-- One byte, after the byte that `LASTCHAR` keeps; 0 stands for a byte to be ignored. -/
def utf8asciiByte (lastChar ascii : UInt8) : UInt8 × UInt8 :=
  if ascii < 128 then (0, ascii)
  else
    (ascii,
      if lastChar = 0xC2 then ascii
      else if lastChar = 0xC3 then ascii ||| 0xC0
      else if lastChar = 0x82 ∧ ascii = 0xAC then 0x80
      else 0)

/-- A whole text, and `LASTCHAR` after it, which stays from one text to the next. -/
def utf8ascii (lastChar : UInt8) : List UInt8 → UInt8 × List UInt8
  | [] => (lastChar, [])
  | c :: text =>
    let (lastChar, c) := utf8asciiByte lastChar c
    let (lastChar, text) := utf8ascii lastChar text
    (lastChar, if c ≠ 0 then c :: text else text)

/-- What is drawn for a character. The Latin ones have a glyph each, and the Euro sign shows for
every character with the two bytes in its encoding that end the Euro sign's. -/
def latin (c : Char) : List UInt8 :=
  if c.toNat < 0x100 then [UInt8.ofNat c.toNat]
  else if 0x800 ≤ c.toNat ∧ c.toNat % 0x1000 = 0xAC ∨
      0x10000 ≤ c.toNat ∧ c.toNat / 0x40 % 0x1000 = 0xAC then [0x80]
  else []

/-- A byte that no two-byte sequence of a Latin character begins with. -/
def Settled (lastChar : UInt8) : Prop := lastChar ≠ 0xC2 ∧ lastChar ≠ 0xC3

theorem utf8ascii_append (lastChar : UInt8) (text text' : List UInt8) :
    utf8ascii lastChar (text ++ text') =
      ((utf8ascii (utf8ascii lastChar text).1 text').1,
        (utf8ascii lastChar text).2 ++ (utf8ascii (utf8ascii lastChar text).1 text').2) := by
  induction text generalizing lastChar with
  | nil => rfl
  | cons c text ih =>
    simp only [List.cons_append, utf8ascii, ih]
    split <;> rfl

section Bytes
variable {lastChar : UInt8} {m n : ℕ}

theorem ofNat_inj (hm : m < 256) (hn : n < 256) : UInt8.ofNat m = UInt8.ofNat n ↔ m = n := by
  constructor
  · intro h
    have hval := congrArg UInt8.toNat h
    rwa [UInt8.toNat_ofNat', UInt8.toNat_ofNat', Nat.mod_eq_of_lt hm, Nat.mod_eq_of_lt hn] at hval
  · rintro rfl
    rfl

theorem settled_ofNat (hn : n < 256) (h : n ≠ 0xC2 ∧ n ≠ 0xC3) : Settled (UInt8.ofNat n) :=
  ⟨mt (ofNat_inj hn (by decide)).mp h.1, mt (ofNat_inj hn (by decide)).mp h.2⟩

theorem utf8asciiByte_ascii (hn : n < 128) :
    utf8asciiByte lastChar (UInt8.ofNat n) = (0, UInt8.ofNat n) := by
  unfold utf8asciiByte
  rw [if_pos]
  rw [UInt8.lt_iff_toNat_lt, UInt8.toNat_ofNat']
  show n % 256 < 128
  omega

theorem not_lt_128 (hn : 128 ≤ n ∧ n < 256) : ¬ UInt8.ofNat n < 128 := by
  rw [UInt8.lt_iff_toNat_lt, UInt8.toNat_ofNat']
  show ¬ n % 256 < 128
  omega

theorem utf8asciiByte_lead (h : Settled lastChar) (hn : 0xC0 ≤ n ∧ n < 256) :
    utf8asciiByte lastChar (UInt8.ofNat n) = (UInt8.ofNat n, 0) := by
  have hne : UInt8.ofNat n ≠ UInt8.ofNat 0xAC := mt (ofNat_inj hn.2 (by decide)).mp (by omega)
  unfold utf8asciiByte
  rw [if_neg (not_lt_128 ⟨by omega, hn.2⟩), if_neg h.1, if_neg h.2, if_neg fun h => hne h.2]

theorem utf8asciiByte_rest (hm : m < 256 ∧ m ≠ 0xC2 ∧ m ≠ 0xC3) (hn : 128 ≤ n ∧ n < 256) :
    utf8asciiByte (UInt8.ofNat m) (UInt8.ofNat n) =
      (UInt8.ofNat n, if m = 0x82 ∧ n = 0xAC then 0x80 else 0) := by
  have hm82 : UInt8.ofNat m = 0x82 ↔ m = 0x82 := ofNat_inj hm.1 (by decide)
  have hnAC : UInt8.ofNat n = 0xAC ↔ n = 0xAC := ofNat_inj hn.2 (by decide)
  obtain ⟨hC2, hC3⟩ := settled_ofNat hm.1 hm.2
  unfold utf8asciiByte
  rw [if_neg (not_lt_128 hn), if_neg hC2, if_neg hC3]
  simp only [hm82, hnAC]

theorem utf8asciiByte_second (hm : 0xC4 ≤ m ∧ m < 256) (hn : 128 ≤ n ∧ n < 256) :
    utf8asciiByte (UInt8.ofNat m) (UInt8.ofNat n) = (UInt8.ofNat n, 0) := by
  rw [utf8asciiByte_rest (by omega) hn, if_neg (by omega)]

theorem utf8asciiByte_latin (hm : m = 2 ∨ m = 3) (hn : n < 64) :
    utf8asciiByte (UInt8.ofNat (m + 0xC0)) (UInt8.ofNat (n + 0x80)) =
      (UInt8.ofNat (n + 0x80), UInt8.ofNat (64 * m + n)) := by
  have hall : ∀ n : Fin 64,
      utf8asciiByte (UInt8.ofNat (2 + 0xC0)) (UInt8.ofNat (n + 0x80)) =
          (UInt8.ofNat (n + 0x80), UInt8.ofNat (64 * 2 + n)) ∧
        utf8asciiByte (UInt8.ofNat (3 + 0xC0)) (UInt8.ofNat (n + 0x80)) =
          (UInt8.ofNat (n + 0x80), UInt8.ofNat (64 * 3 + n)) := by decide
  rcases hm with rfl | rfl
  · exact (hall ⟨n, hn⟩).1
  · exact (hall ⟨n, hn⟩).2

end Bytes

section Characters
variable {lastChar : UInt8} {v : ℕ}

theorem settled_rest (v : ℕ) : Settled (UInt8.ofNat (v % 64 + 128)) :=
  settled_ofNat (by omega) (by omega)

/-- Bytes of 0 are left out. -/
def kept (c : UInt8) : List UInt8 := if c ≠ 0 then [c] else []

theorem utf8ascii_cons (c : UInt8) (text : List UInt8) :
    utf8ascii lastChar (c :: text) =
      ((utf8ascii (utf8asciiByte lastChar c).1 text).1,
        kept (utf8asciiByte lastChar c).2 ++ (utf8ascii (utf8asciiByte lastChar c).1 text).2) := by
  show ((utf8ascii (utf8asciiByte lastChar c).1 text).1,
    if (utf8asciiByte lastChar c).2 ≠ 0 then
      (utf8asciiByte lastChar c).2 :: (utf8ascii (utf8asciiByte lastChar c).1 text).2
    else (utf8ascii (utf8asciiByte lastChar c).1 text).2) = _
  unfold kept
  split <;> rfl

@[simp] theorem kept_zero : kept 0 = [] := rfl

theorem kept_ofNat (hv : 0 < v ∧ v < 256) : kept (UInt8.ofNat v) = [UInt8.ofNat v] :=
  if_pos (mt (ofNat_inj (n := 0) hv.2 (by decide)).mp (by omega))

theorem kept_euro (p : Prop) [Decidable p] :
    kept (if p then 0x80 else 0) = if p then [0x80] else [] := by
  split <;> rfl

theorem utf8ascii_one (hv : 0 < v ∧ v ≤ 127) :
    utf8ascii lastChar [UInt8.ofNat v] = (0, [UInt8.ofNat v]) := by
  rw [utf8ascii_cons, utf8asciiByte_ascii (by omega), kept_ofNat (by omega)]
  rfl

theorem utf8ascii_two (h : Settled lastChar) (hv : 128 ≤ v ∧ v ≤ 2047) :
    utf8ascii lastChar [UInt8.ofNat (v / 64 % 32 + 192), UInt8.ofNat (v % 64 + 128)] =
      (UInt8.ofNat (v % 64 + 128), if v < 0x100 then [UInt8.ofNat v] else []) := by
  rw [utf8ascii_cons, utf8asciiByte_lead h (by omega), utf8ascii_cons]
  split
  next hlatin =>
    rw [utf8asciiByte_latin (by omega) (Nat.mod_lt _ (by decide)),
      show 64 * (v / 64 % 32) + v % 64 = v by omega, kept_ofNat (by omega)]
    rfl
  next =>
    rw [utf8asciiByte_second (by omega) (by omega)]
    rfl

theorem utf8ascii_three (h : Settled lastChar) :
    utf8ascii lastChar [UInt8.ofNat (v / 4096 % 16 + 224), UInt8.ofNat (v / 64 % 64 + 128),
        UInt8.ofNat (v % 64 + 128)] =
      (UInt8.ofNat (v % 64 + 128), if v % 0x1000 = 0xAC then [0x80] else []) := by
  rw [utf8ascii_cons, utf8asciiByte_lead h (by omega), utf8ascii_cons,
    utf8asciiByte_second (by omega) (by omega), utf8ascii_cons,
    utf8asciiByte_rest (by omega) (by omega), kept_euro]
  have heuro : v / 64 % 64 + 128 = 0x82 ∧ v % 64 + 128 = 0xAC ↔ v % 0x1000 = 0xAC := by omega
  simp only [heuro]
  exact Prod.ext rfl (List.append_nil _)

theorem utf8ascii_four (h : Settled lastChar) :
    utf8ascii lastChar [UInt8.ofNat (v / 262144 % 8 + 240), UInt8.ofNat (v / 4096 % 64 + 128),
        UInt8.ofNat (v / 64 % 64 + 128), UInt8.ofNat (v % 64 + 128)] =
      (UInt8.ofNat (v % 64 + 128),
        if v % 0x1000 = 0xAC ∨ v / 0x40 % 0x1000 = 0xAC then [0x80] else []) := by
  rw [utf8ascii_cons, utf8asciiByte_lead h (by omega), utf8ascii_cons,
    utf8asciiByte_second (by omega) (by omega), utf8ascii_cons,
    utf8asciiByte_rest (by omega) (by omega), utf8ascii_cons,
    utf8asciiByte_rest (by omega) (by omega), kept_euro, kept_euro]
  have hfirst : v / 4096 % 64 + 128 = 0x82 ∧ v / 64 % 64 + 128 = 0xAC ↔
      v / 0x40 % 0x1000 = 0xAC := by omega
  have hsecond : v / 64 % 64 + 128 = 0x82 ∧ v % 64 + 128 = 0xAC ↔ v % 0x1000 = 0xAC := by omega
  simp only [hfirst, hsecond]
  refine Prod.ext rfl ?_
  -- the third byte does not both end one Euro sign and begin another
  by_cases hthird : v / 0x40 % 0x1000 = 0xAC
  · rw [if_pos hthird, if_neg (show ¬ v % 0x1000 = 0xAC by omega), if_pos (Or.inr hthird)]
    rfl
  · simp only [hthird, or_false, if_false]
    exact List.append_nil _

theorem utf8ascii_char (h : Settled lastChar) {c : Char} (hc : c ≠ Char.ofNat 0) :
    (utf8ascii lastChar (String.utf8EncodeChar c)).2 = latin c ∧
      Settled (utf8ascii lastChar (String.utf8EncodeChar c)).1 := by
  have hpos : c.toNat ≠ 0 := fun h0 => hc (Char.toNat_inj.mp h0)
  have henc : String.utf8EncodeChar c =
      if c.toNat ≤ 127 then [UInt8.ofNat c.toNat]
      else if c.toNat ≤ 2047 then
        [UInt8.ofNat (c.toNat / 64 % 32 + 192), UInt8.ofNat (c.toNat % 64 + 128)]
      else if c.toNat ≤ 65535 then
        [UInt8.ofNat (c.toNat / 4096 % 16 + 224), UInt8.ofNat (c.toNat / 64 % 64 + 128),
          UInt8.ofNat (c.toNat % 64 + 128)]
      else
        [UInt8.ofNat (c.toNat / 262144 % 8 + 240), UInt8.ofNat (c.toNat / 4096 % 64 + 128),
          UInt8.ofNat (c.toNat / 64 % 64 + 128), UInt8.ofNat (c.toNat % 64 + 128)] := rfl
  have hsettled := settled_rest c.toNat
  rw [henc]
  unfold latin
  generalize c.toNat = v at *
  by_cases h1 : v ≤ 127
  · rw [if_pos h1, utf8ascii_one (by omega), if_pos (by omega)]
    exact ⟨rfl, show Settled 0 from ⟨by decide, by decide⟩⟩
  by_cases h2 : v ≤ 2047
  · rw [if_neg h1, if_pos h2, utf8ascii_two h (by omega)]
    refine ⟨if_congr Iff.rfl rfl ?_, hsettled⟩
    rw [if_neg (by omega)]
  by_cases h3 : v ≤ 65535
  · rw [if_neg h1, if_neg h2, if_pos h3, utf8ascii_three h, if_neg (show ¬ v < 0x100 by omega)]
    exact ⟨if_congr (by omega) rfl rfl, hsettled⟩
  · rw [if_neg h1, if_neg h2, if_neg h3, utf8ascii_four h, if_neg (show ¬ v < 0x100 by omega)]
    exact ⟨if_congr (by omega) rfl rfl, hsettled⟩

end Characters

/-- The characters of a text are drawn one by one, as long as the text before did not end in the
middle of a character. -/
theorem utf8ascii_text {lastChar : UInt8} (h : Settled lastChar) {text : List Char}
    (htext : Char.ofNat 0 ∉ text) :
    (utf8ascii lastChar (text.flatMap String.utf8EncodeChar)).2 = text.flatMap latin ∧
      Settled (utf8ascii lastChar (text.flatMap String.utf8EncodeChar)).1 := by
  induction text generalizing lastChar with
  | nil => exact ⟨rfl, h⟩
  | cons c text ih =>
    rw [List.mem_cons, not_or] at htext
    obtain ⟨hchar, hsettled⟩ := utf8ascii_char h (Ne.symm htext.1)
    obtain ⟨hrest, hsettled'⟩ := ih hsettled htext.2
    rw [List.flatMap_cons, List.flatMap_cons, utf8ascii_append, hchar, hrest]
    exact ⟨rfl, hsettled'⟩

/-- One text after the other. -/
def utf8asciis : UInt8 → List (List UInt8) → List (List UInt8)
  | _, [] => []
  | lastChar, text :: texts =>
    (utf8ascii lastChar text).2 :: utf8asciis (utf8ascii lastChar text).1 texts

/-- From power-up on every text is drawn character by character, whatever came before it. Texts are
shorter than 65535 bytes, which the length is counted in. -/
theorem utf8asciis_encode (texts : List (List Char))
    (htexts : ∀ text ∈ texts, Char.ofNat 0 ∉ text) :
    utf8asciis 0 (texts.map fun text => text.flatMap String.utf8EncodeChar) =
      texts.map fun text => text.flatMap latin := by
  have hall (texts : List (List Char)) (htexts : ∀ text ∈ texts, Char.ofNat 0 ∉ text)
      (lastChar : UInt8) (h : Settled lastChar) :
      utf8asciis lastChar (texts.map fun text => text.flatMap String.utf8EncodeChar) =
        texts.map fun text => text.flatMap latin := by
    induction texts generalizing lastChar with
    | nil => rfl
    | cons text texts ih =>
      obtain ⟨htext, hsettled⟩ := utf8ascii_text h (htexts text List.mem_cons_self)
      rw [List.map_cons, List.map_cons, utf8asciis, htext,
        ih (fun t ht => htexts t (List.mem_cons_of_mem _ ht)) _ hsettled]
  exact hall texts htexts 0 ⟨by decide, by decide⟩

theorem utf8asciis_encode_degrees :
    utf8asciis 0 [[0x37, 0x30, 0xC2, 0xB0], [0x35, 0xE2, 0x82, 0xAC]] =
      [[0x37, 0x30, 0xB0], [0x35, 0x80]] :=
  utf8asciis_encode [['7', '0', '°'], ['5', '€']] (by decide)

end Wyostat.Oled
