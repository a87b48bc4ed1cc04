import Wyostat.AdafruitIo.Csv
import Wyostat.Lib.Decimal
import Mathlib.Data.List.TakeWhile

/-! A value with its location, as Adafruit IO sends it in a line and reads it back. -/
namespace Wyostat.AdafruitIo

/-- The bytes of a text of ASCII. -/
def bytes (text : List Char) : List UInt8 := text.map fun c => UInt8.ofNat c.toNat

def chars (text : List UInt8) : List Char := text.map fun b => Char.ofNat b.toNat

section Texts
variable {n : ℤ}

theorem toNat_of_mem_itoa {c : Char} (h : c ∈ Decimal.itoa n) : 45 ≤ c.toNat ∧ c.toNat ≤ 57 := by
  rcases Decimal.mem_itoa h with rfl | hdigit
  · decide
  · simp only [Char.isDigit, Bool.and_eq_true, decide_eq_true_eq] at hdigit
    have hlo : 48 ≤ c.toNat := hdigit.1
    have hhi : c.toNat ≤ 57 := hdigit.2
    omega

theorem toNat_of_mem_bytes {text : List Char} (h : ∀ c ∈ text, 45 ≤ c.toNat ∧ c.toNat ≤ 57)
    {b : UInt8} (hb : b ∈ bytes text) : 45 ≤ b.toNat := by
  obtain ⟨c, hc, rfl⟩ := List.mem_map.mp hb
  obtain ⟨hlo, hhi⟩ := h c hc
  rw [UInt8.toNat_ofNat_of_lt' (show c.toNat < 256 by omega)]
  exact hlo

theorem chars_bytes_itoa (n : ℤ) : chars (bytes (Decimal.itoa n)) = Decimal.itoa n := by
  rw [chars, bytes, List.map_map]
  refine (List.map_congr_left fun c hc => ?_).trans (List.map_id _)
  have hhi := (toNat_of_mem_itoa hc).2
  rw [Function.comp_apply, UInt8.toNat_ofNat_of_lt' (show c.toNat < 256 by omega), Char.ofNat_toNat]
  rfl

end Texts

/-- How coordinates are printed (`%f`) and read (`atof`). -/
structure Coordinates (α : Type*) where
  text : α → List UInt8
  atof : List UInt8 → α

/-- `AdafruitIO_Data`: the value and its location. -/
structure Data (α : Type*) where
  value : List UInt8
  lat : α
  lon : α
  ele : α
  deriving DecidableEq, Repr

variable {α : Type*} (co : Coordinates α)

/-- `toCSV` -/
def Data.toCSV (d : Data α) : List UInt8 :=
  [quote] ++ d.value ++ [quote, comma] ++ co.text d.lat ++ [comma] ++ co.text d.lon ++ [comma] ++
    co.text d.ele

/-- `_parseCSV`: as many coordinates are set as there are fields for them, each of them from the
second field. -/
def Data.parse (d : Data α) (csv : List UInt8) : Data α × Bool :=
  match parseCsv csv with
  | none => (d, false)
  | some fields =>
    let count := fields.length - 1
    let d := { d with value := fields.headD [] }
    let d := if 0 < count then { d with lat := co.atof (fields.getD 1 []) } else d
    let count := count - 1
    let d := if 0 < count then { d with lon := co.atof (fields.getD 1 []) } else d
    let count := count - 1
    let d := if 0 < count then { d with ele := co.atof (fields.getD 1 []) } else d
    (d, decide (count - 1 = 0))

/-- `setCSV` copies up to the NUL. -/
def Data.setCSV (d : Data α) (csv : List UInt8) : Data α × Bool :=
  d.parse co (csv.takeWhile (· ≠ 0))

section Tokens

theorem tokens_plain {xs : List UInt8} (hquote : quote ∉ xs) (hcomma : comma ∉ xs)
    (rest : List UInt8) :
    tokens false (xs ++ rest) = (tokens false rest).map (xs.map .byte ++ ·) := by
  induction xs with
  | nil => simp
  | cons x xs ih =>
    rw [List.mem_cons, not_or] at hquote hcomma
    rw [List.cons_append, tokens, if_neg (Ne.symm hquote.1), if_neg (Ne.symm hcomma.1),
      ih hquote.2 hcomma.2, Option.map_map]
    rfl

theorem tokens_quoted {xs : List UInt8} (hquote : quote ∉ xs) {d : UInt8} (hd : d ≠ quote)
    (rest : List UInt8) :
    tokens true (xs ++ quote :: d :: rest) =
      (tokens false (d :: rest)).map (xs.map .byte ++ ·) := by
  induction xs with
  | nil => simp [tokens, hd]
  | cons x xs ih =>
    rw [List.mem_cons, not_or] at hquote
    obtain ⟨y, ys, hys⟩ : ∃ y ys, xs ++ quote :: d :: rest = y :: ys := by
      cases xs <;> simp
    rw [List.cons_append, hys, tokens, if_neg (Ne.symm hquote.1), ← hys, ih hquote.2,
      Option.map_map]
    rfl

theorem fieldsOf_bytes (tmp xs : List UInt8) (ts : List Token) :
    fieldsOf tmp (xs.map .byte ++ ts) = fieldsOf (tmp ++ xs) ts := by
  induction xs generalizing tmp with
  | nil => simp
  | cons x xs ih =>
    rw [List.map_cons, List.cons_append, fieldsOf, ih, List.append_assoc, List.singleton_append]

theorem fieldsOf_map (tmp xs : List UInt8) : fieldsOf tmp (xs.map .byte) = [tmp ++ xs] := by
  have h := fieldsOf_bytes tmp xs []
  rwa [List.append_nil] at h

end Tokens

/-- Coordinates are printed without quotes, commas and NUL. -/
def Coordinates.Plain : Prop := ∀ x, quote ∉ co.text x ∧ comma ∉ co.text x ∧ 0 ∉ co.text x

variable {co} (d d' : Data α)

theorem parseCsv_toCSV (hco : co.Plain) (hvalue : quote ∉ d.value) :
    parseCsv (d.toCSV co) = some [d.value, co.text d.lat, co.text d.lon, co.text d.ele] := by
  have hline : d.toCSV co = quote :: (d.value ++ quote :: comma :: (co.text d.lat ++ comma ::
      (co.text d.lon ++ comma :: (co.text d.ele ++ [])))) := by
    simp [Data.toCSV]
  have hcomma : comma ≠ quote := by decide
  rw [parseCsv_eq, hline, tokens, if_pos rfl, tokens_quoted hvalue hcomma, tokens, if_neg hcomma,
    if_pos rfl, tokens_plain (hco _).1 (hco _).2.1, tokens, if_neg hcomma, if_pos rfl,
    tokens_plain (hco _).1 (hco _).2.1, tokens, if_neg hcomma, if_pos rfl,
    tokens_plain (hco _).1 (hco _).2.1, tokens]
  simp [fieldsOf_bytes, fieldsOf_map, fieldsOf]

theorem toCSV_noNul (hco : co.Plain) (hnul : 0 ∉ d.value) :
    (d.toCSV co).takeWhile (· ≠ 0) = d.toCSV co := by
  have hmem : 0 ∉ d.toCSV co := by
    simp [Data.toCSV, quote, comma, hnul, (hco _).2.2]
  rw [List.takeWhile_eq_self_iff]
  intro c hc
  have hne : c ≠ 0 := fun h => hmem (h ▸ hc)
  simpa using hne

theorem setCSV_toCSV (hco : co.Plain) (hvalue : quote ∉ d.value) (hnul : 0 ∉ d.value) :
    d'.setCSV co (d.toCSV co) =
      (⟨d.value, co.atof (co.text d.lat), co.atof (co.text d.lat),
        co.atof (co.text d.lat)⟩, true) := by
  have hall : (d.toCSV co).takeWhile (· ≠ 0) = d.toCSV co := toCSV_noNul d hco hnul
  rw [Data.setCSV, hall, Data.parse, parseCsv_toCSV d hco hvalue]
  rfl

/-- Whole degrees, printed as `%f` prints them into 18 characters. -/
def wholeDegrees : Coordinates ℤ :=
  ⟨fun n => (bytes (Decimal.itoa n ++ '.' :: List.replicate 6 '0')).take 18,
    fun text => Decimal.atol (chars text)⟩

theorem wholeDegrees_plain : wholeDegrees.Plain := by
  intro n
  have htext (c : Char) (hc : c ∈ Decimal.itoa n ++ '.' :: List.replicate 6 '0') :
      45 ≤ c.toNat ∧ c.toNat ≤ 57 := by
    rcases List.mem_append.mp hc with hdigit | hrest
    · exact toNat_of_mem_itoa hdigit
    · rcases List.mem_cons.mp hrest with rfl | hzero
      · decide
      · rw [List.eq_of_mem_replicate hzero]
        decide
  have hall (b : UInt8) (hb : b ∈ wholeDegrees.text n) : 45 ≤ b.toNat :=
    toNat_of_mem_bytes htext (List.mem_of_mem_take hb)
  refine ⟨fun h => ?_, fun h => ?_, fun h => ?_⟩ <;> exact absurd (hall _ h) (by decide)

end Wyostat.AdafruitIo
