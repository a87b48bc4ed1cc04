import Mathlib.Data.List.Count
import Mathlib.Algebra.Order.BigOperators.Group.List
import Mathlib.Algebra.Order.Group.Nat
import Mathlib.Data.UInt

/-! The lines of comma-separated fields in which Adafruit IO carries a value and its location: one
pass counts the fields, a second one takes them apart. A text is its bytes before the NUL. -/
namespace Wyostat.AdafruitIo

def quote : UInt8 := 0x22
def comma : UInt8 := 0x2c

/-- The loop of `count_fields`, within quotes or not; -1 is `none`. -/
def countFrom : Bool → ℕ → List UInt8 → Option ℕ
  | true, _, [] => none
  | true, cnt, [c] => if c = quote then some cnt else none
  | true, cnt, c :: d :: rest =>
    if c = quote then
      if d = quote then countFrom true cnt rest else countFrom false cnt (d :: rest)
    else countFrom true cnt (d :: rest)
  | false, cnt, [] => some cnt
  | false, cnt, c :: rest =>
    if c = quote then countFrom true cnt rest
    else if c = comma then countFrom false (cnt + 1) rest
    else countFrom false cnt rest

def countFields (line : List UInt8) : Option ℕ := countFrom false 1 line

/-- The loop of `parse_csv`: `tmp` holds what there is of the field so far, `buf` the fields before
it. -/
def parseFrom : Bool → List UInt8 → List (List UInt8) → List UInt8 → List (List UInt8)
  | true, _, buf, [] => buf
  | true, tmp, buf, [c] => if c = quote then buf ++ [tmp] else buf
  | true, tmp, buf, c :: d :: rest =>
    if c = quote then
      if d = quote then parseFrom true (tmp ++ [quote]) buf rest
      else parseFrom false tmp buf (d :: rest)
    else parseFrom true (tmp ++ [c]) buf (d :: rest)
  | false, tmp, buf, [] => buf ++ [tmp]
  | false, tmp, buf, c :: rest =>
    if c = quote then parseFrom true tmp buf rest
    else if c = comma then parseFrom false [] (buf ++ [tmp]) rest
    else parseFrom false (tmp ++ [c]) buf rest

/-- The fields of a line, if its quotes are balanced. -/
def parseCsv (line : List UInt8) : Option (List (List UInt8)) :=
  match countFields line with
  | none => none
  | some _ => some (parseFrom false [] [] line)

/-- What a line says: bytes of fields, and the ends of fields between them. -/
inductive Token where
  | byte (c : UInt8)
  | next
  deriving DecidableEq, Repr

def tokens : Bool → List UInt8 → Option (List Token)
  | true, [] => none
  | true, [c] => if c = quote then some [] else none
  | true, c :: d :: rest =>
    if c = quote then
      if d = quote then (tokens true rest).map (.byte quote :: ·) else tokens false (d :: rest)
    else (tokens true (d :: rest)).map (.byte c :: ·)
  | false, [] => some []
  | false, c :: rest =>
    if c = quote then tokens true rest
    else if c = comma then (tokens false rest).map (.next :: ·)
    else (tokens false rest).map (.byte c :: ·)

def fieldsOf (tmp : List UInt8) : List Token → List (List UInt8)
  | [] => [tmp]
  | .byte c :: ts => fieldsOf (tmp ++ [c]) ts
  | .next :: ts => tmp :: fieldsOf [] ts

section Passes

theorem countFrom_eq (quoted : Bool) (cnt : ℕ) (line : List UInt8) :
    countFrom quoted cnt line = (tokens quoted line).map fun ts => cnt + ts.count .next := by
  fun_induction tokens quoted line generalizing cnt with
  | case1 => rfl
  | case2 => simp [countFrom]
  | case3 c hc => simp [countFrom, hc]
  | case4 rest ih =>
    rw [countFrom, if_pos rfl, if_pos rfl, ih]
    simp [Function.comp_def]
  | case5 d rest hd ih => rw [countFrom, if_pos rfl, if_neg hd, ih]
  | case6 c d rest hc ih =>
    rw [countFrom, if_neg hc, ih]
    simp [Function.comp_def]
  | case7 => rfl
  | case8 rest ih => rw [countFrom, if_pos rfl, ih]
  | case9 rest hq ih =>
    rw [countFrom, if_neg hq, if_pos rfl, ih]
    simp only [Option.map_map, Function.comp_def, List.count_cons_self]
    exact congrArg (Option.map · _) (funext fun ts => by omega)
  | case10 c rest hq hc ih =>
    rw [countFrom, if_neg hq, if_neg hc, ih]
    simp [Function.comp_def]

theorem parseFrom_eq {quoted : Bool} {line : List UInt8} {ts : List Token}
    (h : tokens quoted line = some ts) (tmp : List UInt8) (buf : List (List UInt8)) :
    parseFrom quoted tmp buf line = buf ++ fieldsOf tmp ts := by
  fun_induction tokens quoted line generalizing ts tmp buf with
  | case1 => cases h
  | case2 =>
    cases h
    simp [parseFrom, fieldsOf]
  | case3 c hc => cases h
  | case4 rest ih =>
    obtain ⟨us, hus, rfl⟩ := Option.map_eq_some_iff.mp h
    rw [parseFrom, if_pos rfl, if_pos rfl, ih hus, fieldsOf]
  | case5 d rest hd ih => rw [parseFrom, if_pos rfl, if_neg hd, ih h]
  | case6 c d rest hc ih =>
    obtain ⟨us, hus, rfl⟩ := Option.map_eq_some_iff.mp h
    rw [parseFrom, if_neg hc, ih hus, fieldsOf]
  | case7 =>
    cases h
    rfl
  | case8 rest ih => rw [parseFrom, if_pos rfl, ih h]
  | case9 rest hq ih =>
    obtain ⟨us, hus, rfl⟩ := Option.map_eq_some_iff.mp h
    rw [parseFrom, if_neg hq, if_pos rfl, ih hus, fieldsOf, List.append_assoc,
      List.singleton_append]
  | case10 c rest hq hc ih =>
    obtain ⟨us, hus, rfl⟩ := Option.map_eq_some_iff.mp h
    rw [parseFrom, if_neg hq, if_neg hc, ih hus, fieldsOf]

theorem parseCsv_eq (line : List UInt8) :
    parseCsv line = (tokens false line).map (fieldsOf []) := by
  unfold parseCsv countFields
  rw [countFrom_eq]
  rcases hts : tokens false line with _ | ts
  · rfl
  · exact congrArg some (parseFrom_eq hts [] [])

theorem tokens_length_le {quoted : Bool} {line : List UInt8} {ts : List Token}
    (h : tokens quoted line = some ts) : ts.length ≤ line.length := by
  fun_induction tokens quoted line generalizing ts with
  | case1 => cases h
  | case2 =>
    cases h
    exact Nat.zero_le _
  | case3 c hc => cases h
  | case4 rest ih =>
    obtain ⟨us, hus, rfl⟩ := Option.map_eq_some_iff.mp h
    have hrest := ih hus
    simp only [List.length_cons]
    omega
  | case5 d rest hd ih => exact (ih h).trans (Nat.le_succ _)
  | case6 c d rest hc ih | case9 rest hq ih | case10 c rest hq hc ih =>
    obtain ⟨us, hus, rfl⟩ := Option.map_eq_some_iff.mp h
    exact Nat.succ_le_succ (ih hus)
  | case7 =>
    cases h
    exact le_rfl
  | case8 rest ih => exact (ih h).trans (Nat.le_succ _)

theorem fieldsOf_lengths (tmp : List UInt8) (ts : List Token) :
    (fieldsOf tmp ts).length = 1 + ts.count .next ∧
      ((fieldsOf tmp ts).map List.length).sum + ts.count .next = tmp.length + ts.length := by
  induction ts generalizing tmp with
  | nil => simp [fieldsOf]
  | cons t ts ih =>
    cases t with
    | byte c =>
      obtain ⟨hcount, hsum⟩ := ih (tmp ++ [c])
      simp only [fieldsOf, List.count_cons_of_ne (show Token.byte c ≠ .next by simp),
        List.length_cons, List.length_append, List.length_nil] at *
      omega
    | next =>
      obtain ⟨hcount, hsum⟩ := ih []
      simp only [fieldsOf, List.count_cons_self, List.length_cons, List.map_cons, List.sum_cons,
        List.length_nil] at *
      omega

/-- The arrays that are sized by the first pass hold what the second one writes: as many fields as
were counted, none longer than the line, and all of them together not either. -/
theorem parseCsv_fits {line : List UInt8} {fields : List (List UInt8)}
    (h : parseCsv line = some fields) :
    countFields line = some fields.length ∧ (∀ field ∈ fields, field.length ≤ line.length) ∧
      (fields.map List.length).sum + fields.length ≤ line.length + 1 := by
  rw [parseCsv_eq] at h
  obtain ⟨ts, hts, rfl⟩ := Option.map_eq_some_iff.mp h
  obtain ⟨hcount, hsum⟩ := fieldsOf_lengths [] ts
  have hlength := tokens_length_le hts
  rw [List.length_nil] at hsum
  refine ⟨?_, ?_, by omega⟩
  · rw [countFields, countFrom_eq, hts, hcount]
    rfl
  · intro field hfield
    have hle := List.le_sum_of_mem (List.mem_map_of_mem hfield (f := List.length))
    omega

/-- `"6""8",0` has the fields `6"8` and `0`. -/
theorem parseCsv_fits_quoted :
    countFields [0x22, 0x36, 0x22, 0x22, 0x38, 0x22, 0x2c, 0x30] = some 2 ∧
      (∀ field ∈ [[0x36, 0x22, 0x38], [(0x30 : UInt8)]], field.length ≤ 8) ∧
      ([[0x36, 0x22, 0x38], [(0x30 : UInt8)]].map List.length).sum + 2 ≤ 8 + 1 :=
  parseCsv_fits (show parseCsv [0x22, 0x36, 0x22, 0x22, 0x38, 0x22, 0x2c, 0x30] =
    some [[0x36, 0x22, 0x38], [0x30]] by decide)

end Passes

end Wyostat.AdafruitIo
