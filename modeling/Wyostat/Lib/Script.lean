import Wyostat.Lib.Decimal
import Mathlib.Algebra.Order.Floor.Ring
import Mathlib.Data.List.DropRight
import Mathlib.Data.Rat.Floor

/-! Numbers and values of a scripting language, and its conversions between them. Numbers are
exact: only the infinities and NaN are kept of the floating-point format. -/
namespace Script

inductive Number where
  | nan
  | negInfinity
  | infinity
  | num (q : ℚ)
  deriving DecidableEq, Repr

namespace Number

/-- `<` is false of NaN. -/
def lt : Number → Number → Bool
  | nan, _ | _, nan | _, negInfinity | infinity, _ => false
  | negInfinity, _ | _, infinity => true
  | num a, num b => a < b

/-- `!=` is true of NaN and itself. -/
def differs (x y : Number) : Bool := x = nan || x ≠ y

/-- `+` with a finite number. -/
def add : Number → ℚ → Number
  | num a, q => num (a + q)
  | x, _ => x

def neg : Number → Number
  | nan => nan
  | negInfinity => infinity
  | infinity => negInfinity
  | num q => num (-q)

/-- `Math.round`: to the nearest integer, and up from the middle between two. -/
def round : Number → Number
  | num q => num ⌊q + 1 / 2⌋
  | x => x

/-- What a condition takes for true. -/
def truthy (x : Number) : Bool := x ≠ nan && x ≠ num 0

theorem differs_num_iff (x : Number) (q : ℚ) : x.differs (num q) = true ↔ x ≠ num q := by
  cases x <;> simp [differs]

end Number

/-- Blanks and line ends. -/
def isSpace (c : Char) : Bool :=
  Decimal.isSpace c || c.toNat ∈ [160, 5760, 8232, 8233, 8239, 8287, 12288, 65279] ||
    (8192 ≤ c.toNat && c.toNat ≤ 8202)

def trim (text : List Char) : List Char := (text.dropWhile isSpace).rdropWhile isSpace

/-- The exponent of a decimal: an `e`, at most one sign, and digits; without an `e` it is zero. -/
def exponent : List Char → Option ℤ
  | [] => some 0
  | c :: cs =>
    if c = 'e' ∨ c = 'E' then
      let sign := cs.take 1
      let digits := if sign = ['-'] ∨ sign = ['+'] then cs.drop 1 else cs
      if digits ≠ [] ∧ digits.all Char.isDigit then
        some (if sign = ['-'] then -Decimal.digitsValue digits else Decimal.digitsValue digits)
      else none
    else none

/-- The digits behind a decimal point, if there is one, and what follows them. -/
def fraction : List Char → List Char × List Char
  | '.' :: cs => cs.span Char.isDigit
  | cs => ([], cs)

/-- A decimal without a sign. -/
def unsignedDecimal (text : List Char) : Number :=
  if text = ['I', 'n', 'f', 'i', 'n', 'i', 't', 'y'] then .infinity
  else
    let whole := text.takeWhile Char.isDigit
    let (frac, rest) := fraction (text.dropWhile Char.isDigit)
    match exponent rest with
    | some e =>
      if whole ++ frac = [] then .nan
      else .num (Decimal.digitsValue (whole ++ frac) * 10 ^ (e - frac.length))
    | none => .nan

/-- The value of a digit in a base of at most 16. -/
def digit? (base : ℕ) (c : Char) : Option ℕ :=
  let d :=
    if c.isDigit then c.toNat - '0'.toNat
    else if 'a' ≤ c ∧ c ≤ 'f' then c.toNat - 'a'.toNat + 10
    else if 'A' ≤ c ∧ c ≤ 'F' then c.toNat - 'A'.toNat + 10
    else base
  if d < base then some d else none

def radixNumber (base : ℕ) (digits : List Char) : Number :=
  match digits.mapM (digit? base) with
  | some (d :: ds) => .num ((d :: ds).foldl (fun n d => base * n + d) 0 : ℕ)
  | _ => .nan

/-- The base that a letter behind a leading zero stands for. -/
def radix? (c : Char) : Option ℕ :=
  if c = 'x' ∨ c = 'X' then some 16
  else if c = 'o' ∨ c = 'O' then some 8
  else if c = 'b' ∨ c = 'B' then some 2
  else none

/-- The number that a text denotes; the empty text denotes zero. -/
def stringToNumber (text : List Char) : Number :=
  match trim text with
  | [] => .num 0
  | '-' :: rest => (unsignedDecimal rest).neg
  | '+' :: rest => unsignedDecimal rest
  | '0' :: c :: rest =>
    match radix? c with
    | some base => radixNumber base rest
    | none => unsignedDecimal ('0' :: c :: rest)
  | rest => unsignedDecimal rest

/-- Of an object, only the text it is converted to matters. -/
inductive Value where
  | undefined
  | null
  | boolean (b : Bool)
  | number (x : Number)
  | string (text : List Char)
  | object (text : List Char)
  deriving DecidableEq, Repr

namespace Value

/-- Unary `+`. -/
def toNumber : Value → Number
  | undefined => .nan
  | null => .num 0
  | boolean b => .num (if b then 1 else 0)
  | number x => x
  | string text | object text => stringToNumber text

/-- `!!`. -/
def toBoolean : Value → Bool
  | undefined | null => false
  | boolean b => b
  | number x => x.truthy
  | string text => text ≠ []
  | object _ => true

end Value

end Script
