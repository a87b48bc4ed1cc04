import Wyostat.Lib.Decimal
import Wyostat.Lib.Output
import Wyostat.Lib.Reading
import Mathlib.Algebra.Order.Field.Rat
import Mathlib.Algebra.Order.Group.Abs

/-! What the sketches share: relay outputs, the visible effects of a device, MQTT
messages, EEPROM cells, and the C conversions between floats, integers and text. -/
namespace Wyostat

/-- The three relay outputs; a write of HIGH closes the relay. -/
inductive Pin where
  | furnaceSCR | fanSCR | acSCR
  deriving DecidableEq, Repr

inductive Icon where
  | fire | flake | leaf
  deriving DecidableEq, Repr

inductive Draw where
  | clear
  | fillBlack (x y width height : ℕ)
  | drawXbm (x y : ℕ) (icon : Icon)
  | drawString (x y : ℕ) (text : List Char)
  deriving DecidableEq, Repr

inductive Feed where
  | livingroomtemp | setTempLo | setTempHi | furnaceState | acState
  deriving DecidableEq, Repr

/-- Visible effects. A relay write carries the moment at which it was made; a publish is
recorded when the broker receives it. -/
inductive Event where
  | digitalWrite (pin : Pin) (level : Bool) (tick : ℕ)
  | publish (topic : String) (payload : List Char)
  | save (feed : Feed) (value : ℤ)
  | draw (d : Draw)
  deriving DecidableEq, Repr

/-- The payload bytes are the characters of the text, without a terminator. -/
structure Msg where
  topic : String
  payload : List Char
  deriving DecidableEq, Repr

def Event.write? : Event → Option (Output.Write Pin)
  | .digitalWrite pin level tick => some ⟨pin, level, tick⟩
  | _ => none

def Event.msg? : Event → Option Msg
  | .publish topic payload => some ⟨topic, payload⟩
  | _ => none

def Event.draw? : Event → Option Draw
  | .draw d => some d
  | _ => none

/-- The relay writes of a log; like the log, newest first. -/
def writes (log : List Event) : List (Output.Write Pin) := log.filterMap Event.write?

/-- The messages of a log in the order in which the broker received them. -/
def published (log : List Event) : List Msg := (log.filterMap Event.msg?).reverse

/-- What a log has drawn, newest first. -/
def drawings (log : List Event) : List Draw := log.filterMap Event.draw?

/-- The last message the broker received on a topic. -/
def lastOn (topic : String) : List Event → Option (List Char)
  | [] => none
  | .publish t payload :: log => if t = topic then some payload else lastOn topic log
  | .digitalWrite .. :: log | .save .. :: log | .draw _ :: log => lastOn topic log

section Logs
variable (log : List Event)

@[simp] theorem writes_nil : writes [] = [] := rfl

@[simp] theorem writes_digitalWrite (pin : Pin) (level : Bool) (tick : ℕ) :
    writes (.digitalWrite pin level tick :: log) = ⟨pin, level, tick⟩ :: writes log := rfl

@[simp] theorem writes_publish (topic : String) (payload : List Char) :
    writes (.publish topic payload :: log) = writes log := rfl

@[simp] theorem writes_save (feed : Feed) (value : ℤ) :
    writes (.save feed value :: log) = writes log := rfl

@[simp] theorem writes_draw (d : Draw) : writes (.draw d :: log) = writes log := rfl

@[simp] theorem published_publish (topic : String) (payload : List Char) :
    published (.publish topic payload :: log) = published log ++ [⟨topic, payload⟩] := by
  simp [published, Event.msg?]

@[simp] theorem published_digitalWrite (pin : Pin) (level : Bool) (tick : ℕ) :
    published (.digitalWrite pin level tick :: log) = published log := rfl

@[simp] theorem published_draw (d : Draw) : published (.draw d :: log) = published log := rfl

@[simp] theorem drawings_draw (d : Draw) : drawings (.draw d :: log) = d :: drawings log := rfl

@[simp] theorem drawings_publish (topic : String) (payload : List Char) :
    drawings (.publish topic payload :: log) = drawings log := rfl

@[simp] theorem lastOn_digitalWrite (topic : String) (pin : Pin) (level : Bool) (tick : ℕ) :
    lastOn topic (.digitalWrite pin level tick :: log) = lastOn topic log := rfl

@[simp] theorem lastOn_draw (topic : String) (d : Draw) :
    lastOn topic (.draw d :: log) = lastOn topic log := rfl

theorem lastOn_publish (topic t : String) (payload : List Char) :
    lastOn topic (.publish t payload :: log) =
      if t = topic then some payload else lastOn topic log := rfl

end Logs

/-- A cell of the EEPROM reads 255 until it is first written. -/
abbrev Eeprom := ℕ → UInt8

def Eeprom.erased : Eeprom := fun _ => 255

/-- `EEPROM.write` of an `int`, narrowed to the cell's byte, with the commit that follows it. -/
def Eeprom.write (e : Eeprom) (addr : ℕ) (value : ℤ) : Eeprom :=
  Function.update e addr (UInt8.ofInt value)

theorem toNat_ofInt_of_mem {n : ℤ} (hlo : 0 ≤ n) (hhi : n < 256) :
    ((UInt8.ofInt n).toNat : ℤ) = n := by
  simp only [UInt8.ofInt, UInt8.toNat_ofNat']
  omega

/-- The terminator of a C string. -/
def nul : Char := Char.ofNat 0

/-- The text of a C string whose array holds these characters. -/
def cString (chars : List Char) : List Char := chars.takeWhile (· ≠ nul)

section CStrings
variable {chars : List Char}

theorem cString_eq_self (h : nul ∉ chars) : cString chars = chars := by
  rw [cString, List.takeWhile_eq_self_iff]
  intro c hc
  simpa using ne_of_mem_of_not_mem hc h

theorem nul_notMem_cString (chars : List Char) : nul ∉ cString chars :=
  fun h => by simpa using List.mem_takeWhile_imp h

theorem cString_append_of_nul (h : nul ∈ chars) (tail : List Char) :
    cString (chars ++ tail) = cString chars := by
  have hshort : (chars.takeWhile (· ≠ nul)).length ≠ chars.length := by
    intro hlength
    have hself := (List.takeWhile_prefix (· ≠ nul)).eq_of_length hlength
    exact nul_notMem_cString chars (by rwa [cString, hself])
  rw [cString, List.takeWhile_append, if_neg hshort, cString]

end CStrings

/-- `(int)x`: numbers are truncated towards zero. C++ leaves the conversion of NaN open,
so what it gives is a parameter. -/
def truncate (intOfNan : ℤ) : Reading ℚ → ℤ
  | .nan => intOfNan
  | .num q => q.num.tdiv q.den

/-- `String(float)`: two decimals, rounded half up in magnitude. -/
def floatText : Reading ℚ → List Char
  | .nan => ['n', 'a', 'n']
  | .num q =>
    let hundredths := ((|q| + 1 / 200) * 100).floor.toNat
    (if q < 0 then ['-'] else []) ++ Nat.toDigits 10 (hundredths / 100) ++ ['.'] ++
      Nat.toDigits 10 (hundredths % 100 / 10) ++ Nat.toDigits 10 (hundredths % 10)

/-- The listeners' integer argument: `toInt()` of the C string into which the payload is copied. -/
def bytes2int (payload : List Char) : ℤ := Decimal.atol (cString payload)

/-- Nothing is lost by the copy: a NUL ends a number. -/
theorem bytes2int_eq (payload : List Char) : bytes2int payload = Decimal.atol payload := by
  refine Decimal.atol_takeWhile (fun c hc => ?_) payload
  have hne : c ≠ nul := by
    rintro rfl
    exact absurd hc (by decide)
  simpa using hne

/-- Only a first byte `t` means true. -/
def bytes2bool (payload : List Char) : Bool := payload.head? = some 't'

def boolText (b : Bool) : List Char :=
  if b then ['t', 'r', 'u', 'e'] else ['f', 'a', 'l', 's', 'e']

@[simp] theorem bytes2bool_boolText (b : Bool) : bytes2bool (boolText b) = b := by
  cases b <;> rfl

theorem bytes2int_itoa {n : ℤ} (hlo : -2 ^ 31 ≤ n) (hhi : n < 2 ^ 31) :
    bytes2int (Decimal.itoa n) = n := by
  rw [bytes2int_eq, Decimal.atol_itoa hlo hhi]

end Wyostat
