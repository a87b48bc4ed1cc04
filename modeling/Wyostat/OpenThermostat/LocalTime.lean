import Wyostat.OpenThermostat.TimeZone

/-! The time that the look-up sets, against the fields of the answer that it is read from. -/
namespace Wyostat.OpenThermostat
open WString Delimited

/-- The text has a member with this name and value, with JSON's whitespace around the colon. -/
def Holds (body name value : List Char) : Prop :=
  ∃ ws ws' : List Char, (∀ c ∈ ws ++ ws', c ∈ [' ', '\t', '\n', '\r']) ∧
    enclose '"' name ++ ws ++ ':' :: ws' ++ enclose '"' value <:+: body

/-- A UTC offset of whole minutes. -/
structure Offset where
  negative : Bool
  hours : ℕ
  minutes : ℕ
  hours_lt : hours < 100
  minutes_lt : minutes < 60

def twoDigits (n : ℕ) : List Char := [Nat.digitChar (n / 10), Nat.digitChar (n % 10)]

/-- `+HHMM` or `-HHMM` -/
def Offset.text (o : Offset) : List Char :=
  (if o.negative then '-' else '+') :: (twoDigits o.hours ++ twoDigits o.minutes)

def Offset.seconds (o : Offset) : ℤ :=
  if o.negative then -(o.hours * 3600 + o.minutes * 60) else o.hours * 3600 + o.minutes * 60

/-- A good answer that holds a time and an offset; JSON has no NUL. -/
structure TimeReply (answer : Answer) (u : UInt32) (o : Offset) : Prop where
  ok : answer.httpCode = 200
  text : nul ∉ answer.payload
  offset : Holds answer.payload utcOffset o.text
  time : Holds answer.payload utc (Nat.toDigits 10 u.toNat)

/-- In the text without its blanks, the first occurrence of the quoted name is the name of a
member with this value. -/
def Direct (body name value : List Char) : Prop :=
  ∃ post, search (enclose '"' name) (body.filter (· ≠ ' ')) =
    some (enclose '"' name ++ ':' :: (enclose '"' value ++ post))

/-- What stands two characters behind that first occurrence, up to the next quote. -/
def Stands (body name text : List Char) : Prop :=
  ∃ found, search (enclose '"' name) (body.filter (· ≠ ' ')) = some found ∧
    (found.drop (name.length + 4)).takeWhile (· ≠ '"') = text

/-- The times and offsets that come out right: `atol` keeps the time, and the sign shows in the
hours; or both go wrong and make up for each other. -/
def Exact (u : UInt32) (o : Offset) : Prop :=
  if o.negative ∧ o.hours = 0 ∧ o.minutes ≠ 0 then u.toNat = 2 ^ 31 - 1 + 120 * o.minutes
  else u.toNat < 2 ^ 31

/-- The look-ups read both fields. -/
def BothRead (body : List Char) (u : UInt32) (o : Offset) : Prop :=
  Direct body utcOffset o.text ∧ Direct body utc (Nat.toDigits 10 u.toNat)

/-- Something else is read, and adds up to the same time. -/
def Accident (body : List Char) (u : UInt32) (o : Offset) : Prop :=
  ∃ t t' : List Char, Stands body utcOffset t ∧ Stands body utc t' ∧
    (toInt t' + offsetSeconds t) % 2 ^ 32 = (u.toNat + o.seconds) % 2 ^ 32

/-- The text has a time and an offset in the form that the look-up reads. -/
def Complete (body : List Char) : Prop :=
  (∃ digits, Holds body utc digits ∧ digits ≠ [] ∧ ∀ c ∈ digits, c.isDigit) ∧
    ∃ sign digits, Holds body utcOffset (sign :: digits) ∧ (sign = '+' ∨ sign = '-') ∧
      digits.length = 4 ∧ ∀ c ∈ digits, c.isDigit

/-- There is no quoted `utc` in the text up to its first NUL without the blanks. -/
def Silent (body : List Char) : Prop :=
  ¬ enclose '"' utc <:+: (cString body).filter (· ≠ ' ')

section Reading
variable {body name value : List Char}

theorem Stands.unique {t t' : List Char} (h : Stands body name t) (h' : Stands body name t') :
    t = t' := by
  obtain ⟨found, hfound, rfl⟩ := h
  obtain ⟨found', hfound', rfl⟩ := h'
  rw [hfound] at hfound'
  cases hfound'
  rfl

theorem Direct.stands (h : Direct body name value) (hvalue : '"' ∉ value) :
    Stands body name value := by
  obtain ⟨post, hpost⟩ := h
  refine ⟨_, hpost, ?_⟩
  have hlength : name.length + 4 = (enclose '"' name).length + 2 := by simp [enclose]
  rw [hlength, List.drop_length_add_append]
  change ((value ++ ['"']) ++ post).takeWhile _ = value
  rw [List.append_assoc]
  exact takeWhile_piece hvalue post

theorem Holds.occurs (h : Holds body name value) (hname : ' ' ∉ name) :
    enclose '"' name <:+: body.filter (· ≠ ' ') := by
  obtain ⟨ws, ws', -, hbody⟩ := h
  have hkeep : (enclose '"' name).filter (· ≠ ' ') = enclose '"' name := by
    refine List.filter_eq_self.mpr fun c hc => ?_
    have hblank : ' ' ∉ enclose '"' name := by simp [enclose, hname]
    simpa using ne_of_mem_of_not_mem hc hblank
  have hfront : enclose '"' name <:+: body :=
    List.IsInfix.trans ⟨[], ws ++ ':' :: ws' ++ enclose '"' value, by simp⟩ hbody
  exact hkeep ▸ hfront.filter _

theorem Holds.stands (h : Holds body name value) (hname : ' ' ∉ name) :
    ∃ t, Stands body name t := by
  cases hfound : search (enclose '"' name) (body.filter (· ≠ ' ')) with
  | none => exact absurd (h.occurs hname) (search_eq_none_iff.mp hfound)
  | some found => exact ⟨_, found, hfound, rfl⟩

theorem jsonLookup_removeBlanks_eq_notFound_iff (body : List Char) (hname : nul ∉ name) :
    jsonLookup (removeBlanks body) name = notFound ↔
      ¬ enclose '"' name <:+: (cString body).filter (· ≠ ' ') := by
  have hblank : ' ' ∉ cString (removeBlanks body) := by simp [cString_removeBlanks]
  rw [jsonLookup_eq_notFound_iff hblank, cString_removeBlanks,
    cString_eq_self (nul_notMem_enclose hname)]

theorem jsonLookup_of_stands {t : List Char} (h : Stands body name t) (hbody : nul ∉ body)
    (hname : nul ∉ name) : jsonLookup (removeBlanks body) name = t := by
  obtain ⟨found, hfound, rfl⟩ := h
  rw [jsonLookup_eq, cString_removeBlanks, cString_eq_self hbody,
    cString_eq_self (nul_notMem_enclose hname), hfound, Option.elim_some]

end Reading

section Arithmetic

theorem isDigit_of_mem_twoDigits {n : ℕ} (h : n < 100) : ∀ c ∈ twoDigits n, c.isDigit := by
  simp only [twoDigits, List.forall_mem_cons, Nat.isDigit_digitChar, decide_eq_true_eq]
  refine ⟨?_, ?_, by simp⟩ <;> omega

theorem digitsValue_twoDigits {n : ℕ} (h : n < 100) : Decimal.digitsValue (twoDigits n) = n := by
  have hhigh : n / 10 < 10 := by omega
  have hlow : n % 10 < 10 := by omega
  rw [Decimal.digitsValue, List.takeWhile_eq_self_iff.mpr (isDigit_of_mem_twoDigits h), twoDigits,
    Nat.ofDigitChars_cons_digitChar_of_lt_ten hhigh,
    Nat.ofDigitChars_cons_digitChar_of_lt_ten hlow, Nat.ofDigitChars_nil]
  omega

theorem toInt_twoDigits {n : ℕ} (h : n < 100) : toInt (twoDigits n) = n := by
  have hdigit : (Nat.digitChar (n / 10)).isDigit :=
    isDigit_of_mem_twoDigits h _ List.mem_cons_self
  have hvalue := digitsValue_twoDigits h
  rw [twoDigits] at hvalue ⊢
  rw [toInt, Decimal.atol_of_digit hdigit, hvalue, Decimal.saturate_of_mem (by omega) (by omega)]

theorem toInt_signed (negative : Bool) {n : ℕ} (h : n < 100) :
    toInt ((if negative then '-' else '+') :: twoDigits n) = if negative then -(n : ℤ) else n := by
  have hminus : Decimal.isSpace '-' = false := by decide
  have hplus : Decimal.isSpace '+' = false := by decide
  cases negative
  · simp only [Bool.false_eq_true, if_false, toInt, Decimal.atol, List.dropWhile_cons, hplus]
    rw [digitsValue_twoDigits h, Decimal.saturate_of_mem (by omega) (by omega)]
  · simp only [if_true, toInt, Decimal.atol, List.dropWhile_cons, hminus, Bool.false_eq_true,
      if_false]
    rw [digitsValue_twoDigits h, Decimal.saturate_of_mem (by omega) (by omega)]

theorem Offset.mem_text (o : Offset) : ∀ c ∈ o.text, c = '+' ∨ c = '-' ∨ c.isDigit := by
  have hminutes := o.minutes_lt
  rw [Offset.text, List.forall_mem_cons]
  refine ⟨by cases o.negative <;> simp, fun c hc => .inr (.inr ?_)⟩
  obtain hc | hc := List.mem_append.mp hc
  · exact isDigit_of_mem_twoDigits o.hours_lt c hc
  · exact isDigit_of_mem_twoDigits (by omega) c hc

theorem Offset.nul_notMem_text (o : Offset) : nul ∉ o.text :=
  fun h => absurd (o.mem_text _ h) (by decide)

theorem Offset.quote_notMem_text (o : Offset) : '"' ∉ o.text :=
  fun h => absurd (o.mem_text _ h) (by decide)

theorem quote_notMem_digits {n : ℕ} : '"' ∉ Nat.toDigits 10 n := by
  intro h
  have hdigit := Nat.isDigit_of_mem_toDigits (by decide) (by decide) h
  exact absurd hdigit (by decide)

theorem toInt_digits (u : UInt32) :
    toInt (Nat.toDigits 10 u.toNat) = min (u.toNat : ℤ) (2 ^ 31 - 1) := by
  have hitoa : Nat.toDigits 10 u.toNat = Decimal.itoa u.toNat := by simp [Decimal.itoa]
  rw [toInt, hitoa, Decimal.atol_itoa_eq_saturate, Decimal.saturate]
  omega

/-- The minutes of a negative offset of less than an hour are added. -/
theorem offsetSeconds_text (o : Offset) :
    offsetSeconds o.text =
      if o.negative ∧ o.hours = 0 then (o.minutes : ℤ) * 60 else o.seconds := by
  have hsubstring (left len : ℕ) :
      substring o.text left (left + len : ℕ) = (o.text.drop left).take len := by
    rw [substring_add, cString_eq_self fun h => o.nul_notMem_text (List.mem_of_mem_drop h)]
  have hhours : substring o.text 0 3 = (if o.negative then '-' else '+') :: twoDigits o.hours :=
    hsubstring 0 3
  have hminutes : substring o.text 3 5 = twoDigits o.minutes := hsubstring 3 2
  have hlt := o.minutes_lt
  unfold offsetSeconds
  rw [hhours, hminutes, toInt_signed _ o.hours_lt, toInt_twoDigits (by omega), Offset.seconds]
  cases o.negative
  · simp only [Bool.false_eq_true, false_and, if_false]
    split_ifs <;> omega
  · simp only [true_and, if_true]
    split_ifs <;> omega

theorem ofInt_eq_ofInt_iff (a b : ℤ) :
    UInt32.ofInt a = UInt32.ofInt b ↔ a % 2 ^ 32 = b % 2 ^ 32 := by
  rw [← UInt32.toNat_inj, UInt32.ofInt, UInt32.ofInt, UInt32.toNat_ofNat',
    UInt32.toNat_ofNat']
  omega

theorem sum_eq_iff (u : UInt32) (o : Offset) :
    (toInt (Nat.toDigits 10 u.toNat) + offsetSeconds o.text) % 2 ^ 32 =
      (u.toNat + o.seconds) % 2 ^ 32 ↔ Exact u o := by
  have hu := u.toNat_lt
  have hhours := o.hours_lt
  have hminutes := o.minutes_lt
  rw [toInt_digits, offsetSeconds_text, Exact, Offset.seconds, min_def]
  generalize u.toNat = n at hu ⊢
  cases o.negative
  · simp only [Bool.false_eq_true, false_and, if_false]
    split_ifs <;> omega
  · simp only [true_and, if_true]
    split_ifs <;> omega

end Arithmetic

section Setting
variable {first backup : Answer} {u : UInt32} {o : Offset}

theorem utc_plain : nul ∉ utc ∧ ' ' ∉ utc := by decide

theorem utcOffset_plain : nul ∉ utcOffset ∧ ' ' ∉ utcOffset := by decide

theorem setTimezoneFromIp_of_ok (h : (accepted first backup).httpCode = 200) :
    setTimezoneFromIp first backup =
      let payload := removeBlanks (accepted first backup).payload
      if jsonLookup payload utc = notFound then none
      else some (UInt32.ofInt (toInt (jsonLookup payload utc) +
        offsetSeconds (jsonLookup payload utcOffset))) := by
  have hpos : (0 : ℤ) < 200 := by decide
  unfold setTimezoneFromIp
  dsimp only
  rw [h, if_pos hpos, if_pos rfl, equals_jsonLookup]
  simp only [decide_eq_true_eq]

theorem setTimezoneFromIp_of_not_ok (h : (accepted first backup).httpCode ≠ 200) :
    setTimezoneFromIp first backup = none := by
  unfold setTimezoneFromIp
  dsimp only
  rw [if_neg h, ite_self]

/-- The time set is the sum of the numbers that stand behind the two names. -/
theorem setTimezoneFromIp_of_stands (h : TimeReply (accepted first backup) u o) {t t' : List Char}
    (ht : Stands (accepted first backup).payload utcOffset t)
    (ht' : Stands (accepted first backup).payload utc t') :
    setTimezoneFromIp first backup = some (UInt32.ofInt (toInt t' + offsetSeconds t)) := by
  have hfound : jsonLookup (removeBlanks (accepted first backup).payload) utc ≠ notFound := by
    rw [Ne, jsonLookup_removeBlanks_eq_notFound_iff _ utc_plain.1, not_not,
      cString_eq_self h.text]
    exact h.time.occurs utc_plain.2
  rw [setTimezoneFromIp_of_ok h.ok, if_neg hfound, jsonLookup_of_stands ht h.text utcOffset_plain.1,
    jsonLookup_of_stands ht' h.text utc_plain.1]

/-- The local time is set right for the times and offsets that the arithmetic gets right, if both
names occur first as names and only blanks stand around the colon; otherwise by accident. -/
theorem local_time_set_iff (h : TimeReply (accepted first backup) u o) :
    setTimezoneFromIp first backup = some (UInt32.ofInt (u.toNat + o.seconds)) ↔
      BothRead (accepted first backup).payload u o ∧ Exact u o ∨
        ¬ BothRead (accepted first backup).payload u o ∧
          Accident (accepted first backup).payload u o := by
  obtain ⟨t, ht⟩ := h.offset.stands utcOffset_plain.2
  obtain ⟨t', ht'⟩ := h.time.stands utc_plain.2
  rw [setTimezoneFromIp_of_stands h ht ht', Option.some_inj, ofInt_eq_ofInt_iff]
  by_cases hread : BothRead (accepted first backup).payload u o
  · have hoffset : t = o.text := ht.unique (hread.1.stands o.quote_notMem_text)
    have htime : t' = Nat.toDigits 10 u.toNat := ht'.unique (hread.2.stands quote_notMem_digits)
    rw [hoffset, htime, sum_eq_iff]
    simp [hread]
  · have haccident : Accident (accepted first backup).payload u o ↔
        (toInt t' + offsetSeconds t) % 2 ^ 32 = (u.toNat + o.seconds) % 2 ^ 32 := by
      constructor
      · rintro ⟨s, s', hs, hs', hsum⟩
        rwa [ht.unique hs, ht'.unique hs']
      · exact fun hsum => ⟨t, t', ht, ht', hsum⟩
    simp [hread, haccident]

/-- `{"utc_offset":"...","utc":"1514764800"}` -/
def newYear (offset : List Char) : Answer where
  httpCode := 200
  payload := '{' :: (enclose '"' utcOffset ++ ':' :: enclose '"' offset ++
    ',' :: (enclose '"' utc ++ ':' :: enclose '"' (Nat.toDigits 10 1514764800) ++ ['}']))

def india : Offset := ⟨false, 5, 30, by decide, by decide⟩

def halfHourWest : Offset := ⟨true, 0, 30, by decide, by decide⟩

theorem newYear_timeReply (o : Offset) : TimeReply (newYear o.text) 1514764800 o where
  ok := rfl
  text := by
    have htext := o.nul_notMem_text
    have hdigits : nul ∉ Nat.toDigits 10 1514764800 := by decide +kernel
    unfold nul at htext hdigits ⊢
    simp only [newYear, enclose, utcOffset, utc]
    simp [htext, hdigits]
  offset := ⟨[], [], by simp, ['{'], _, by simp [newYear]; rfl⟩
  time := ⟨[], [], by simp, '{' :: (enclose '"' utcOffset ++ ':' :: enclose '"' o.text ++ [',']),
    ['}'], by simp [newYear]⟩

/-- Half an hour west of Greenwich the clock is set an hour too late. -/
theorem halfHourWest_missed :
    TimeReply (newYear halfHourWest.text) 1514764800 halfHourWest ∧
      setTimezoneFromIp (newYear halfHourWest.text) (newYear halfHourWest.text) ≠
        some (UInt32.ofInt ((1514764800 : UInt32).toNat + halfHourWest.seconds)) := by
  refine ⟨newYear_timeReply _, ?_⟩
  decide +kernel

theorem local_time_set_iff_india :
    setTimezoneFromIp (newYear india.text) (newYear india.text) =
      some (UInt32.ofInt ((1514764800 : UInt32).toNat + india.seconds)) := by
  have hreply : TimeReply (accepted (newYear india.text) (newYear india.text)) 1514764800 india :=
    newYear_timeReply india
  exact (local_time_set_iff hreply).mpr (.inl ⟨⟨⟨_, rfl⟩, ⟨_, rfl⟩⟩, by unfold Exact; decide⟩)

/-- A failed look-up leaves the clock alone unless it is an answer with the status of a good one
that holds a quoted `utc` and not both fields. -/
theorem clock_kept_iff (first backup : Answer) :
    ((setTimezoneFromIp first backup).isSome →
      (accepted first backup).httpCode = 200 ∧ Complete (accepted first backup).payload) ↔
    (accepted first backup).httpCode ≠ 200 ∨ Silent (accepted first backup).payload ∨
      Complete (accepted first backup).payload := by
  by_cases hok : (accepted first backup).httpCode = 200
  · rw [setTimezoneFromIp_of_ok hok, Silent,
      ← jsonLookup_removeBlanks_eq_notFound_iff _ utc_plain.1]
    dsimp only
    split_ifs with hfound
    · simp [hfound]
    · simp [hok, hfound]
  · rw [setTimezoneFromIp_of_not_ok hok]
    simp [hok]

/-- `{"utc":"1514764800"}` -/
def timeOnly : Answer where
  httpCode := 200
  payload := '{' :: (enclose '"' utc ++ ':' :: enclose '"' (Nat.toDigits 10 1514764800) ++ ['}'])

/-- Without an offset the clock is set all the same. -/
theorem timeOnly_sets_clock :
    (setTimezoneFromIp timeOnly timeOnly).isSome ∧ ¬ Complete timeOnly.payload := by
  constructor
  · decide +kernel
  · rintro ⟨-, sign, digits, hoffset, -⟩
    exact absurd (hoffset.occurs utcOffset_plain.2) (by decide)

end Setting

end Wyostat.OpenThermostat
