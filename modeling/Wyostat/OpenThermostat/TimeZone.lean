import Wyostat.WString

/-! The time look-up of the OpenThermostat sketch: two requests, two look-ups in the answer, and
the time the clock is set to. -/
namespace Wyostat.OpenThermostat
open WString Delimited

def notFound : List Char := ['n', 'o', 't', ' ', 'f', 'o', 'u', 'n', 'd']

/-- The name is searched with its quotes; the value is taken to start two characters behind it. Both
strings are passed by value, and the quoted name is assigned once more. -/
def jsonLookup (s name : List Char) : List Char :=
  let s := copy s
  let name := copy (enclose '"' (copy name))
  let start := indexOf s name 0
  if start < 0 then notFound
  else
    let start := (start + (name.length + 2)).toNat
    let stop := indexOf s ['"'] start
    substring s start stop

/-- What a GET returns, and the body that comes with it. -/
structure Answer where
  httpCode : ℤ
  payload : List Char

/-- The backup service is asked only if the first request fails; the first answer is then lost. -/
def accepted (first backup : Answer) : Answer := if first.httpCode < 0 then backup else first

def utcOffset : List Char := ['u', 't', 'c', '_', 'o', 'f', 'f', 's', 'e', 't']

def utc : List Char := ['u', 't', 'c']

/-- The seconds that `+HHMM` or `-HHMM` is taken for: the minutes get the sign of the hours. -/
def offsetSeconds (offsetStr : List Char) : ℤ :=
  let hours := toInt (substring offsetStr 0 3)
  let minutes := toInt (substring offsetStr 3 5)
  let minutes := if hours < 0 then minutes * -1 else minutes
  hours * 3600 + minutes * 60

/-- `set_timezone_from_ip`: the argument of `ds3231_clock.set`, if it is called. -/
def setTimezoneFromIp (first backup : Answer) : Option UInt32 :=
  let answer := accepted first backup
  if 0 < answer.httpCode then
    if answer.httpCode = 200 then
      let payload := removeBlanks answer.payload
      let offset := offsetSeconds (jsonLookup payload utcOffset)
      let utcStr := jsonLookup payload utc
      if equals utcStr notFound then none else some (UInt32.ofInt (toInt utcStr + offset))
    else none
  else none

section Lookup
variable {s name : List Char}

theorem cString_enclose (name : List Char) :
    cString (enclose '"' name) = '"' :: cString (name ++ ['"']) := by
  have hquote : '"' ≠ nul := by decide
  simp [enclose, cString, hquote]

theorem nul_notMem_enclose (h : nul ∉ name) : nul ∉ enclose '"' name := by
  have hquote : nul ≠ '"' := by decide
  simp [enclose, hquote, h]

theorem cString_enclose_copy (name : List Char) :
    cString (enclose '"' (copy name)) = cString (enclose '"' name) := by
  rw [cString_enclose, cString_enclose]
  by_cases hnul : nul ∈ name
  · have hcopy : nul ∈ copy name := by
      have hlt := length_cString_lt hnul
      exact List.mem_append_right _ (List.mem_replicate.mpr ⟨by omega, rfl⟩)
    rw [cString_append_of_nul hnul, cString_append_of_nul hcopy, cString_copy]
  · rw [copy_eq_self hnul]

theorem equals_jsonLookup (s name cstr : List Char) :
    equals (jsonLookup s name) cstr = decide (jsonLookup s name = cstr) := by
  have hnul : nul ∉ jsonLookup s name := by
    unfold jsonLookup
    dsimp only
    split_ifs
    · decide
    · exact nul_notMem_substring _ _ _
  rw [equals, cString_eq_self hnul]

/-- Before the first NUL: what stands two characters behind the first quoted occurrence of the name,
up to the next quote. -/
theorem jsonLookup_eq (s name : List Char) :
    jsonLookup s name =
      (search (cString (enclose '"' name)) (cString s)).elim notFound
        fun found => (found.drop (name.length + 4)).takeWhile (· ≠ '"') := by
  have hname : cString (copy (enclose '"' (copy name))) = cString (enclose '"' name) := by
    rw [cString_copy, cString_enclose_copy]
  have hlength : (copy (enclose '"' (copy name))).length = name.length + 2 := by
    rw [length_copy]
    simp [enclose, length_copy]
  unfold jsonLookup
  dsimp only
  cases hfound : search (cString (enclose '"' name)) (cString s) with
  | none =>
    have hneg : indexOf (copy s) (copy (enclose '"' (copy name))) 0 < 0 := by
      rw [indexOf, cString_drop_copy, List.drop_zero, hname, hfound]
      dsimp only
      rw [ite_self]
      decide
    rw [if_pos hneg, Option.elim_none]
  | some found =>
    obtain ⟨⟨pre, hpre⟩, hpat⟩ := suffix_of_search hfound
    have hlong := hpat.length_le
    rw [cString_enclose, List.length_cons] at hlong
    have hsplit := congrArg List.length hpre
    rw [List.length_append] at hsplit
    have hle := length_cString_le s
    have hnonempty : ¬ s.length ≤ 0 := by omega
    have hstart : indexOf (copy s) (copy (enclose '"' (copy name))) 0 = pre.length := by
      rw [indexOf, length_copy, cString_drop_copy, List.drop_zero, hname, hfound,
        if_neg hnonempty]
      dsimp only
      omega
    have hnonneg : ¬ (pre.length : ℤ) < 0 := by omega
    have hskip : ((pre.length : ℤ) + ((name.length + 2 : ℕ) + 2)).toNat =
        pre.length + (name.length + 4) := by omega
    rw [hstart, if_neg hnonneg, hlength, hskip, substring_indexOf _ (by decide),
      cString_drop_copy, ← hpre, List.drop_length_add_append, Option.elim_some]

theorem jsonLookup_eq_notFound_iff (hblank : ' ' ∉ cString s) (name : List Char) :
    jsonLookup s name = notFound ↔ ¬ cString (enclose '"' name) <:+: cString s := by
  rw [← search_eq_none_iff, jsonLookup_eq]
  cases hfound : search (cString (enclose '"' name)) (cString s) with
  | none => simp
  | some found =>
    refine iff_of_false (fun hread => hblank ?_) (by simp)
    have hmem : ' ' ∈ notFound := by decide
    rw [← hread, Option.elim_some] at hmem
    exact (suffix_of_search hfound).1.subset
      (List.mem_of_mem_drop ((List.takeWhile_prefix _).subset hmem))

end Lookup

end Wyostat.OpenThermostat
