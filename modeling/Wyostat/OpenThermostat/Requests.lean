import Wyostat.OpenThermostat.Loop

/-! The control section as a list of requests: which device it asks for is settled by the
settings and the time, before the first request is answered. -/
namespace Wyostat.OpenThermostat
open Machine

/-- What the control section asks for: the hour, a device, or the fan with the furnace. -/
inductive Request where
  | hour
  | furnace (b : Bool)
  | ac (b : Bool)
  | fan (b : Bool)
  | fanAsFurnace
  deriving DecidableEq, Repr

def perform (w : World) (s : Stat) : Request → Stat
  | .hour => s.tock
  | .furnace b => setFurnace w b s
  | .ac b => setAc w b s
  | .fan b => setFan w b s
  | .fanAsFurnace => setFan w s.furnaceState s

/-- The requests of heating mode once the AC has been stopped. -/
def heatingRequests (w : World) (s : Stat) : List Request :=
  if s.away then
    if s.localtemp.Below (awaymin - hilogap / 2 : ℤ) then [.furnace true, .fanAsFurnace]
    else if s.localtemp.Above (awaymin + hilogap / 2 : ℤ) then [.furnace false, .fanAsFurnace]
    else [.fanAsFurnace]
  else if (getTargettemp w s).toNat - hilogap / 2 < truncate w.intOfNan s.localtemp then
    [.hour, .furnace false, .fanAsFurnace]
  else if truncate w.intOfNan s.localtemp < (getTargettemp w s.tock).toNat + hilogap / 2 then
    [.hour, .hour, .furnace true, .fanAsFurnace]
  else [.hour, .hour, .fanAsFurnace]

/-- The requests of cooling mode once the furnace has been asked to stop. -/
def coolingRequests (w : World) (s : Stat) : List Request :=
  if s.away then
    if s.localtemp.Above (awaymax : ℤ) then [.fan true, .ac true]
    else if s.localtemp.Below (awaymax - hilogap : ℤ) then [.fan false, .ac false]
    else []
  else if (getTargettemp w s).toNat < truncate w.intOfNan s.localtemp then
    [.hour, .ac true, .fan true]
  else if truncate w.intOfNan s.localtemp ≤ (getTargettemp w s.tock).toNat - hilogap then
    [.hour, .hour, .ac false, .fan false]
  else [.hour, .hour]

/-- What the control section that starts in `s` asks for, in order. -/
def requests (w : World) (s : Stat) : List Request :=
  if s.mode = 'h' then .ac false :: heatingRequests w (setAc w false s)
  else if s.mode = 'c' then .furnace false :: coolingRequests w (setFurnace w false s)
  else [.ac false, .furnace false, .fan false]

section Runs
variable (w : World) (s : Stat)

theorem heating_eq_run :
    heating w s = run (perform w) (setAc w false s) (heatingRequests w (setAc w false s)) := by
  simp only [heating, heatingRequests, Stat.tock_localtemp]
  split_ifs <;> rfl

theorem cooling_eq_run :
    cooling w s =
      run (perform w) (setFurnace w false s) (coolingRequests w (setFurnace w false s)) := by
  simp only [cooling, coolingRequests, Stat.tock_localtemp]
  split_ifs <;> rfl

theorem control_eq_run : control w s = run (perform w) s (requests w s) := by
  unfold control requests
  split_ifs
  · exact heating_eq_run w s
  · exact cooling_eq_run w s
  · rfl

/-- A state that only its own requests change has changed, after a run, to one that was asked
for. -/
theorem run_eq_or_mem {out : Stat → Bool} {ask : Bool → Request}
    (hstep : ∀ s r, out (perform w s r) = out s ∨ r = ask (out (perform w s r)))
    (rs : List Request) :
    out (run (perform w) s rs) = out s ∨ ask (out (run (perform w) s rs)) ∈ rs := by
  induction rs generalizing s with
  | nil => exact .inl rfl
  | cons r rs ih =>
    rw [run_cons]
    rcases ih (perform w s r) with hrest | hmem
    · rcases hstep s r with hsame | hask
      · exact .inl (hrest.trans hsame)
      · rw [hrest]
        exact .inr (hask ▸ List.mem_cons_self)
    · exact .inr (List.mem_cons_of_mem r hmem)

end Runs

end Wyostat.OpenThermostat
