import Wyostat.Eeprom.Flash
import Mathlib.Data.Fintype.Pi

/-! What a reboot finds of the EEPROM: everything that `commit()` reports as stored, unless a write
fails with an error that it does not know. -/
namespace Wyostat.EEPROMClass
open Machine WriteBack

/-- The bytes in use, as a copy of those of the sector. -/
def copy (n : ℕ) (e : EEPROMClass) : Copy (Fin n → UInt8) :=
  ⟨fun i => e.flash i, e.data.map fun data i => data i, e.dirty⟩

def Outcome.result (n : ℕ) : Outcome → Result (Fin n → UInt8)
  | .written => .done
  | .eraseFails left => .refused fun i => left i
  | .invalidSize => .refused fun _ => 255
  | .writeFails left => .unnoticed fun i => left i

/-- What a call does to the bytes in use. -/
def Call.ops (n : ℕ) : Call → List (Op (Fin n → UInt8))
  | .begin size found _ => if size = 0 ∨ found = false then [] else [.load]
  | .write address value => [.edit fun b i => if (i : ℤ) = address then value else b i]
  | .commit outcome => [.store (outcome.result n)]
  | .finish outcome => [.store (outcome.result n), .unload]
  | .cut => [.crash]

/-- Every `begin()` asks for the same size, and the sector can be read. -/
def Call.Fits (size : ℕ) : Call → Prop
  | .begin size' _ misread => size' = size ∧ misread = none
  | _ => True

/-- As many bytes are in use as `begin()` has asked for. -/
def Sized (size : ℕ) (e : EEPROMClass) : Prop :=
  e.size = if e.data.isSome then roundedSize size else 0

variable {size : ℕ} {e : EEPROMClass}

theorem roundedSize_pos (h : 0 < size) : 0 < roundedSize size := by
  unfold roundedSize sectorSize
  omega

theorem commit_sizes (e : EEPROMClass) (outcome : Outcome) :
    (e.commit outcome).1.size = e.size ∧ (e.commit outcome).1.data = e.data := by
  unfold commit
  split_ifs
  · exact ⟨rfl, rfl⟩
  · exact ⟨rfl, rfl⟩
  · rcases hdata : e.data with _ | data
    · exact ⟨rfl, hdata⟩
    · cases outcome <;> exact ⟨rfl, rfl⟩

theorem sized_step (h : e.Sized size) {call : Call} (hcall : call.Fits size) :
    (step e call).Sized size := by
  unfold Sized at *
  cases call with
  | begin size' found misread =>
    obtain ⟨rfl, rfl⟩ := hcall
    by_cases hgo : size' = 0 ∨ found = false
    · simpa [step, begin, hgo] using h
    · simp [step, begin, hgo]
  | write address value =>
    simp only [step, write]
    split
    · exact h
    · split
      · exact h
      · split
        · exact h
        · simp_all
  | commit outcome =>
    obtain ⟨hsize, hdata⟩ := commit_sizes e outcome
    simp only [step, hsize, hdata]
    exact h
  | finish outcome =>
    simp only [step, finish]
    split
    · exact h
    · rfl
  | cut => rfl

theorem Sized.size_eq (h : e.Sized size) {data : ℕ → UInt8} (hdata : e.data = some data) :
    e.size = roundedSize size := by
  rw [h, hdata]
  rfl

theorem copy_write (h : e.Sized size) (address : ℤ) (value : UInt8) :
    (e.write address value).copy (roundedSize size) = WriteBack.step (e.copy (roundedSize size))
      (.edit fun b i => if (i : ℤ) = address then value else b i) := by
  unfold write
  rcases hdata : e.data with _ | data
  · split <;> simp [copy, WriteBack.step, hdata]
  · have hsize := h.size_eq hdata
    by_cases hout : address < 0 ∨ (e.size : ℤ) ≤ address
    · have hsame (b : Fin (roundedSize size) → UInt8) :
          (fun i : Fin (roundedSize size) => if (i : ℤ) = address then value else b i) = b := by
        funext i
        exact if_neg (by omega)
      rw [if_pos hout]
      simp [copy, WriteBack.step, hdata, hsame]
    · rw [if_neg hout]
      simp only
      split_ifs with hvalue
      · have hsame : (fun i : Fin (roundedSize size) =>
              if (i : ℤ) = address then value else data i) =
            fun i : Fin (roundedSize size) => data i := by
          funext i
          split_ifs with hi
          · rw [← hvalue, ← hi, Int.toNat_natCast]
          · rfl
        simp [copy, WriteBack.step, hdata, hsame]
      · have hnew : (fun i : Fin (roundedSize size) =>
              if (i : ℤ) = address then value else data i) ≠
            fun i : Fin (roundedSize size) => data i := by
          intro hsame
          have hat := congrFun hsame ⟨address.toNat, by omega⟩
          rw [if_pos (by simp; omega)] at hat
          exact hvalue hat.symm
        have hupdate : (fun i : Fin (roundedSize size) =>
            Function.update data address.toNat value i) =
            fun i : Fin (roundedSize size) => if (i : ℤ) = address then value else data i := by
          funext i
          rw [Function.update_apply]
          exact if_congr (by omega) rfl rfl
        simp [copy, WriteBack.step, hdata, hnew, hupdate]

theorem copy_commit (h : e.Sized size) (hsize : 0 < size) (outcome : Outcome) :
    (e.commit outcome).1.copy (roundedSize size) =
      WriteBack.step (e.copy (roundedSize size)) (.store (outcome.result _)) := by
  have hpos := roundedSize_pos hsize
  unfold commit
  rcases hdata : e.data with _ | data
  · split_ifs <;> simp [copy, WriteBack.step, hdata]
  · have hused := h.size_eq hdata
    rw [if_neg (by omega)]
    split_ifs with hdirty
    · simp [copy, WriteBack.step, hdata, hdirty]
    · rw [Bool.not_eq_false] at hdirty
      cases outcome with
      | written =>
        have hfit (i : Fin (roundedSize size)) : (i : ℕ) < e.size := hused.symm ▸ i.isLt
        simp [copy, WriteBack.step, Copy.store, Outcome.result, hdata, hdirty, hfit]
      | _ => simp [copy, WriteBack.step, Copy.store, Outcome.result, hdata, hdirty]

/-- A call does to the object what its operations do to the copy. -/
theorem copy_step (h : e.Sized size) (hsize : 0 < size) {call : Call} (hcall : call.Fits size) :
    (step e call).copy (roundedSize size) =
      run WriteBack.step (e.copy (roundedSize size)) (call.ops (roundedSize size)) := by
  cases call with
  | begin size' found misread =>
    obtain ⟨rfl, rfl⟩ := hcall
    by_cases hgo : size' = 0 ∨ found = false
    · simp [step, begin, Call.ops, hgo]
    · simp [step, begin, Call.ops, hgo, copy, WriteBack.step]
  | write address value => exact copy_write h address value
  | commit outcome => exact copy_commit h hsize outcome
  | finish outcome =>
    have hcommit := copy_commit h hsize outcome
    simp only [step, finish, Call.ops, run_cons, run_nil, ← hcommit]
    split_ifs with hzero
    · have hdata : e.data = none := by
        by_contra hsome
        obtain ⟨data, hdata⟩ := Option.ne_none_iff_exists'.mp hsome
        have hused := h.size_eq hdata
        have hpos := roundedSize_pos hsize
        omega
      simp [commit, hzero, copy, WriteBack.step, hdata]
    · rfl
  | cut => rfl

/-- What is read of the bytes in use, if there are any. -/
def readCopy {n : ℕ} (now : Option (Fin n → UInt8)) (address : ℤ) : UInt8 :=
  match now with
  | none => 0
  | some b => if h : 0 ≤ address ∧ address.toNat < n then b ⟨address.toNat, h.2⟩ else 0

theorem read_eq (h : e.Sized size) (address : ℤ) :
    e.read address = readCopy (e.copy (roundedSize size)).now address := by
  unfold read readCopy
  rcases hdata : e.data with _ | data
  · simp [copy, hdata]
  · have hused := h.size_eq hdata
    by_cases hout : address < 0 ∨ (e.size : ℤ) ≤ address
    · rw [if_pos hout]
      simp only [copy, hdata, Option.map_some]
      rw [dif_neg (by omega)]
    · rw [if_neg hout]
      simp only [copy, hdata, Option.map_some]
      rw [dif_pos (by omega)]

theorem sized_powerUp (flash : ℕ → UInt8) : (powerUp flash).Sized size := rfl

theorem sound_powerUp (flash : ℕ → UInt8) (n : ℕ) : ((powerUp flash).copy n).Sound := by
  intro _ b hb
  cases hb

theorem sized_run {calls : List Call} (hcalls : ∀ call ∈ calls, call.Fits size) (h : e.Sized size) :
    (run step e calls).Sized size := by
  induction calls generalizing e with
  | nil => exact h
  | cons call calls ih =>
    rw [run_cons]
    exact ih (fun c hc => hcalls c (List.mem_cons_of_mem _ hc))
      (sized_step h (hcalls call List.mem_cons_self))

theorem copy_run {calls : List Call} (hcalls : ∀ call ∈ calls, call.Fits size) (hsize : 0 < size)
    (h : e.Sized size) :
    (run step e calls).copy (roundedSize size) =
      run WriteBack.step (e.copy (roundedSize size))
        (calls.flatMap (Call.ops (roundedSize size))) := by
  induction calls generalizing e with
  | nil => rfl
  | cons call calls ih =>
    have hcall := hcalls call List.mem_cons_self
    rw [run_cons, ih (fun c hc => hcalls c (List.mem_cons_of_mem _ hc)) (sized_step h hcall),
      copy_step h hsize hcall, List.flatMap_cons, run_append]

/-- No call of the flash driver fails. -/
def Call.Works : Call → Prop
  | .commit outcome | .finish outcome => outcome = .written
  | _ => True

theorem works_ops {call : Call} (h : call.Works) (n : ℕ) : ∀ op ∈ call.ops n, op.Works := by
  cases call with
  | begin size found misread =>
    by_cases hgo : size = 0 ∨ found = false
    · simp [Call.ops, hgo]
    · simp [Call.ops, hgo, Op.Works]
  | write address value => simp [Call.ops, Op.Works]
  | commit outcome =>
    cases h
    simp [Call.ops, Outcome.result, Op.Works]
  | finish outcome =>
    cases h
    simp [Call.ops, Outcome.result, Op.Works]
  | cut => simp [Call.ops, Op.Works]

/-- As long as the flash works, whatever is called and however often the power fails, every read
gives what it gives of a plain store that is written as a whole by each commit. -/
theorem read_run_eq_plain (flash : ℕ → UInt8) (hsize : 0 < size) (calls : List Call)
    (hcalls : ∀ call ∈ calls, call.Fits size) (hworks : ∀ call ∈ calls, call.Works) (address : ℤ) :
    (run step (powerUp flash) calls).read address =
      readCopy (run Plain.step ⟨fun i : Fin (roundedSize size) => flash i, none⟩
        (calls.flatMap (Call.ops (roundedSize size)))).now address := by
  have hops : ∀ op ∈ calls.flatMap (Call.ops (roundedSize size)), op.Works := by
    intro op hop
    obtain ⟨call, hcall, hmem⟩ := List.mem_flatMap.mp hop
    exact works_ops (hworks call hcall) _ op hmem
  have hplain := plain_run (sound_powerUp flash (roundedSize size)) hops
  rw [read_eq (sized_run hcalls (sized_powerUp flash)),
    copy_run hcalls hsize (sized_powerUp flash)]
  exact congrArg (fun p : Plain _ => readCopy p.now address) hplain

theorem read_run_eq_plain_once :
    (run step (powerUp fun _ => 255) [.begin 512 true none, .write 0 68, .commit .written, .cut,
        .begin 512 true none]).read 0 =
      readCopy (run Plain.step ⟨fun _ : Fin (roundedSize 512) => 255, none⟩
        ([.begin 512 true none, .write 0 68, .commit .written, .cut,
          .begin 512 true none].flatMap (Call.ops (roundedSize 512)))).now 0 :=
  read_run_eq_plain _ (by decide) _ (by simp [Call.Fits]) (by simp [Call.Works]) 0

/-- A power failure and `begin()` find everything that is there now. -/
def Survives (size : ℕ) (e : EEPROMClass) : Prop :=
  ∀ address, (e.cut.begin size true none).1.read address = e.read address

/-- The call is a `commit()`, and it reports success. -/
def Call.Reports (e : EEPROMClass) : Call → Prop
  | .commit outcome => (e.commit outcome).2 = true
  | _ => False

/-- The call has to write, and the write fails with an error that is not known and leaves other
bytes behind. -/
def Call.Loses (e : EEPROMClass) : Call → Prop
  | .commit (.writeFails left) => e.dirty = true ∧ ∃ data ∈ e.data, ∃ i < e.size, left i ≠ data i
  | _ => False

section Failures

theorem readCopy_inj {n : ℕ} {b b' : Fin n → UInt8} :
    (∀ address, readCopy (some b) address = readCopy (some b') address) ↔ b = b' := by
  constructor
  · intro h
    funext i
    have hi := h i
    simpa [readCopy] using hi
  · rintro rfl _
    rfl

/-- Everything is found again exactly when the array and the sector agree. -/
theorem survives_iff (h : e.Sized size) (hsize : 0 < size) {data : ℕ → UInt8}
    (hdata : e.data = some data) :
    e.Survives size ↔
      (fun i : Fin (roundedSize size) => data i) = fun i : Fin (roundedSize size) => e.flash i := by
  have hreboot : (e.cut.begin size true none).1.Sized size :=
    sized_step (sized_step h (show Call.Fits size .cut from trivial))
      (show Call.Fits size (.begin size true none) from ⟨rfl, rfl⟩)
  have hnow : ((e.cut.begin size true none).1.copy (roundedSize size)).now =
      some fun i : Fin (roundedSize size) => e.flash i := by
    simp [begin, hsize.ne', copy, cut, powerUp]
  unfold Survives
  simp only [read_eq h, read_eq hreboot, hnow]
  simp only [copy, hdata, Option.map_some]
  exact readCopy_inj.trans eq_comm

theorem reports_iff (outcome : Outcome) :
    (Call.commit outcome).Reports e ↔ e.size ≠ 0 ∧ (e.dirty = true → ∃ data ∈ e.data,
      outcome = .written ∨ ∃ left, outcome = .writeFails left) := by
  unfold Call.Reports commit
  by_cases hzero : e.size = 0
  · simp [hzero]
  · rcases hdata : e.data with _ | data
    · cases hdirty : e.dirty <;> simp [hzero]
    · cases hdirty : e.dirty <;> cases outcome <;> simp [hzero]

theorem sound_step (h : e.Sized size) (hsize : 0 < size)
    (hsound : (e.copy (roundedSize size)).Sound) {call : Call} (hcall : call.Fits size)
    (hkept : ¬ call.Loses e) : ((step e call).copy (roundedSize size)).Sound := by
  rw [copy_step h hsize hcall]
  cases call with
  | begin size' found misread =>
    by_cases hgo : size' = 0 ∨ found = false
    · simpa [Call.ops, hgo] using hsound
    · simpa [Call.ops, hgo] using (sound_step_iff hsound .load).mpr trivial
  | write address value => exact (sound_step_iff hsound (.edit _)).mpr trivial
  | cut => exact (sound_step_iff hsound .crash).mpr trivial
  | finish outcome =>
    intro _ b hb
    cases hb
  | commit outcome =>
    refine (sound_step_iff hsound (.store _)).mpr ?_
    cases outcome with
    | writeFails left =>
      intro hdirty b hb
      obtain ⟨data, hdata, rfl⟩ := Option.map_eq_some_iff.mp hb
      funext i
      by_contra hne
      exact hkept ⟨hdirty, data, hdata, i, (h.size_eq hdata).symm ▸ i.isLt, Ne.symm hne⟩
    | _ => trivial

theorem reports_survives_iff (h : e.Sized size) (hsize : 0 < size)
    (hsound : (e.copy (roundedSize size)).Sound) {call : Call} (hcall : call.Fits size) :
    (call.Reports e → (step e call).Survives size) ↔ ¬ call.Loses e := by
  have hnext := sized_step h hcall
  cases call with
  | commit outcome =>
    obtain ⟨hsizes, hdatas⟩ := commit_sizes e outcome
    constructor
    · intro hsurvives hloses
      cases outcome with
      | writeFails left =>
        obtain ⟨hdirty, data, hdata, i, hi, hne⟩ := hloses
        have hall := (survives_iff hnext hsize (hdatas.trans hdata)).mp
          (hsurvives ((reports_iff _).mpr ⟨by omega, fun _ => ⟨data, hdata, Or.inr ⟨left, rfl⟩⟩⟩))
        have hused := h.size_eq hdata
        have hat := congrFun hall ⟨i, by omega⟩
        simp only [step, commit, if_neg (show ¬ e.size = 0 by omega), hdirty,
          Option.mem_def.mp hdata] at hat
        exact hne hat.symm
      | _ => exact hloses
    · intro hkept hreports
      obtain ⟨hpos, hwrites⟩ := (reports_iff outcome).mp hreports
      rcases hdata : e.data with _ | data
      · exact absurd (by rw [h, hdata]; rfl) hpos
      · rw [survives_iff hnext hsize (hdatas.trans hdata)]
        have hclean : (step e (.commit outcome)).dirty = false := by
          rcases hdirty : e.dirty with _ | _
          · simp [step, commit, hpos, hdirty]
          · obtain ⟨_, _, rfl | ⟨left, rfl⟩⟩ := hwrites hdirty <;>
              simp [step, commit, hpos, hdirty, hdata]
        exact sound_step h hsize hsound hcall hkept hclean _ (by simp [copy, step, hdatas, hdata])
  | _ => simp [Call.Reports, Call.Loses]

/-- In every run in which each `begin()` asks for the same size and can read the sector, whatever
else fails and however often the power does: all the commits that report success are found again
exactly as long as no write fails with an error that is not known. -/
theorem reported_commits_survive_iff (flash : ℕ → UInt8) (hsize : 0 < size) (calls : List Call)
    (hcalls : ∀ call ∈ calls, call.Fits size) :
    Along step (fun e call => call.Reports e → (step e call).Survives size) (powerUp flash) calls ↔
      Along step (fun e call => ¬ call.Loses e) (powerUp flash) calls := by
  have hall (e : EEPROMClass) (h : e.Sized size) (hsound : (e.copy (roundedSize size)).Sound) :
      Along step (fun e call => call.Reports e → (step e call).Survives size) e calls ↔
        Along step (fun e call => ¬ call.Loses e) e calls := by
    induction calls generalizing e with
    | nil => exact Iff.rfl
    | cons call calls ih =>
      have hcall := hcalls call List.mem_cons_self
      rw [Along, Along, reports_survives_iff h hsize hsound hcall]
      exact and_congr_right fun hkept => ih (fun c hc => hcalls c (List.mem_cons_of_mem _ hc)) _
        (sized_step h hcall) (sound_step h hsize hsound hcall hkept)
  exact hall _ (sized_powerUp flash) (sound_powerUp flash _)

/-- The second write fails with an unknown error and leaves the sector erased. -/
theorem reported_commits_survive_once :
    Along step (fun e call => call.Reports e → (step e call).Survives 512) (powerUp fun _ => 255)
        [.begin 512 true none, .write 0 68, .commit .written, .write 1 80,
          .commit (.writeFails fun _ => 255)] ↔
      Along step (fun e call => ¬ call.Loses e) (powerUp fun _ => 255)
        [.begin 512 true none, .write 0 68, .commit .written, .write 1 80,
          .commit (.writeFails fun _ => 255)] :=
  reported_commits_survive_iff _ (by decide) _ (by simp [Call.Fits])

end Failures

section Saves

/-- The object has been started, and both its array and the sector hold the cells. -/
structure Backs (size : ℕ) (e : EEPROMClass) (eeprom : ℕ → UInt8) : Prop where
  sized : e.Sized size
  copy : e.copy (roundedSize size) =
    ⟨fun i => eeprom i, some fun i => eeprom i, false⟩

/-- `EEPROM.write` with the commit that follows it. -/
def saveCalls (outcome : Outcome) (address : ℕ) (value : UInt8) : List Call :=
  [.write address value, .commit outcome]

/-- The power comes back, and the EEPROM is started again. -/
def rebootCalls (size : ℕ) : List Call := [.cut, .begin size true none]

variable {eeprom : ℕ → UInt8}

theorem Backs.read_eq (h : Backs size e eeprom) {address : ℕ} (hin : address < roundedSize size) :
    e.read address = eeprom address := by
  rw [EEPROMClass.read_eq h.sized, h.copy]
  simp [readCopy, hin]

theorem Backs.reads (h : Backs size e eeprom) : Backs size e fun i => e.read i := by
  refine ⟨h.sized, ?_⟩
  have hread : (fun i : Fin (roundedSize size) => e.read i) =
      fun i : Fin (roundedSize size) => eeprom i :=
    funext fun i => h.read_eq i.isLt
  rw [h.copy, hread]

theorem Backs.run_calls (h : Backs size e eeprom) (hsize : 0 < size) {calls : List Call}
    (hcalls : ∀ call ∈ calls, call.Fits size) {eeprom' : ℕ → UInt8}
    (hrun : run WriteBack.step ⟨fun i : Fin (roundedSize size) => eeprom i,
      some fun i => eeprom i, false⟩
      (calls.flatMap (Call.ops (roundedSize size))) =
        ⟨fun i => eeprom' i, some fun i => eeprom' i, false⟩) :
    Backs size (run step e calls) eeprom' :=
  ⟨sized_run hcalls h.sized, by rw [copy_run hcalls hsize h.sized, h.copy, hrun]⟩

theorem ops_write (n address : ℕ) (value : UInt8) :
    Call.ops n (.write address value) =
      [.edit fun b i => if (i : ℕ) = address then value else b i] := by
  have hedit (b : Fin n → UInt8) (i : Fin n) :
      (if ((i : ℕ) : ℤ) = (address : ℤ) then value else b i) =
        if (i : ℕ) = address then value else b i := if_congr Int.ofNat_inj rfl rfl
  rw [Call.ops]
  exact congrArg (fun f => [Op.edit f]) (funext fun b => funext (hedit b))

theorem Backs.save (h : Backs size e eeprom) (hsize : 0 < size) (address : ℕ) (value : UInt8) :
    Backs size (run step e (saveCalls .written address value))
      (Function.update eeprom address value) := by
  refine h.run_calls hsize (by simp [saveCalls, Call.Fits]) ?_
  have hedit : (fun i : Fin (roundedSize size) => if (i : ℕ) = address then value else eeprom i) =
      fun i : Fin (roundedSize size) => Function.update eeprom address value i := by
    funext i
    exact (Function.update_apply eeprom address value (i : ℕ)).symm
  rw [saveCalls, List.flatMap_cons, ops_write]
  by_cases hsame : (fun i : Fin (roundedSize size) => Function.update eeprom address value i) =
      fun i : Fin (roundedSize size) => eeprom i
  · simp [Call.ops, WriteBack.step, hedit, hsame]
  · simp [Call.ops, WriteBack.step, Copy.store, Outcome.result, hedit, hsame]

theorem Backs.reboot (h : Backs size e eeprom) (hsize : 0 < size) :
    Backs size (run step e (rebootCalls size)) eeprom := by
  refine h.run_calls hsize (by simp [rebootCalls, Call.Fits]) ?_
  simp [rebootCalls, Call.ops, WriteBack.step, hsize.ne']

/-- A power failure between the erasing and the writing of the sector loses every cell, unless
there is nothing to store. -/
theorem Backs.interrupted (h : Backs size e eeprom) (hsize : 0 < size) {address : ℕ} {value : UInt8}
    (hin : address < roundedSize size) (hnew : value ≠ eeprom address) :
    Backs size (run step e (saveCalls .invalidSize address value ++ rebootCalls size))
      fun _ => 255 := by
  refine h.run_calls hsize (by simp [saveCalls, rebootCalls, Call.Fits]) ?_
  have hedit : (fun i : Fin (roundedSize size) => if (i : ℕ) = address then value else eeprom i) ≠
      fun i : Fin (roundedSize size) => eeprom i := by
    intro hsame
    have hat := congrFun hsame ⟨address, hin⟩
    rw [if_pos rfl] at hat
    exact hnew hat
  rw [saveCalls, List.cons_append, List.flatMap_cons, ops_write]
  simp [rebootCalls, Call.ops, WriteBack.step, Copy.store, Outcome.result, hedit, hsize.ne']

end Saves

end Wyostat.EEPROMClass
