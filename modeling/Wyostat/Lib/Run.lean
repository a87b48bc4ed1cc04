import Mathlib.Algebra.GroupWithZero.Nat
import Mathlib.Data.List.Basic
import Mathlib.Tactic.Common

/-! Finite runs of a deterministic machine: conditions on the states a run passes
through, conditions on its steps, simulations, and amortized bounds. -/
namespace Machine

variable {σ τ ι κ : Type*}

/-- The state reached once all inputs have been consumed in order. -/
def run (step : σ → ι → σ) (s : σ) (is : List ι) : σ := is.foldl step s

/-- `P` holds of every state the run passes through, both ends included. -/
def Always (step : σ → ι → σ) (P : σ → Prop) : σ → List ι → Prop
  | s, [] => P s
  | s, i :: is => P s ∧ Always step P (step s i) is

/-- Every step of the run starts in a state and takes an input related by `C`. -/
def Along (step : σ → ι → σ) (C : σ → ι → Prop) : σ → List ι → Prop
  | _, [] => True
  | s, i :: is => C s i ∧ Along step C (step s i) is

/-- The outputs of the steps of a run, in order. -/
def outputs (step : σ → ι → σ) (o : σ → ι → List κ) : σ → List ι → List κ
  | _, [] => []
  | s, i :: is => o s i ++ outputs step o (step s i) is

variable {step : σ → ι → σ}

@[simp] theorem run_nil (s : σ) : run step s [] = s := rfl

@[simp] theorem run_cons (s : σ) (i : ι) (is : List ι) :
    run step s (i :: is) = run step (step s i) is := rfl

theorem run_append (s : σ) (is js : List ι) :
    run step s (is ++ js) = run step (run step s is) js := List.foldl_append

instance decidableAlways (P : σ → Prop) [DecidablePred P] :
    (s : σ) → (is : List ι) → Decidable (Always step P s is)
  | s, [] => inferInstanceAs (Decidable (P s))
  | s, i :: is =>
    have := decidableAlways P (step s i) is
    inferInstanceAs (Decidable (P s ∧ Always step P (step s i) is))

instance decidableAlong (C : σ → ι → Prop) [∀ s i, Decidable (C s i)] :
    (s : σ) → (is : List ι) → Decidable (Along step C s is)
  | _, [] => inferInstanceAs (Decidable True)
  | s, i :: is =>
    have := decidableAlong C (step s i) is
    inferInstanceAs (Decidable (C s i ∧ Along step C (step s i) is))

theorem Always.head {P : σ → Prop} {s : σ} {is : List ι} (h : Always step P s is) : P s := by
  cases is with
  | nil => exact h
  | cons i is => exact h.1

theorem Always.last {P : σ → Prop} {s : σ} {is : List ι} (h : Always step P s is) :
    P (run step s is) := by
  induction is generalizing s with
  | nil => exact h
  | cons i is ih => exact ih h.2

theorem Always.mono {P Q : σ → Prop} (hPQ : ∀ s, P s → Q s) {s : σ} {is : List ι}
    (h : Always step P s is) : Always step Q s is := by
  induction is generalizing s with
  | nil => exact hPQ s h
  | cons i is ih => exact ⟨hPQ s h.1, ih h.2⟩

theorem Along.mono {C D : σ → ι → Prop} (hCD : ∀ s i, C s i → D s i) {s : σ} {is : List ι}
    (h : Along step C s is) : Along step D s is := by
  induction is generalizing s with
  | nil => trivial
  | cons i is ih => exact ⟨hCD s i h.1, ih h.2⟩

theorem Along.and {C D : σ → ι → Prop} {s : σ} {is : List ι} (hC : Along step C s is)
    (hD : Along step D s is) : Along step (fun s i => C s i ∧ D s i) s is := by
  induction is generalizing s with
  | nil => trivial
  | cons i is ih => exact ⟨⟨hC.1, hD.1⟩, ih hC.2 hD.2⟩

theorem along_of_forall_mem {C : σ → ι → Prop} {is : List ι} (h : ∀ i ∈ is, ∀ s, C s i) (s : σ) :
    Along step C s is := by
  induction is generalizing s with
  | nil => trivial
  | cons i is ih =>
    exact ⟨h i List.mem_cons_self s, ih (fun j hj => h j (List.mem_cons_of_mem i hj)) _⟩

theorem along_append {C : σ → ι → Prop} {s : σ} {is js : List ι} :
    Along step C s (is ++ js) ↔ Along step C s is ∧ Along step C (run step s is) js := by
  induction is generalizing s with
  | nil => simp [Along]
  | cons i is ih => simp [Along, ih, and_assoc]

theorem mem_outputs {o : σ → ι → List κ} {k : κ} {s : σ} {is : List ι}
    (h : k ∈ outputs step o s is) : ∃ t i, k ∈ o t i := by
  induction is generalizing s with
  | nil => cases h
  | cons i is ih =>
    rcases List.mem_append.mp h with h | h
    · exact ⟨s, i, h⟩
    · exact ih h

/-- An invariant kept by the steps that meet `C` holds throughout the runs that meet `C`. -/
theorem always_of_along {P : σ → Prop} {C : σ → ι → Prop}
    (hstep : ∀ s i, P s → C s i → P (step s i)) {s : σ} {is : List ι}
    (hs : P s) (h : Along step C s is) : Always step P s is := by
  induction is generalizing s with
  | nil => exact hs
  | cons i is ih => exact ⟨hs, ih (hstep s i hs h.1) h.2⟩

theorem always_of_step {P : σ → Prop} (hstep : ∀ s i, P s → P (step s i)) {s : σ}
    (hs : P s) (is : List ι) : Always step P s is := by
  induction is generalizing s with
  | nil => exact hs
  | cons i is ih => exact ⟨hs, ih (hstep s i hs)⟩

theorem along_of_step {P : σ → Prop} {C : σ → ι → Prop} (hstep : ∀ s i, P s → P (step s i))
    (hC : ∀ s i, P s → C s i) {s : σ} (hs : P s) (is : List ι) : Along step C s is := by
  induction is generalizing s with
  | nil => trivial
  | cons i is ih => exact ⟨hC s i hs, ih (hstep s i hs)⟩

theorem always_congr_of_step {I P Q : σ → Prop} (hI : ∀ s i, I s → I (step s i))
    (hPQ : ∀ s, I s → (P s ↔ Q s)) {s : σ} (hs : I s) (is : List ι) :
    Always step P s is ↔ Always step Q s is := by
  induction is generalizing s with
  | nil => exact hPQ s hs
  | cons i is ih => exact and_congr (hPQ s hs) (ih (hI s i hs))

/-- When `C` is exactly what one step needs to keep `P`, it is exactly what a run needs. -/
theorem always_iff_along {P : σ → Prop} {C : σ → ι → Prop}
    (hstep : ∀ s i, P s → (P (step s i) ↔ C s i)) {s : σ} (hs : P s) (is : List ι) :
    Always step P s is ↔ Along step C s is := by
  induction is generalizing s with
  | nil => simpa [Always, Along] using hs
  | cons i is ih =>
    simp only [Always, Along, hs, true_and]
    constructor
    · intro h
      exact ⟨(hstep s i hs).mp h.head, (ih h.head).mp h⟩
    · rintro ⟨hC, h⟩
      exact (ih ((hstep s i hs).mpr hC)).mpr h

theorem along_congr_of_step {P : σ → Prop} {C D : σ → ι → Prop}
    (hstep : ∀ s i, P s → D s i → P (step s i)) (hCD : ∀ s i, P s → (C s i ↔ D s i)) {s : σ}
    (hs : P s) (is : List ι) : Along step C s is ↔ Along step D s is := by
  induction is generalizing s with
  | nil => exact Iff.rfl
  | cons i is ih =>
    rw [Along, Along, hCD s i hs]
    exact and_congr_right fun hD => ih (hstep s i hs hD)

/-- Steps that translate into runs of an abstract machine translate whole runs into its runs. -/
theorem run_simulates {astep : τ → κ → τ} (view : σ → τ) (o : σ → ι → List κ) {I : σ → Prop}
    {C : σ → ι → Prop} (hI : ∀ s i, I s → C s i → I (step s i))
    (hstep : ∀ s i, I s → C s i → view (step s i) = run astep (view s) (o s i))
    {s : σ} {is : List ι} (hs : I s) (h : Along step C s is) :
    view (run step s is) = run astep (view s) (outputs step o s is) := by
  induction is generalizing s with
  | nil => rfl
  | cons i is ih =>
    rw [run_cons, ih (hI s i hs h.1) h.2, hstep s i hs h.1, outputs, run_append]

theorem run_simulates_of_step {astep : τ → κ → τ} (view : σ → τ) (o : σ → ι → List κ)
    (hstep : ∀ s i, view (step s i) = run astep (view s) (o s i)) (s : σ) (is : List ι) :
    view (run step s is) = run astep (view s) (outputs step o s is) := by
  induction is generalizing s with
  | nil => rfl
  | cons i is ih => rw [run_cons, ih, hstep, outputs, run_append]

theorem always_view_iff {astep : τ → κ → τ} (view : σ → τ) (o : σ → ι → κ)
    (hstep : ∀ s i, view (step s i) = astep (view s) (o s i)) {P : τ → Prop}
    {s : σ} {is : List ι} :
    Always step (fun s => P (view s)) s is ↔
      Always astep P (view s) (outputs step (fun s i => [o s i]) s is) := by
  induction is generalizing s with
  | nil => exact Iff.rfl
  | cons i is ih =>
    rw [Always, ih, hstep]
    exact Iff.rfl

/-- Runs that translate step by step produce the same outputs, where single steps do. -/
theorem outputs_view {μ : Type*} {astep : τ → κ → τ} (view : σ → τ) (q : σ → ι → κ)
    {o : σ → ι → List μ} {ao : τ → κ → List μ} {C : σ → ι → Prop}
    (hstep : ∀ s i, C s i → view (step s i) = astep (view s) (q s i))
    (hout : ∀ s i, C s i → o s i = ao (view s) (q s i)) {s : σ} {is : List ι}
    (h : Along step C s is) :
    outputs step o s is = outputs astep ao (view s) (outputs step (fun s i => [q s i]) s is) := by
  induction is generalizing s with
  | nil => rfl
  | cons i is ih =>
    rw [outputs, ih h.2, hstep s i h.1, hout s i h.1]
    rfl

theorem along_outputs {astep : τ → κ → τ} (view : σ → τ) (o : σ → ι → List κ) {I : σ → Prop}
    {C : σ → ι → Prop} {D : τ → κ → Prop} (hI : ∀ s i, I s → C s i → I (step s i))
    (hstep : ∀ s i, I s → C s i → view (step s i) = run astep (view s) (o s i))
    (hD : ∀ s i, I s → C s i → Along astep D (view s) (o s i))
    {s : σ} {is : List ι} (hs : I s) (h : Along step C s is) :
    Along astep D (view s) (outputs step o s is) := by
  induction is generalizing s with
  | nil => trivial
  | cons i is ih =>
    refine along_append.mpr ⟨hD s i hs h.1, ?_⟩
    rw [← hstep s i hs h.1]
    exact ih (hI s i hs h.1) h.2

/-- Where every step translates, the converse holds as well. -/
theorem along_outputs_iff {astep : τ → κ → τ} (view : σ → τ) (o : σ → ι → List κ)
    {D : τ → κ → Prop} (hstep : ∀ s i, view (step s i) = run astep (view s) (o s i))
    (s : σ) (is : List ι) :
    Along astep D (view s) (outputs step o s is) ↔
      Along step (fun s i => Along astep D (view s) (o s i)) s is := by
  induction is generalizing s with
  | nil => exact Iff.rfl
  | cons i is ih => rw [outputs, along_append, Along, ← hstep, ih]

/-- Amortized counting: a quantity that no step raises by more than its input pays for is
bounded over a run by what all inputs pay. -/
theorem potential_run_le {Ψ : σ → ℕ} {d : ι → ℕ} {I : σ → Prop} {C : σ → ι → Prop}
    (hI : ∀ s i, I s → C s i → I (step s i))
    (hpay : ∀ s i, I s → C s i → Ψ (step s i) ≤ Ψ s + d i)
    {s : σ} {is : List ι} (hs : I s) (h : Along step C s is) :
    Ψ (run step s is) ≤ Ψ s + (is.map d).sum := by
  induction is generalizing s with
  | nil => simp
  | cons i is ih =>
    have hhere := hpay s i hs h.1
    have hrest := ih (hI s i hs h.1) h.2
    simp only [run_cons, List.map_cons, List.sum_cons]
    omega

/-- Amortized counting of outputs: what all inputs pay bounds how many of a kind there are. -/
theorem countP_outputs_le {Ψ : σ → ℕ} {d : ι → ℕ} {o : σ → ι → List κ} {q : κ → Bool}
    (hpay : ∀ s i, (o s i).countP q + Ψ (step s i) ≤ Ψ s + d i) (s : σ) (is : List ι) :
    (outputs step o s is).countP q + Ψ (run step s is) ≤ Ψ s + (is.map d).sum := by
  induction is generalizing s with
  | nil => simp [outputs]
  | cons i is ih =>
    have hhere := hpay s i
    have hrest := ih (step s i)
    simp only [outputs, List.countP_append, run_cons, List.map_cons, List.sum_cons]
    omega

end Machine
