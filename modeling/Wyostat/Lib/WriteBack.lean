import Wyostat.Lib.Run

/-! A value that is kept elsewhere and edited in a copy: the copy is stored when asked to, but only
if an edit has changed it since. -/
namespace WriteBack
open Machine

variable {β : Type*}

/-- How storing ends: well, with an error that is noticed, or with one that is not. -/
inductive Result (β : Type*) where
  | done
  | refused (left : β)
  | unnoticed (left : β)

inductive Op (β : Type*) where
  | load
  | edit (f : β → β)
  | store (r : Result β)
  | unload
  | crash

/-- What is kept, the copy while there is one, and whether an edit has changed it. -/
structure Copy (β : Type*) where
  kept : β
  now : Option β
  dirty : Bool

/-- The same without the flag. -/
structure Plain (β : Type*) where
  kept : β
  now : Option β

def Copy.store (c : Copy β) (b : β) : Result β → Copy β
  | .done => ⟨b, some b, false⟩
  | .refused left => ⟨left, some b, c.dirty⟩
  | .unnoticed left => ⟨left, some b, false⟩

def step [DecidableEq β] (c : Copy β) : Op β → Copy β
  | .load => { c with now := some c.kept }
  | .edit f => match c.now with
    | none => c
    | some b => { c with now := some (f b), dirty := c.dirty || decide (f b ≠ b) }
  | .store r => match c.now with
    | none => c
    | some b => if c.dirty then c.store b r else c
  | .unload => { c with now := none }
  | .crash => ⟨c.kept, none, false⟩

/-- Storing always stores. -/
def Plain.step (p : Plain β) : Op β → Plain β
  | .load => { p with now := some p.kept }
  | .edit f => { p with now := p.now.map f }
  | .store .done => { p with kept := p.now.getD p.kept }
  | .store (.refused left) | .store (.unnoticed left) =>
    { p with kept := p.now.elim p.kept fun _ => left }
  | .unload | .crash => { p with now := none }

def Copy.plain (c : Copy β) : Plain β := ⟨c.kept, c.now⟩

/-- A copy that no edit has changed is what is kept. -/
def Copy.Sound (c : Copy β) : Prop := c.dirty = false → ∀ b ∈ c.now, b = c.kept

/-- Nothing fails unnoticed. -/
def Honest (c : Copy β) : Op β → Prop
  | .store (.unnoticed left) => c.dirty = true → ∀ b ∈ c.now, b = left
  | _ => True

/-- Nothing fails. -/
def Op.Works : Op β → Prop
  | .store (.refused _) | .store (.unnoticed _) => False
  | _ => True

theorem honest_of_works {op : Op β} (hop : op.Works) (c : Copy β) : Honest c op := by
  cases op with
  | store r =>
    cases r with
    | unnoticed left => cases hop
    | _ => trivial
  | _ => trivial

variable [DecidableEq β] {c : Copy β}

/-- A step keeps a copy sound exactly when nothing fails unnoticed in it. -/
theorem sound_step_iff (h : c.Sound) (op : Op β) : (step c op).Sound ↔ Honest c op := by
  rcases c with ⟨kept, _ | b, dirty⟩
  · cases op with
    | load => simp [step, Copy.Sound, Honest]
    | edit f => simp [step, Copy.Sound, Honest]
    | store r => cases r <;> simp [step, Copy.Sound, Honest]
    | unload => simp [step, Copy.Sound, Honest]
    | crash => simp [step, Copy.Sound, Honest]
  · cases op with
    | load => simp [step, Copy.Sound, Honest]
    | edit f =>
      simp only [Honest, iff_true]
      intro hclean b' hb'
      obtain ⟨hdirty, hsame⟩ : dirty = false ∧ f b = b := by simpa [step] using hclean
      cases hb'
      exact hsame.trans (h hdirty b rfl)
    | store r =>
      cases dirty with
      | false => cases r <;> simpa [step, Honest] using h
      | true => cases r <;> simp [step, Copy.store, Copy.Sound, Honest]
    | unload => simp [step, Copy.Sound, Honest]
    | crash => simp [step, Copy.Sound, Honest]

/-- Where nothing fails, the flag makes no difference. -/
theorem plain_step (h : c.Sound) {op : Op β} (hop : op.Works) :
    (step c op).plain = c.plain.step op := by
  rcases c with ⟨kept, _ | b, dirty⟩
  · cases op with
    | store r =>
      cases r with
      | done => rfl
      | refused left => cases hop
      | unnoticed left => cases hop
    | _ => rfl
  · cases op with
    | store r =>
      cases r with
      | done =>
        cases dirty with
        | true => rfl
        | false =>
          have hkept : b = kept := h rfl b rfl
          subst hkept
          rfl
      | refused left => cases hop
      | unnoticed left => cases hop
    | _ => rfl

theorem plain_run (h : c.Sound) {ops : List (Op β)} (hops : ∀ op ∈ ops, op.Works) :
    (run step c ops).plain = run Plain.step c.plain ops := by
  induction ops generalizing c with
  | nil => rfl
  | cons op ops ih =>
    have hop := hops op List.mem_cons_self
    rw [run_cons, run_cons, ← plain_step h hop]
    exact ih ((sound_step_iff h op).mpr (honest_of_works hop c))
      fun o ho => hops o (List.mem_cons_of_mem _ ho)

end WriteBack
