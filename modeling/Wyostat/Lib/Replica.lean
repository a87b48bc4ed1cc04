import Wyostat.Lib.Run

/-! A register written through a first-in first-out channel that also carries the
register's own reports back to it. A report that repeats the newest value of the
channel is harmless; a stale one undoes the writes ahead of it. -/
namespace Replica

open Machine

variable {α β : Type*}

/-- A value in the channel; `own` marks the reports of the register itself. -/
structure Packet (α : Type*) where
  own : Bool
  value : α
  deriving DecidableEq, Repr

/-- The value held, and the values still on their way, oldest first. -/
structure Register (α : Type*) where
  held : α
  pending : List (Packet α)

inductive Act (α : Type*) where
  | write (a : α)
  | report
  | deliver

def step (r : Register α) : Act α → Register α
  | .write a => { r with pending := r.pending ++ [⟨false, a⟩] }
  | .report => { r with pending := r.pending ++ [⟨true, r.held⟩] }
  | .deliver =>
    match r.pending with
    | [] => r
    | p :: rest => ⟨p.value, rest⟩

/-- The value a register holding `a` will hold once the packets have arrived. -/
def final (a : α) (ps : List (Packet α)) : α := (ps.getLast?.map Packet.value).getD a

/-- The value the register will hold once everything on its way has arrived. -/
def newest (r : Register α) : α := final r.held r.pending

/-- A report is fresh when it repeats the newest value. -/
def Fresh (r : Register α) : Act α → Prop
  | .report => newest r = r.held
  | _ => True

instance [DecidableEq α] (r : Register α) (a : Act α) : Decidable (Fresh r a) :=
  match a with
  | .report => inferInstanceAs (Decidable (newest r = r.held))
  | .write _ => .isTrue trivial
  | .deliver => .isTrue trivial

def Act.written : Act α → Option α
  | .write a => some a
  | _ => none

def Act.isReport : Act α → Bool
  | .report => true
  | _ => false

/-- The last value written from outside. -/
def lastWrite (acts : List (Act α)) : Option α := (acts.filterMap Act.written).getLast?

/-- The act by which a packet enters the channel. -/
def Packet.act (p : Packet α) : Act α := if p.own then .report else .write p.value

/-- Every report among the packets repeats the value before it, the first one `a`. -/
def Repeats : α → List (Packet α) → Prop
  | _, [] => True
  | a, p :: ps => (p.own = true → p.value = a) ∧ Repeats p.value ps

/-- No delivery of a report is going to change the register. -/
def Settled (r : Register α) : Prop := Repeats r.held r.pending

instance decidableRepeats [DecidableEq α] :
    (a : α) → (ps : List (Packet α)) → Decidable (Repeats a ps)
  | _, [] => .isTrue trivial
  | a, p :: ps =>
    have := decidableRepeats p.value ps
    inferInstanceAs (Decidable ((p.own = true → p.value = a) ∧ Repeats p.value ps))

instance [DecidableEq α] (r : Register α) : Decidable (Settled r) :=
  inferInstanceAs (Decidable (Repeats _ _))

@[simp] theorem final_nil (a : α) : final a [] = a := rfl

@[simp] theorem final_append_singleton (a : α) (ps : List (Packet α)) (p : Packet α) :
    final a (ps ++ [p]) = p.value := by simp [final]

theorem final_cons (a : α) (p : Packet α) (ps : List (Packet α)) :
    final a (p :: ps) = final p.value ps := by
  simp only [final, List.getLast?_cons]
  cases ps.getLast? <;> rfl

theorem held_of_drained {r : Register α} (h : r.pending = []) : r.held = newest r := by
  simp [newest, h]

@[simp] theorem newest_deliver (r : Register α) : newest (step r .deliver) = newest r := by
  rcases r with ⟨held, _ | ⟨p, rest⟩⟩
  · rfl
  · exact (final_cons held p rest).symm

/-- Runs whose reports are all fresh lose no write. -/
theorem newest_run {r : Register α} {acts : List (Act α)} (h : Along step Fresh r acts) :
    newest (run step r acts) = (lastWrite acts).getD (newest r) := by
  induction acts generalizing r with
  | nil => rfl
  | cons a acts ih =>
    rw [run_cons, ih h.2]
    cases a with
    | write a =>
      simp only [newest, step, final_append_singleton, lastWrite, List.filterMap_cons,
        Act.written, List.getLast?_cons]
      cases (acts.filterMap Act.written).getLast? <;> rfl
    | report =>
      have hfresh : newest r = r.held := h.1
      rw [hfresh]
      simp only [newest, step, final_append_singleton, lastWrite, List.filterMap_cons,
        Act.written]
    | deliver => rw [newest_deliver]; rfl

theorem repeats_append_singleton {a : α} {ps : List (Packet α)} {p : Packet α} :
    Repeats a (ps ++ [p]) ↔ Repeats a ps ∧ (p.own = true → p.value = final a ps) := by
  induction ps generalizing a with
  | nil => simp [Repeats]
  | cons q ps ih => simp [Repeats, ih, final_cons, and_assoc]

/-- Writes behind the packets do not unsettle them. -/
theorem repeats_append_writes {a : α} {ps qs : List (Packet α)} (h : Repeats a ps)
    (hqs : ∀ q ∈ qs, q.own = false) : Repeats a (ps ++ qs) := by
  induction ps generalizing a with
  | nil =>
    clear h
    induction qs generalizing a with
    | nil => trivial
    | cons q qs ih =>
      refine ⟨fun hown => ?_, ih fun p hp => hqs p (List.mem_cons_of_mem q hp)⟩
      rw [hqs q List.mem_cons_self] at hown
      cases hown
  | cons p ps ih => exact ⟨h.1, ih h.2⟩

theorem settled_step {r : Register α} {a : Act α} (h : Settled r) (hf : Fresh r a) :
    Settled (step r a) := by
  cases a with
  | write a => exact repeats_append_singleton.mpr ⟨h, fun hown => nomatch hown⟩
  | report => exact repeats_append_singleton.mpr ⟨h, fun _ => hf.symm⟩
  | deliver =>
    rcases r with ⟨held, _ | ⟨p, rest⟩⟩
    · exact h
    · exact h.2

theorem settled_run {r : Register α} {acts : List (Act α)} (h : Settled r)
    (hf : Along step Fresh r acts) : Settled (run step r acts) :=
  (always_of_along (fun _ _ => settled_step) h hf).last

/-- Packets enter the channel in order, provided that reports carry the value held. -/
theorem run_acts {r : Register α} {ps : List (Packet α)}
    (h : ∀ p ∈ ps, p.own = true → p.value = r.held) :
    run step r (ps.map Packet.act) = { r with pending := r.pending ++ ps } := by
  induction ps generalizing r with
  | nil => simp
  | cons p ps ih =>
    have hstep : step r p.act = { r with pending := r.pending ++ [p] } := by
      rcases p with ⟨_ | _, a⟩
      · rfl
      · have ha : a = r.held := h ⟨true, a⟩ (by simp) rfl
        rw [ha]
        rfl
    have hrest := ih (r := ⟨r.held, r.pending ++ [p]⟩) fun q hq => h q (List.mem_cons_of_mem p hq)
    rw [List.map_cons, run_cons, hstep, hrest]
    simp

/-- The packets that concern a register, translated for it. -/
def Packet.filterMap (f : α → Option β) (ps : List (Packet α)) : List (Packet β) :=
  ps.filterMap fun p => (f p.value).map (Packet.mk p.own)

theorem Packet.filterMap_append (f : α → Option β) (ps qs : List (Packet α)) :
    Packet.filterMap f (ps ++ qs) = Packet.filterMap f ps ++ Packet.filterMap f qs :=
  List.filterMap_append

theorem Packet.filterMap_cons (f : α → Option β) (p : Packet α) (ps : List (Packet α)) :
    Packet.filterMap f (p :: ps) =
      ((f p.value).map (Packet.mk p.own)).toList ++ Packet.filterMap f ps := by
  cases h : f p.value <;> simp [Packet.filterMap, h]

/-- The value a packet writes from outside. -/
def Packet.written (p : Packet α) : Option α := if p.own then none else some p.value

theorem filterMap_written_acts (ps : List (Packet α)) :
    (ps.map Packet.act).filterMap Act.written = ps.filterMap Packet.written := by
  induction ps with
  | nil => rfl
  | cons p ps ih => rcases p with ⟨_ | _, a⟩ <;> 
      simp [Packet.act, Packet.written, Act.written, List.filterMap_cons, ih]

theorem filterMap_written_filterMap (f : α → Option β) (ps : List (Packet α)) :
    (Packet.filterMap f ps).filterMap Packet.written =
      (ps.filterMap Packet.written).filterMap f := by
  induction ps with
  | nil => rfl
  | cons p ps ih =>
    rw [Packet.filterMap_cons, List.filterMap_append, ih]
    rcases p with ⟨_ | _, a⟩ <;> cases h : f a <;> simp [Packet.written, h]

theorem filterMap_written_filter (q : α → Bool) (ps : List (Packet α)) :
    (ps.filter fun p => q p.value).filterMap Packet.written =
      (ps.filterMap Packet.written).filter q := by
  induction ps with
  | nil => rfl
  | cons p ps ih =>
    rcases p with ⟨_ | _, a⟩ <;> cases hq : q a <;> simp [Packet.written, hq, ih]

@[simp] theorem filterMap_written_map_false (as : List α) :
    (as.map (Packet.mk false)).filterMap Packet.written = as := by
  rw [List.filterMap_map]
  exact List.filterMap_some

theorem filterMap_filter_of_isSome {f : α → Option β} {q : α → Bool} (h : ∀ a, (f a).isSome → q a)
    (as : List α) : (as.filter q).filterMap f = as.filterMap f := by
  rw [List.filterMap_filter]
  apply List.filterMap_congr
  intro a _
  cases hf : f a with
  | none => simp
  | some b => rw [if_pos (h a (by simp [hf]))]

section Turns
variable {μ : Type*} (accept : μ → Option α)

/-- What a turn of the owner does to the register it keeps for the messages that `accept`
reads: packets enter the channel, the head of the queue, if any, is handed over, and the
packets of the turn itself follow. -/
def turn (before : List (Packet μ)) (head : Option (Packet μ)) (arrivals : List (Packet μ)) :
    List (Act α) :=
  (Packet.filterMap accept before).map Packet.act ++
    (if (head.bind fun p => accept p.value).isSome then [.deliver] else []) ++
    (Packet.filterMap accept arrivals).map Packet.act

variable {accept} {held next : α} {inflight before arrivals : List (Packet μ)} {handed : Bool}

theorem own_of_mem_filterMap {ps : List (Packet μ)} (h : ∀ p ∈ ps, p.own = false) {q : Packet α}
    (hq : q ∈ Packet.filterMap accept ps) : q.own = false := by
  obtain ⟨p, hp, hpq⟩ := List.mem_filterMap.mp hq
  obtain ⟨v, -, rfl⟩ := Option.map_eq_some_iff.mp hpq
  exact h p hp

theorem run_deliver {queue : List (Packet μ)}
    (hnext : next =
      ((if handed then queue.head? else none).bind fun p => accept p.value).getD held) :
    run step ⟨held, Packet.filterMap accept queue⟩
        (if ((if handed then queue.head? else none).bind fun p => accept p.value).isSome then
          [.deliver] else []) =
      ⟨next, Packet.filterMap accept (if handed then queue.tail else queue)⟩ := by
  subst hnext
  cases handed with
  | false => rfl
  | true =>
    cases queue with
    | nil => rfl
    | cons p rest =>
      cases hp : accept p.value with
      | none => simp [hp, Packet.filterMap_cons]
      | some v => simp [hp, Packet.filterMap_cons, step]

/-- A turn is a run of the register, provided that it stores what it accepts and reports what
it holds. -/
theorem run_turn (hbefore : ∀ p ∈ before, p.own = false)
    (hnext : next = ((if handed then (inflight ++ before).head? else none).bind fun p =>
      accept p.value).getD held)
    (hreport : ∀ p ∈ arrivals, p.own = true → ∀ v ∈ accept p.value, v = next) :
    run step ⟨held, Packet.filterMap accept inflight⟩
        (turn accept before (if handed then (inflight ++ before).head? else none) arrivals) =
      ⟨next, Packet.filterMap accept
        ((if handed then (inflight ++ before).tail else inflight ++ before) ++ arrivals)⟩ := by
  have hqueue : run step ⟨held, Packet.filterMap accept inflight⟩
      ((Packet.filterMap accept before).map Packet.act) =
      ⟨held, Packet.filterMap accept (inflight ++ before)⟩ := by
    rw [run_acts fun p hp hown => ?_, Packet.filterMap_append]
    rw [own_of_mem_filterMap hbefore hp] at hown
    cases hown
  rw [turn, run_append, run_append, hqueue, run_deliver hnext, run_acts, Packet.filterMap_append]
  intro q hq hown
  obtain ⟨p, hp, hpq⟩ := List.mem_filterMap.mp hq
  obtain ⟨v, hv, rfl⟩ := Option.map_eq_some_iff.mp hpq
  exact hreport p hp hown v hv

theorem written_turn (accept : μ → Option α) (before : List (Packet μ)) (head : Option (Packet μ))
    (arrivals : List (Packet μ)) :
    (turn accept before head arrivals).filterMap Act.written =
      ((before ++ arrivals).filterMap Packet.written).filterMap accept := by
  have hdeliver (c : Prop) [Decidable c] :
      (if c then [Act.deliver] else ([] : List (Act α))).filterMap Act.written = [] := by
    split_ifs <;> rfl
  rw [turn, List.filterMap_append, List.filterMap_append, hdeliver, filterMap_written_acts,
    filterMap_written_acts, filterMap_written_filterMap, filterMap_written_filterMap,
    List.append_nil, List.filterMap_append, List.filterMap_append]

theorem isReport_act (p : Packet α) : p.act.isReport = p.own := by
  rcases p with ⟨_ | _, a⟩ <;> rfl

theorem own_filterMap_le (ps : List (Packet μ)) :
    (Packet.filterMap accept ps).countP Packet.own ≤ ps.countP Packet.own := by
  induction ps with
  | nil => exact Nat.le_refl _
  | cons p ps ih =>
    rw [Packet.filterMap_cons, List.countP_append, List.countP_cons, add_comm]
    apply Nat.add_le_add ih
    cases accept p.value <;> simp

theorem reports_turn (before : List (Packet μ)) (head : Option (Packet μ))
    (arrivals : List (Packet μ)) :
    (turn accept before head arrivals).countP Act.isReport =
      (Packet.filterMap accept (before ++ arrivals)).countP Packet.own := by
  have hacts (ps : List (Packet α)) : (ps.map Packet.act).countP Act.isReport =
      ps.countP Packet.own := by
    rw [List.countP_map, funext (f := Act.isReport ∘ Packet.act) isReport_act]
  have hdeliver (c : Prop) [Decidable c] :
      (if c then [Act.deliver] else ([] : List (Act α))).countP Act.isReport = 0 := by
    split_ifs <;> rfl
  rw [turn, List.countP_append, List.countP_append, hdeliver, hacts, hacts,
    Packet.filterMap_append, List.countP_append]
  rfl

end Turns

section OneReport
variable {r : Register α} {acts : List (Act α)} {a : α}

/-- Nothing on its way to the register is going to change it. -/
def Calm (r : Register α) : Prop := ∀ p ∈ r.pending, p.value = r.held

theorem newest_of_calm (h : Calm r) : newest r = r.held := by
  rw [newest, final]
  cases hlast : r.pending.getLast? with
  | none => rfl
  | some p => exact h p (List.mem_of_getLast? hlast)

theorem calm_report (h : Calm r) : Calm (step r .report) := by
  intro p hp
  rcases List.mem_append.mp hp with hp | hp
  · exact h p hp
  · rw [List.mem_singleton.mp hp]
    rfl

theorem calm_deliver (h : Calm r) : Calm (step r .deliver) := by
  rcases r with ⟨held, _ | ⟨p, rest⟩⟩
  · exact h
  · intro q hq
    exact (h q (List.mem_cons_of_mem p hq)).trans (h p List.mem_cons_self).symm

theorem fresh_of_no_report (h : acts.countP Act.isReport = 0) (r : Register α) :
    Along step Fresh r acts := by
  apply along_of_forall_mem
  intro b hb s
  cases b with
  | report => exact absurd rfl (List.countP_eq_zero.mp h _ hb)
  | write _ => trivial
  | deliver => trivial

theorem newest_run_eq_self_iff (hwrites : acts.filterMap Act.written = [])
    (hreports : acts.countP Act.isReport ≤ 1) :
    newest (run step r acts) = newest r ↔ Along step Fresh r acts := by
  constructor
  · intro h
    induction acts generalizing r with
    | nil => trivial
    | cons b acts ih =>
      cases b with
      | write b => simp [Act.written] at hwrites
      | deliver =>
        rw [run_cons, ← newest_deliver r] at h
        exact ⟨trivial, ih hwrites (by simpa [Act.isReport] using hreports) h⟩
      | report =>
        have hrest : acts.countP Act.isReport = 0 := by
          rw [List.countP_cons_of_pos rfl] at hreports
          omega
        have hfresh := fresh_of_no_report hrest (step r .report)
        refine ⟨?_, hfresh⟩
        have hnewest : newest (step r .report) = r.held := final_append_singleton ..
        have hwrites : acts.filterMap Act.written = [] := hwrites
        rw [run_cons, newest_run hfresh, lastWrite, hwrites, hnewest] at h
        exact h.symm
  · intro h
    rw [newest_run h, lastWrite, hwrites]
    rfl

/-- A single write to a calm register survives a single report exactly when that is fresh. -/
theorem newest_run_eq_iff (hr : Calm r) (hwrites : acts.filterMap Act.written = [a])
    (hreports : acts.countP Act.isReport ≤ 1) :
    newest (run step r acts) = a ↔ Along step Fresh r acts := by
  induction acts generalizing r with
  | nil => cases hwrites
  | cons b acts ih =>
    cases b with
    | write b =>
      obtain ⟨rfl, hrest⟩ := List.cons.inj hwrites
      have hnewest : newest (step r (.write b)) = b := final_append_singleton ..
      have hself := newest_run_eq_self_iff (r := step r (.write b)) hrest
        (by simpa [Act.isReport] using hreports)
      rw [hnewest] at hself
      rw [run_cons, hself]
      exact (and_iff_right trivial).symm
    | report =>
      have hcount : acts.countP Act.isReport ≤ 1 := by
        rw [List.countP_cons_of_pos rfl] at hreports
        omega
      rw [run_cons, ih (calm_report hr) hwrites hcount]
      exact (and_iff_right (newest_of_calm hr)).symm
    | deliver =>
      rw [run_cons, ih (calm_deliver hr) hwrites (by simpa [Act.isReport] using hreports)]
      exact (and_iff_right trivial).symm

end OneReport

section Lists

/-- Each list of the second argument goes before the next element of the first. -/
def interleave : List α → List (List α) → List α
  | [], during => during.flatten
  | a :: as, [] => a :: as
  | a :: as, bs :: during => bs ++ a :: interleave as during

theorem interleave_perm (as : List α) (during : List (List α)) :
    (interleave as during).Perm (as ++ during.flatten) := by
  induction as generalizing during with
  | nil => exact .refl _
  | cons a as ih =>
    cases during with
    | nil => simp [interleave]
    | cons bs during =>
      rw [interleave, List.flatten_cons]
      calc List.Perm (bs ++ a :: interleave as during) (a :: (bs ++ interleave as during)) :=
            List.perm_middle
        List.Perm _ (a :: (bs ++ (as ++ during.flatten))) := ((ih during).append_left bs).cons a
        List.Perm _ (a :: as ++ (bs ++ during.flatten)) := by
          rw [List.cons_append, ← List.append_assoc, ← List.append_assoc]
          exact (List.perm_append_comm.append_right _).cons a

theorem mem_interleave {a : α} {as : List α} {during : List (List α)} :
    a ∈ interleave as during ↔ a ∈ as ∨ a ∈ during.flatten := by
  rw [(interleave_perm as during).mem_iff, List.mem_append]

theorem filterMap_interleave {f : α → Option β} {as : List α} (h : ∀ a ∈ as, f a = none)
    (during : List (List α)) :
    (interleave as during).filterMap f = during.flatten.filterMap f := by
  induction as generalizing during with
  | nil => rfl
  | cons a as ih =>
    have ha : f a = none := h a List.mem_cons_self
    have has : ∀ a ∈ as, f a = none := fun a ha => h a (List.mem_cons_of_mem _ ha)
    cases during with
    | nil => simpa [interleave, ha] using has
    | cons bs during =>
      rw [interleave, List.filterMap_append, List.filterMap_cons, ha, ih has, List.flatten_cons,
        List.filterMap_append]

variable [DecidableEq α]

/-- The value stored last under a key. -/
def latest (k : α) (l : List (α × β)) : Option β :=
  ((l.filter (·.1 = k)).getLast?).map Prod.snd

theorem latest_append (k : α) (xs ys : List (α × β)) :
    latest k (xs ++ ys) = (latest k ys).or (latest k xs) := by
  rw [latest, List.filter_append, List.getLast?_append, Option.map_or]
  rfl

@[simp] theorem latest_nil (k : α) : latest k ([] : List (α × β)) = none := rfl

theorem latest_singleton (j k : α) (b : β) :
    latest k [(j, b)] = if j = k then some b else none := by
  split_ifs with h <;> simp [latest, h]

/-- A keyed content to which every step adds what it stores, is after a run the last value
stored under each key. -/
theorem latest_run {σ ι : Type*} {step : σ → ι → σ} (held : σ → α → β)
    (o : σ → ι → List (α × β)) {I : σ → Prop} (hI : ∀ s i, I s → I (step s i))
    (hstep : ∀ s i k, I s → held (step s i) k = (latest k (o s i)).getD (held s k))
    {s : σ} (hs : I s) (is : List ι) (k : α) :
    held (run step s is) k = (latest k (outputs step o s is)).getD (held s k) := by
  induction is generalizing s with
  | nil => rfl
  | cons i is ih =>
    rw [run_cons, ih (hI s i hs), hstep s i k hs, outputs, latest_append]
    cases latest k (outputs step o (step s i) is) <;> rfl

end Lists

end Replica
