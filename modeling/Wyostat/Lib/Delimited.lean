import Mathlib.Data.List.Infix
import Mathlib.Data.List.TakeWhile
import Mathlib.Tactic.Common

/-! Searching a text for a word, and for a word between two delimiters in a text that the
delimiter splits into pieces. -/
namespace Delimited

variable {α : Type*} [DecidableEq α]

/-- The text from the first occurrence of a pattern on. -/
def search (pat : List α) : List α → Option (List α)
  | [] => if pat = [] then some [] else none
  | c :: text => if pat <+: c :: text then some (c :: text) else search pat text

/-- The pieces with a delimiter between any two. -/
def join (q : α) : List (List α) → List α
  | [] => []
  | [p] => p
  | p :: s :: ps => p ++ q :: join q (s :: ps)

/-- A word between two delimiters. -/
def enclose (q : α) (word : List α) : List α := q :: word ++ [q]

/-- The pieces behind the first inner piece that is the given word. -/
def after (word : List α) : List (List α) → Option (List (List α))
  | _ :: s :: t :: ps => if s = word then some (t :: ps) else after word (s :: t :: ps)
  | _ => none

section Search
variable {pat text : List α}

theorem search_eq_none_iff : search pat text = none ↔ ¬ pat <:+: text := by
  induction text with
  | nil => simp [search, List.infix_nil]
  | cons c text ih =>
    rw [search, List.infix_cons_iff]
    split_ifs with h
    · simp [h]
    · simp [h, ih]

theorem suffix_of_search {found : List α} (h : search pat text = some found) :
    found <:+ text ∧ pat <+: found := by
  induction text with
  | nil =>
    unfold search at h
    split_ifs at h with hpat
    cases h
    exact ⟨List.suffix_rfl, hpat ▸ List.nil_prefix⟩
  | cons c text ih =>
    unfold search at h
    split_ifs at h with hpat
    · cases h
      exact ⟨List.suffix_rfl, hpat⟩
    · exact (ih h).imp_left fun hs => hs.trans (List.suffix_cons c text)

end Search

section Pieces
variable {q : α} {word p : List α}

omit [DecidableEq α] in
theorem join_cons (p : List α) {ps : List (List α)} (h : ps ≠ []) :
    join q (p :: ps) = p ++ q :: join q ps := by
  cases ps with
  | nil => exact absurd rfl h
  | cons s ps => rfl

omit [DecidableEq α] in
theorem mem_of_mem_join {c : α} {ps : List (List α)} (h : c ∈ join q ps) :
    c = q ∨ ∃ p ∈ ps, c ∈ p := by
  induction ps with
  | nil => exact absurd h List.not_mem_nil
  | cons p ps ih =>
    cases ps with
    | nil => exact .inr ⟨p, List.mem_cons_self, h⟩
    | cons s ps =>
      rw [join, List.mem_append, List.mem_cons] at h
      obtain h | h | h := h
      · exact .inr ⟨p, List.mem_cons_self, h⟩
      · exact .inl h
      · exact (ih h).imp_right fun ⟨t, ht, hc⟩ => ⟨t, List.mem_cons_of_mem _ ht, hc⟩

omit [DecidableEq α] in
theorem not_infix_of_not_mem {text : List α} (h : q ∉ text) : ¬ enclose q word <:+: text :=
  fun hi => h (hi.subset List.mem_cons_self)

theorem takeWhile_piece (hp : q ∉ p) (rest : List α) :
    (p ++ q :: rest).takeWhile (· ≠ q) = p := by
  have hall : ∀ c ∈ p, decide (c ≠ q) = true := by
    intro c hc
    simpa using ne_of_mem_of_not_mem hc hp
  rw [List.takeWhile_append_of_pos hall]
  simp

theorem search_piece (hp : q ∉ p) (rest : List α) :
    search (q :: word) (p ++ q :: rest) =
      if word <+: rest then some (q :: rest) else search (q :: word) rest := by
  induction p with
  | nil => simp [search, List.cons_prefix_cons]
  | cons c p ih =>
    rw [List.mem_cons, not_or] at hp
    obtain ⟨hc, hp⟩ := hp
    have hnow : ¬ q :: word <+: c :: (p ++ q :: rest) :=
      fun h => hc (List.cons_prefix_cons.mp h).1
    rw [List.cons_append, search, if_neg hnow, ih hp]

omit [DecidableEq α] in
theorem prefix_join_iff (hword : q ∉ word) (ps : List (List α)) :
    word <+: join q (p :: ps) ↔ word <+: p := by
  cases ps with
  | nil => rfl
  | cons s ps =>
    refine ⟨fun h => ?_, fun h => h.trans (List.prefix_append ..)⟩
    obtain ⟨rest, hrest⟩ := h
    obtain ⟨more, hmore, -⟩ | ⟨more, hmore, htail⟩ := List.append_eq_append_iff.mp hrest
    · exact ⟨more, hmore.symm⟩
    · cases more with
      | nil => exact ⟨[], by simpa using hmore⟩
      | cons c more =>
        injection htail with hq
        simp [hmore, hq] at hword

omit [DecidableEq α] in
theorem word_prefix_iff (hword : q ∉ word) (hp : q ∉ p) (rest : List α) :
    word ++ [q] <+: p ++ q :: rest ↔ word = p := by
  induction word generalizing p with
  | nil =>
    cases p with
    | nil => simp [List.cons_prefix_cons]
    | cons c p => simpa [List.cons_prefix_cons] using fun h => hp (by simp [h])
  | cons d word ih =>
    rw [List.mem_cons, not_or] at hword
    obtain ⟨hd, hword⟩ := hword
    cases p with
    | nil => simpa [List.cons_prefix_cons] using fun h => absurd h.symm hd
    | cons c p =>
      rw [List.mem_cons, not_or] at hp
      obtain ⟨hc, hp⟩ := hp
      simp [List.cons_prefix_cons, ih hword hp]

/-- In a text of pieces a delimited word is found at the first inner piece that equals it. -/
theorem search_join (hword : q ∉ word) {pieces : List (List α)} (h : ∀ p ∈ pieces, q ∉ p) :
    search (enclose q word) (join q pieces) =
      (after word pieces).map fun ps => enclose q word ++ join q ps := by
  induction pieces with
  | nil => simp [join, search, enclose, after]
  | cons p pieces ih =>
    rw [List.forall_mem_cons] at h
    obtain ⟨hp, h⟩ := h
    cases pieces with
    | nil => simpa [join, after] using search_eq_none_iff.mpr (not_infix_of_not_mem hp)
    | cons s pieces =>
      have hs : q ∉ s := h s List.mem_cons_self
      have hih := ih h
      cases pieces with
      | nil =>
        have hnow : ¬ word ++ [q] <+: join q [s] := fun hi => hs (hi.subset (by simp))
        rw [join, enclose, List.cons_append, search_piece hp, if_neg hnow]
        exact hih
      | cons t ps =>
        rw [join, enclose, List.cons_append, search_piece hp, after]
        by_cases hw : s = word
        · subst hw
          have hnow : s ++ [q] <+: join q (s :: t :: ps) := ⟨join q (t :: ps), by simp [join]⟩
          rw [if_pos hnow, if_pos rfl]
          simp [join]
        · have hnow : ¬ word ++ [q] <+: join q (s :: t :: ps) := by
            rw [join, word_prefix_iff hword hs]
            exact fun heq => hw heq.symm
          rw [if_neg hnow, if_neg hw]
          exact hih

omit [DecidableEq α] in
/-- What starts with a delimiter occurs in a text of pieces where a piece but the first has the
rest as its start. -/
theorem infix_join_iff (hword : q ∉ word) (hp : q ∉ p) {ps : List (List α)}
    (h : ∀ s ∈ ps, q ∉ s) : q :: word <:+: join q (p :: ps) ↔ ∃ s ∈ ps, word <+: s := by
  classical
  induction ps generalizing p with
  | nil => simpa [join] using fun hi : q :: word <:+: p => hp (hi.subset List.mem_cons_self)
  | cons s ps ih =>
    rw [List.forall_mem_cons] at h
    obtain ⟨hs, h⟩ := h
    have hiff : q :: word <:+: join q (p :: s :: ps) ↔
        word <+: join q (s :: ps) ∨ q :: word <:+: join q (s :: ps) := by
      rw [← not_iff_not, not_or, ← search_eq_none_iff, ← search_eq_none_iff, join,
        search_piece hp]
      split_ifs with hpre
      · simp [hpre]
      · simp [hpre]
    rw [hiff, prefix_join_iff hword, ih hs h, List.exists_mem_cons_iff]

theorem after_cons (p s : List α) {ps : List (List α)} (h : ps ≠ []) :
    after word (p :: s :: ps) = if s = word then some ps else after word (s :: ps) := by
  cases ps with
  | nil => exact absurd rfl h
  | cons t ps => rfl

theorem after_cons_eq_none_iff (p s : List α) {ps : List (List α)} (h : ps ≠ []) :
    after word (p :: s :: ps) = none ↔ s ≠ word ∧ after word (s :: ps) = none := by
  rw [after_cons p s h]
  split_ifs with hs
  · simp [hs]
  · simp [hs]

end Pieces

end Delimited
