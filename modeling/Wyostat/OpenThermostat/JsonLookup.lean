import Wyostat.OpenThermostat.TimeZone

/-! The look-up in a flat JSON object: it reads what follows the first piece between two quotes
that equals the name, be it a name, a value or the punctuation between them. -/
namespace Wyostat.OpenThermostat
open WString Delimited

/-- A name or value of the objects looked at, without blanks, quotes and backslashes; JSON has no
NUL. -/
structure Word where
  chars : List Char
  nonempty : chars ≠ []
  plain : ∀ c ∈ chars, c ≠ nul ∧ c ≠ ' ' ∧ c ≠ '"' ∧ c ≠ '\\'
  deriving DecidableEq

structure Field where
  name : Word
  value : Word
  deriving DecidableEq

def Field.member (f : Field) : List Char :=
  enclose '"' f.name.chars ++ ':' :: enclose '"' f.value.chars

/-- `{"k1":"v1",...,"kn":"vn"}` -/
def object (fields : List Field) : List Char :=
  '{' :: List.intercalate [','] (fields.map Field.member) ++ ['}']

/-- What stands between the quotes of an object, and behind the last one. -/
def pieces : List Field → List (List Char)
  | [] => []
  | [f] => [f.name.chars, [':'], f.value.chars, ['}']]
  | f :: g :: fields => f.name.chars :: [':'] :: f.value.chars :: [','] :: pieces (g :: fields)

/-- What the look-up reads behind a match. -/
def reading (ps : List (List Char)) : List Char := ((join '"' ps).drop 2).takeWhile (· ≠ '"')

/-- The part of two pieces that it reads: it takes the first two characters for `":`. -/
def behind (s t : List Char) : List Char := if s.length = 1 then t else s.drop 2

/-- Nothing in front of a member is mistaken for its name. -/
def Unshadowed (pre : List Field) (k : Word) : Prop :=
  (∀ f ∈ pre, f.value ≠ k) ∧ (k.chars = [':'] ∨ k.chars = [','] → pre = [])

/-- What is read in place of a member's value when something in front of it is mistaken for its
name. -/
def decoy (k : Word) : List Field → List Char
  | [] => []
  | f :: pre =>
    let next := (pre.head?.elim k Field.name).chars
    if k.chars = [':'] then behind f.value.chars [',']
    else if f.value = k then next
    else if k.chars = [','] then behind next [':']
    else decoy k pre

/-- Nothing in an object is mistaken for a name that it does not have. -/
def Unmistaken (fields : List Field) (name : List Char) : Prop :=
  (∀ f ∈ fields, f.value.chars ≠ name) ∧ (name = [':'] → fields = []) ∧
    (name = [','] → fields.length ≤ 1)

section Pieces

theorem Word.quote_notMem (k : Word) : '"' ∉ k.chars := fun h => (k.plain _ h).2.2.1 rfl

theorem Word.nul_notMem (k : Word) : nul ∉ k.chars := fun h => (k.plain _ h).1 rfl

theorem pieces_cons (f : Field) {fields : List Field} (h : fields ≠ []) :
    pieces (f :: fields) =
      f.name.chars :: [':'] :: f.value.chars :: [','] :: pieces fields := by
  cases fields with
  | nil => exact absurd rfl h
  | cons g fields => rfl

theorem pieces_head (f : Field) (fields : List Field) :
    ∃ ps ≠ [], pieces (f :: fields) = f.name.chars :: [':'] :: f.value.chars :: ps := by
  cases fields with
  | nil => exact ⟨_, List.cons_ne_nil _ _, rfl⟩
  | cons g fields => exact ⟨_, List.cons_ne_nil _ _, rfl⟩

theorem pieces_ne_nil {fields : List Field} (h : fields ≠ []) : pieces fields ≠ [] := by
  cases fields with
  | nil => exact absurd rfl h
  | cons f fields =>
    obtain ⟨ps, -, hps⟩ := pieces_head f fields
    simp [hps]

theorem plain_of_mem_pieces {fields : List Field} :
    ∀ p ∈ pieces fields, ∀ c ∈ p, c ≠ nul ∧ c ≠ ' ' ∧ c ≠ '"' := by
  have hword (k : Word) : ∀ c ∈ k.chars, c ≠ nul ∧ c ≠ ' ' ∧ c ≠ '"' := by
    intro c hc
    obtain ⟨hnul, hblank, hquote, -⟩ := k.plain c hc
    exact ⟨hnul, hblank, hquote⟩
  induction fields with
  | nil => simp [pieces]
  | cons f fields ih =>
    cases fields with
    | nil =>
      simp only [pieces, List.forall_mem_cons]
      exact ⟨hword f.name, by simp [nul], hword f.value, by simp [nul], by simp⟩
    | cons g fields =>
      rw [pieces_cons f (List.cons_ne_nil _ _)]
      simp only [List.forall_mem_cons]
      exact ⟨hword f.name, by simp [nul], hword f.value, by simp [nul], ih⟩

theorem quote_notMem_pieces (fields : List Field) : ∀ p ∈ ['{'] :: pieces fields, '"' ∉ p := by
  rw [List.forall_mem_cons]
  exact ⟨by decide, fun p hp hc => (plain_of_mem_pieces p hp _ hc).2.2 rfl⟩

theorem object_eq_join {fields : List Field} (h : fields ≠ []) :
    object fields = join '"' (['{'] :: pieces fields) := by
  have hrest : List.intercalate [','] (fields.map Field.member) ++ ['}'] =
      '"' :: join '"' (pieces fields) := by
    induction fields with
    | nil => exact absurd rfl h
    | cons f fields ih =>
      cases fields with
      | nil => simp [pieces, join, Field.member, enclose]
      | cons g fields =>
        have hg := ih (List.cons_ne_nil _ _)
        have hne := pieces_ne_nil (List.cons_ne_nil g fields)
        rw [List.map_cons, List.intercalate_cons_of_ne_nil (by simp), List.append_assoc, hg,
          pieces_cons f (List.cons_ne_nil _ _)]
        simp [join, join_cons _ hne, Field.member, enclose]
  rw [object, List.cons_append, hrest, join_cons _ (pieces_ne_nil h)]
  rfl

theorem plain_of_mem_object {fields : List Field} {c : Char} (h : c ∈ object fields) :
    c ≠ nul ∧ c ≠ ' ' := by
  cases fields with
  | nil =>
    have hall : ∀ c ∈ object [], c ≠ nul ∧ c ≠ ' ' := by simp [object, nul]
    exact hall c h
  | cons f fields =>
    rw [object_eq_join (List.cons_ne_nil _ _)] at h
    obtain rfl | ⟨p, hp, hc⟩ := mem_of_mem_join h
    · decide
    · obtain rfl | hp := List.mem_cons.mp hp
      · rw [List.mem_singleton.mp hc]
        decide
      · exact ⟨(plain_of_mem_pieces p hp c hc).1, (plain_of_mem_pieces p hp c hc).2.1⟩

theorem nul_notMem_object (fields : List Field) : nul ∉ object fields :=
  fun h => (plain_of_mem_object h).1 rfl

theorem blank_notMem_object (fields : List Field) : ' ' ∉ object fields :=
  fun h => (plain_of_mem_object h).2 rfl

end Pieces

section Reading
variable {s t : List Char} {ps : List (List Char)}

/-- The look-up reads on from the third character behind the match, no further than the piece
after the next. -/
theorem reading_cons (hs : s ≠ []) (hps : ps ≠ []) (hquote : '"' ∉ s) (ht : '"' ∉ t) :
    reading (s :: t :: ps) = behind s t := by
  rw [reading, join_cons _ (List.cons_ne_nil _ _), join_cons _ hps, behind]
  split_ifs with hone
  · obtain ⟨c, rfl⟩ := List.length_eq_one_iff.mp hone
    exact takeWhile_piece ht _
  · have hlong : 2 ≤ s.length := by
      have hpos := List.length_pos_iff.mpr hs
      omega
    rw [List.drop_append_of_le_length hlong]
    exact takeWhile_piece (fun h => hquote (List.mem_of_mem_drop h)) _

end Reading

section Lookup
variable {k : Word}

theorem jsonLookup_object_eq_notFound_iff (fields : List Field) (name : List Char) :
    jsonLookup (object fields) name = notFound ↔
      ¬ cString (enclose '"' name) <:+: object fields := by
  have hobject := cString_eq_self (nul_notMem_object fields)
  have hblank : ' ' ∉ cString (object fields) := hobject.symm ▸ blank_notMem_object fields
  rw [jsonLookup_eq_notFound_iff hblank, hobject]

theorem search_object (fields : List Field) {name : List Char} (hquote : '"' ∉ name) :
    search (enclose '"' name) (object fields) =
      (after name (['{'] :: pieces fields)).map fun ps => enclose '"' name ++ join '"' ps := by
  cases fields with
  | nil => exact search_eq_none_iff.mpr (not_infix_of_not_mem (by decide))
  | cons f fields =>
    rw [object_eq_join (List.cons_ne_nil _ _), search_join hquote (quote_notMem_pieces _)]

theorem jsonLookup_object (fields : List Field) {name : List Char} (hquote : '"' ∉ name)
    (hnul : nul ∉ name) :
    jsonLookup (object fields) name =
      (after name (['{'] :: pieces fields)).elim notFound reading := by
  rw [jsonLookup_eq, cString_eq_self (nul_notMem_object fields),
    cString_eq_self (nul_notMem_enclose hnul), search_object fields hquote]
  cases after name (['{'] :: pieces fields) with
  | none => rfl
  | some ps =>
    have hlength : name.length + 4 = (enclose '"' name).length + 2 := by simp [enclose]
    rw [Option.map_some, Option.elim_some, Option.elim_some, hlength,
      List.drop_length_add_append]
    rfl

theorem unshadowed_cons {f : Field} {pre : List Field} (hcolon : k.chars ≠ [':'])
    (hcomma : k.chars ≠ [',']) (hvalue : f.value ≠ k) :
    Unshadowed (f :: pre) k ↔ Unshadowed pre k := by
  simp [Unshadowed, hcolon, hcomma, hvalue]

theorem Word.eq_iff {v : Word} : v = k ↔ v.chars = k.chars :=
  ⟨congrArg Word.chars, fun h => by cases v; cases k; simp_all⟩

theorem after_of_unshadowed {pre : List Field} (hnames : ∀ f ∈ pre, f.name ≠ k)
    (h : Unshadowed pre k) (v : Word) (post : List Field) (p : List Char) :
    ∃ ps ≠ [], after k.chars (p :: pieces (pre ++ ⟨k, v⟩ :: post)) =
      some ([':'] :: v.chars :: ps) := by
  induction pre generalizing p with
  | nil =>
    obtain ⟨ps, hps, hpieces⟩ := pieces_head ⟨k, v⟩ post
    refine ⟨ps, hps, ?_⟩
    rw [List.nil_append, hpieces, after_cons _ _ (List.cons_ne_nil _ _), if_pos rfl]
  | cons f pre ih =>
    rw [List.forall_mem_cons] at hnames
    obtain ⟨hname, hnames⟩ := hnames
    have hcolon : k.chars ≠ [':'] := fun hk => List.cons_ne_nil _ _ (h.2 (.inl hk))
    have hcomma : k.chars ≠ [','] := fun hk => List.cons_ne_nil _ _ (h.2 (.inr hk))
    have hvalue : f.value ≠ k := h.1 f List.mem_cons_self
    have hrest : pre ++ ⟨k, v⟩ :: post ≠ [] := by simp
    rw [List.cons_append, pieces_cons f hrest, after_cons _ _ (List.cons_ne_nil _ _),
      if_neg fun hk => hname (Word.eq_iff.mpr hk), after_cons _ _ (List.cons_ne_nil _ _),
      if_neg hcolon.symm, after_cons _ _ (List.cons_ne_nil _ _),
      if_neg fun hk => hvalue (Word.eq_iff.mpr hk), after_cons _ _ (pieces_ne_nil hrest),
      if_neg hcomma.symm]
    exact ih hnames ((unshadowed_cons hcolon hcomma hvalue).mp h) [',']

/-- A shadowed member is read at the decoy, whatever its value. -/
theorem after_of_shadowed {pre : List Field} (hnames : ∀ f ∈ pre, f.name ≠ k)
    (h : ¬ Unshadowed pre k) (v : Word) (post : List Field) (p : List Char) :
    ∃ ps, after k.chars (p :: pieces (pre ++ ⟨k, v⟩ :: post)) = some ps ∧
      reading ps = decoy k pre := by
  induction pre generalizing p with
  | nil => exact absurd ⟨by simp, fun _ => rfl⟩ h
  | cons f pre ih =>
    rw [List.forall_mem_cons] at hnames
    obtain ⟨hname, hnames⟩ := hnames
    have hrest : pre ++ ⟨k, v⟩ :: post ≠ [] := by simp
    obtain ⟨ps, hps, hhead⟩ : ∃ ps ≠ [], pieces (pre ++ ⟨k, v⟩ :: post) =
        (pre.head?.elim k Field.name).chars :: [':'] :: ps := by
      cases pre with
      | nil =>
        obtain ⟨ps, -, hps⟩ := pieces_head ⟨k, v⟩ post
        exact ⟨_, List.cons_ne_nil _ _, hps⟩
      | cons g pre =>
        obtain ⟨ps, -, hps⟩ := pieces_head g (pre ++ ⟨k, v⟩ :: post)
        exact ⟨_, List.cons_ne_nil _ _, hps⟩
    generalize hnext : pre.head?.elim k Field.name = next at hhead
    rw [List.cons_append, pieces_cons f hrest, after_cons _ _ (List.cons_ne_nil _ _),
      if_neg fun hk => hname (Word.eq_iff.mpr hk), after_cons _ _ (List.cons_ne_nil _ _), decoy,
      hnext]
    by_cases hcolon : k.chars = [':']
    · rw [if_pos hcolon.symm, if_pos hcolon]
      exact ⟨_, rfl, reading_cons f.value.nonempty (pieces_ne_nil hrest) f.value.quote_notMem
        (by decide)⟩
    rw [if_neg (Ne.symm hcolon), if_neg hcolon, after_cons _ _ (List.cons_ne_nil _ _)]
    by_cases hvalue : f.value = k
    · rw [if_pos (Word.eq_iff.mp hvalue), if_pos hvalue, hhead]
      exact ⟨_, rfl, reading_cons (List.cons_ne_nil _ _) (List.cons_ne_nil _ _) (by decide)
        next.quote_notMem⟩
    rw [if_neg fun hk => hvalue (Word.eq_iff.mpr hk), if_neg hvalue,
      after_cons _ _ (pieces_ne_nil hrest)]
    by_cases hcomma : k.chars = [',']
    · rw [if_pos hcomma.symm, if_pos hcomma, hhead]
      exact ⟨_, rfl, reading_cons next.nonempty hps next.quote_notMem (by decide)⟩
    · rw [if_neg (Ne.symm hcomma), if_neg hcomma]
      exact ih hnames (fun hpre => h ((unshadowed_cons hcolon hcomma hvalue).mpr hpre)) [',']

theorem after_eq_none_iff {fields : List Field} {name : List Char}
    (hnames : ∀ f ∈ fields, f.name.chars ≠ name) (p : List Char) :
    after name (p :: pieces fields) = none ↔ Unmistaken fields name := by
  induction fields generalizing p with
  | nil => simp [pieces, after, Unmistaken]
  | cons f fields ih =>
    rw [List.forall_mem_cons] at hnames
    obtain ⟨hname, hnames⟩ := hnames
    cases fields with
    | nil =>
      have hiff : Unmistaken [f] name ↔ [':'] ≠ name ∧ f.value.chars ≠ name := by
        simp [Unmistaken, and_comm, eq_comm]
      rw [hiff, pieces, after_cons_eq_none_iff _ _ (List.cons_ne_nil _ _),
        after_cons_eq_none_iff _ _ (List.cons_ne_nil _ _),
        after_cons_eq_none_iff _ _ (List.cons_ne_nil _ _)]
      simp [hname, after]
    | cons g fields =>
      have hiff : Unmistaken (f :: g :: fields) name ↔
          [':'] ≠ name ∧ f.value.chars ≠ name ∧ [','] ≠ name ∧ Unmistaken (g :: fields) name := by
        simp only [Unmistaken, List.forall_mem_cons]
        grind
      have hrest := pieces_ne_nil (List.cons_ne_nil g fields)
      rw [hiff, pieces_cons f (List.cons_ne_nil _ _),
        after_cons_eq_none_iff _ _ (List.cons_ne_nil _ _),
        after_cons_eq_none_iff _ _ (List.cons_ne_nil _ _),
        after_cons_eq_none_iff _ _ (List.cons_ne_nil _ _),
        after_cons_eq_none_iff _ _ hrest, ih hnames]
      simp [hname]

/-- A name that holds a NUL is searched without its closing quote. -/
theorem jsonLookup_object_of_nul (fields : List Field) {name : List Char} (hquote : '"' ∉ name)
    (hnul : nul ∈ name) :
    jsonLookup (object fields) name = notFound ↔
      ∀ p ∈ pieces fields, ¬ cString name <+: p := by
  rw [jsonLookup_object_eq_notFound_iff, cString_enclose, cString_append_of_nul hnul]
  cases fields with
  | nil =>
    have hquotes : '"' ∉ object [] := by decide
    exact iff_of_true (fun h => hquotes (h.subset List.mem_cons_self)) (by simp [pieces])
  | cons f fields =>
    have hword : '"' ∉ cString name :=
      fun h => hquote ((List.takeWhile_prefix _).subset h)
    have hpieces := quote_notMem_pieces (f :: fields)
    rw [List.forall_mem_cons] at hpieces
    rw [object_eq_join (List.cons_ne_nil _ _), infix_join_iff hword hpieces.1 hpieces.2]
    simp

/-- The look-up is right where nothing else between two quotes is mistaken for the name: a value
in front of the member, or a colon or a comma between pieces. -/
theorem lookup_correct_iff (fields : List Field) (hdistinct : (fields.map Field.name).Nodup) :
    (∀ (pre post : List Field) (k v : Word), fields = pre ++ ⟨k, v⟩ :: post →
      (jsonLookup (object fields) k.chars = v.chars ↔
        Unshadowed pre k ∨ v.chars = decoy k pre)) ∧
    ∀ name : List Char, '"' ∉ name → (∀ f ∈ fields, f.name.chars ≠ name) →
      (jsonLookup (object fields) name = notFound ↔
        if nul ∈ name then ∀ p ∈ pieces fields, ¬ cString name <+: p
        else Unmistaken fields name) := by
  constructor
  · rintro pre post k v rfl
    rw [List.map_append, List.nodup_append] at hdistinct
    have hnames : ∀ f ∈ pre, f.name ≠ k := fun f hf =>
      hdistinct.2.2 f.name (List.mem_map_of_mem hf) k (by simp)
    rw [jsonLookup_object _ k.quote_notMem k.nul_notMem]
    by_cases h : Unshadowed pre k
    · obtain ⟨ps, hps, hafter⟩ := after_of_unshadowed hnames h v post ['{']
      have hread : reading ([':'] :: v.chars :: ps) = v.chars :=
        reading_cons (List.cons_ne_nil _ _) hps (by decide) v.quote_notMem
      rw [hafter, Option.elim_some, hread]
      exact iff_of_true rfl (.inl h)
    · obtain ⟨ps, hafter, hread⟩ := after_of_shadowed hnames h v post ['{']
      rw [hafter, Option.elim_some, hread, or_iff_right h, eq_comm]
  · intro name hquote hnames
    split_ifs with hnul
    · exact jsonLookup_object_of_nul fields hquote hnul
    · rw [jsonLookup_object_eq_notFound_iff, cString_eq_self (nul_notMem_enclose hnul),
        ← search_eq_none_iff, search_object fields hquote, Option.map_eq_none_iff,
        after_eq_none_iff hnames]

def utcWord : Word := ⟨utc, by decide, by simp [utc, nul]⟩

def zeroWord : Word := ⟨['0'], by decide, by simp [nul]⟩

/-- `{"tz":"utc","utc":"0"}` -/
def misleading : List Field :=
  [⟨⟨['t', 'z'], by decide, by simp [nul]⟩, utcWord⟩, ⟨utcWord, zeroWord⟩]

/-- The name is taken for the value that is spelled like it. -/
theorem misleading_misread :
    (misleading.map Field.name).Nodup ∧ ¬ ∀ f ∈ misleading,
      jsonLookup (object misleading) f.name.chars = f.value.chars := by
  decide

theorem lookup_correct_iff_misleading :
    (jsonLookup (object misleading) utc = ['0'] ↔
      Unshadowed (misleading.take 1) utcWord ∨ ['0'] = utc) ∧
    jsonLookup (object misleading) ['t'] = notFound := by
  have hdistinct : (misleading.map Field.name).Nodup := by decide
  constructor
  · exact (lookup_correct_iff misleading hdistinct).1 (misleading.take 1) [] utcWord zeroWord rfl
  · refine ((lookup_correct_iff misleading hdistinct).2 ['t'] (by decide) (by decide)).mpr ?_
    rw [if_neg (by decide)]
    unfold Unmistaken
    decide

end Lookup

end Wyostat.OpenThermostat
