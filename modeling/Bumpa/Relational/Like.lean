import Mathlib.Data.List.Infix

/-! # ILIKE

A pattern is read into tokens: `%` for any text, `_` for any character, and every other character
for itself, as is what follows a backslash, the default escape character. A pattern that ends in the
escape character cannot be read. ILIKE folds the case of text and pattern first.

`ilike_iff`: `%search%` finds the texts that contain `search` if there is nothing special in it. If
there is, it finds a text that does not contain it (`ilike_shortest`, `not_contains_shortest`).
-/
namespace Bumpa.Relational
set_option autoImplicit false

inductive Token where
  | any
  | one
  | char (c : Char)
  deriving DecidableEq, Repr

def parsePattern : List Char → Option (List Token)
  | [] => some []
  | ['\\'] => none
  | '\\' :: c :: pattern => (parsePattern pattern).map (.char c :: ·)
  | '%' :: pattern => (parsePattern pattern).map (.any :: ·)
  | '_' :: pattern => (parsePattern pattern).map (.one :: ·)
  | c :: pattern => (parsePattern pattern).map (.char c :: ·)

def matchTokens : List Token → List Char → Bool
  | [], text => text.isEmpty
  | .any :: tokens, text => text.tails.any (matchTokens tokens)
  | .one :: _, [] => false
  | .one :: tokens, _ :: text => matchTokens tokens text
  | .char _ :: _, [] => false
  | .char c :: tokens, c' :: text => decide (c = c') && matchTokens tokens text

def IsSpecial (c : Char) : Prop := c = '\\' ∨ c = '%' ∨ c = '_'

instance (c : Char) : Decidable (IsSpecial c) := inferInstanceAs (Decidable (_ ∨ _ ∨ _))

/-- Nothing but a special character itself folds to it. -/
structure CaseFolding where
  fold : Char → Char
  fold_eq : ∀ {c c' : Char}, IsSpecial c' → (fold c = c' ↔ c = c')

namespace CaseFolding
variable (cf : CaseFolding)

def apply (text : List Char) : List Char := text.map cf.fold

def ilike (text pattern : List Char) : Bool :=
  (parsePattern (cf.apply pattern)).any fun tokens => matchTokens tokens (cf.apply text)

/-- Contains it in upper or lower case. -/
def Contains (text search : List Char) : Prop := cf.apply search <:+: cf.apply text

instance (text search : List Char) : Decidable (cf.Contains text search) :=
  inferInstanceAs (Decidable (_ <:+: _))

/-- The folding of the ASCII letters. -/
def ascii : CaseFolding where
  fold := Char.toLower
  fold_eq := by
    intro c c' h
    unfold Char.toLower
    split
    · next hupper =>
      simp only [ge_iff_le, UInt32.le_iff_toNat_le] at hupper
      rcases h with rfl | rfl | rfl
      all_goals
        simp only [Char.ext_iff, UInt32.ext_iff]
        simp at hupper ⊢
        omega
    · rfl

/-- The pattern of a search. -/
def enclosed (search : List Char) : List Char := '%' :: (search ++ ['%'])

end CaseFolding

/-! ## Tokens -/

@[simp] theorem matchTokens_any {tokens : List Token} {text : List Char} :
    matchTokens (.any :: tokens) text = true ↔
      ∃ rest, rest <:+ text ∧ matchTokens tokens rest = true := by
  simp only [matchTokens, List.any_eq_true, List.mem_tails]

/-- Characters and then any text are a prefix. -/
theorem matchTokens_chars {chars text : List Char} :
    matchTokens (chars.map .char ++ [.any]) text = true ↔ chars <+: text := by
  induction chars generalizing text with
  | nil =>
    rw [List.map_nil, List.nil_append, matchTokens_any]
    exact iff_of_true ⟨[], List.nil_suffix, rfl⟩ List.nil_prefix
  | cons c chars ih =>
    cases text with
    | nil => simp [matchTokens]
    | cons c' text =>
      rw [List.map_cons, List.cons_append, matchTokens, Bool.and_eq_true, decide_eq_true_eq, ih,
        List.cons_prefix_cons]

theorem parsePattern_plain {c : Char} (h : ¬ IsSpecial c) (pattern : List Char) :
    parsePattern (c :: pattern) = (parsePattern pattern).map (.char c :: ·) := by
  simp only [IsSpecial, not_or] at h
  obtain ⟨hescape, hany, hone⟩ := h
  rw [parsePattern]
  all_goals simp_all

/-- What a search without anything special is read as. -/
theorem parsePattern_search {search : List Char} (h : ∀ c ∈ search, ¬ IsSpecial c) :
    parsePattern (search ++ ['%']) = some (search.map .char ++ [.any]) := by
  induction search with
  | nil => rfl
  | cons c search ih =>
    obtain ⟨hc, hrest⟩ := List.forall_mem_cons.mp h
    rw [List.cons_append, parsePattern_plain hc, ih hrest]
    rfl

/-- A text that a search finds: without the `%`, and with an `a` for every `_`. A backslash at the
end of the search escapes the `%` after it. -/
def shortest : List Char → List Char
  | [] => []
  | ['\\'] => ['%']
  | '\\' :: c :: search => c :: shortest search
  | '%' :: search => shortest search
  | '_' :: search => 'a' :: shortest search
  | c :: search => c :: shortest search

/-- The last case of `shortest`. -/
theorem not_isSpecial {c : Char} {search : List Char} (hlast : c = '\\' → search = [] → False)
    (hescaped : ∀ c' rest, c = '\\' → search = c' :: rest → False) (hpercent : c = '%' → False)
    (hunderscore : c = '_' → False) : ¬ IsSpecial c := by
  rintro (rfl | rfl | rfl)
  · cases search with
    | nil => exact hlast rfl rfl
    | cons c' rest => exact hescaped c' rest rfl rfl
  · exact hpercent rfl
  · exact hunderscore rfl

theorem shortest_length_le (search : List Char) : (shortest search).length ≤ search.length := by
  fun_induction shortest search <;> simp only [List.length_cons, List.length_nil] <;> omega

namespace CaseFolding
variable (cf : CaseFolding)

@[simp] theorem fold_special {c : Char} (h : IsSpecial c) : cf.fold c = c := (cf.fold_eq h).mpr rfl

theorem isSpecial_fold {c : Char} : IsSpecial (cf.fold c) ↔ IsSpecial c := by
  simp only [IsSpecial, cf.fold_eq (Or.inl rfl), cf.fold_eq (Or.inr (Or.inl rfl)),
    cf.fold_eq (Or.inr (Or.inr rfl))]

theorem apply_search (search : List Char) :
    cf.apply (enclosed search) = '%' :: (cf.apply search ++ ['%']) := by
  simp [apply, enclosed, cf.fold_special (Or.inr (Or.inl rfl))]

theorem ilike_enclosed {text search : List Char} : cf.ilike text (enclosed search) = true ↔
    ∃ tokens, parsePattern (cf.apply search ++ ['%']) = some tokens ∧
      ∃ rest, rest <:+ cf.apply text ∧ matchTokens tokens rest = true := by
  rw [ilike, apply_search, parsePattern]
  cases parsePattern (cf.apply search ++ ['%']) with
  | none => simp
  | some tokens => simp

/-- A search without anything special finds what contains it. -/
theorem ilike_iff {text search : List Char} (h : ∀ c ∈ search, ¬ IsSpecial c) :
    cf.ilike text (enclosed search) = true ↔ cf.Contains text search := by
  have hplain : ∀ c ∈ cf.apply search, ¬ IsSpecial c := by
    intro c hc
    obtain ⟨c', hc', rfl⟩ := List.mem_map.mp hc
    exact fun hspecial => h c' hc' (cf.isSpecial_fold.mp hspecial)
  rw [ilike_enclosed, parsePattern_search hplain, Contains, List.infix_iff_prefix_suffix]
  simp only [Option.some.injEq, exists_eq_left', matchTokens_chars]
  exact ⟨fun ⟨rest, hsuffix, hprefix⟩ => ⟨rest, hprefix, hsuffix⟩,
    fun ⟨rest, hprefix, hsuffix⟩ => ⟨rest, hsuffix, hprefix⟩⟩

theorem apply_cons (c : Char) (text : List Char) : cf.apply (c :: text) = cf.fold c :: cf.apply text :=
  rfl

/-- A search finds its shortest text. -/
theorem matches_shortest (search : List Char) :
    ∃ tokens, parsePattern (cf.apply search ++ ['%']) = some tokens ∧
      matchTokens tokens (cf.apply (shortest search)) = true := by
  have hescape : cf.fold '\\' = '\\' := cf.fold_special (Or.inl rfl)
  have hany : cf.fold '%' = '%' := cf.fold_special (Or.inr (Or.inl rfl))
  have hone : cf.fold '_' = '_' := cf.fold_special (Or.inr (Or.inr rfl))
  fun_induction shortest search with
  | case1 => exact ⟨[.any], rfl, rfl⟩
  | case2 =>
    refine ⟨[.char '%'], ?_, ?_⟩
    · simp [apply, hescape, parsePattern]
    · simp [apply, hany, matchTokens]
  | case3 c search ih =>
    obtain ⟨tokens, hparse, hmatch⟩ := ih
    refine ⟨.char (cf.fold c) :: tokens, ?_, ?_⟩
    · simp [apply_cons, hescape, parsePattern, hparse]
    · simp [apply_cons, matchTokens, hmatch]
  | case4 search ih =>
    obtain ⟨tokens, hparse, hmatch⟩ := ih
    refine ⟨.any :: tokens, ?_, matchTokens_any.mpr ⟨_, List.suffix_refl _, hmatch⟩⟩
    simp [apply_cons, hany, parsePattern, hparse]
  | case5 search ih =>
    obtain ⟨tokens, hparse, hmatch⟩ := ih
    refine ⟨.one :: tokens, ?_, ?_⟩
    · simp [apply_cons, hone, parsePattern, hparse]
    · simp [apply_cons, matchTokens, hmatch]
  | case6 c search hlast hescaped hpercent hunderscore ih =>
    obtain ⟨tokens, hparse, hmatch⟩ := ih
    have hplain := not_isSpecial hlast hescaped hpercent hunderscore
    refine ⟨.char (cf.fold c) :: tokens, ?_, ?_⟩
    · rw [apply_cons, List.cons_append, parsePattern_plain (mt cf.isSpecial_fold.mp hplain), hparse]
      rfl
    · simp [apply_cons, matchTokens, hmatch]

/-- A text that ends in the shortest one is found. -/
theorem ilike_shortest {text search : List Char} (h : shortest search <:+ text) :
    cf.ilike text (enclosed search) = true := by
  obtain ⟨tokens, hparse, hmatch⟩ := cf.matches_shortest search
  exact cf.ilike_enclosed.mpr ⟨tokens, hparse, _, h.map cf.fold, hmatch⟩

theorem shortest_plain {search : List Char}
    (h : cf.apply (shortest search) = cf.apply search) : ∀ c ∈ search, ¬ IsSpecial c := by
  fun_induction shortest search with
  | case1 => exact fun _ hc => absurd hc List.not_mem_nil
  | case2 =>
    have heq : cf.fold '%' = cf.fold '\\' := List.singleton_inj.mp h
    rw [cf.fold_special (Or.inl rfl), cf.fold_eq (Or.inl rfl)] at heq
    exact absurd heq (by decide)
  | case3 c search ih =>
    have hlength := congrArg List.length h
    have hle := shortest_length_le search
    simp only [apply, List.length_map, List.length_cons] at hlength
    omega
  | case4 search ih =>
    have hlength := congrArg List.length h
    have hle := shortest_length_le search
    simp only [apply, List.length_map, List.length_cons] at hlength
    omega
  | case5 search ih =>
    have heq : cf.fold 'a' = cf.fold '_' := (List.cons.inj h).1
    rw [cf.fold_special (Or.inr (Or.inr rfl)), cf.fold_eq (Or.inr (Or.inr rfl))] at heq
    exact absurd heq (by decide)
  | case6 c search hlast hescaped hpercent hunderscore ih =>
    exact List.forall_mem_cons.mpr
      ⟨not_isSpecial hlast hescaped hpercent hunderscore, ih (List.cons.inj h).2⟩

/-- The shortest text of a search with something special does not contain it. -/
theorem not_contains_shortest {search : List Char} (h : ¬ ∀ c ∈ search, ¬ IsSpecial c) :
    ¬ cf.Contains (shortest search) search := by
  intro hcontains
  refine h (cf.shortest_plain (hcontains.eq_of_length_le ?_).symm)
  simpa only [apply, List.length_map] using shortest_length_le search

end CaseFolding

end Bumpa.Relational
