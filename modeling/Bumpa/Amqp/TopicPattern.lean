import Mathlib.Data.List.Infix

/-! # Patterns of topic exchanges

A pattern is a list of segments and matches lists of words: a word stands for itself, `one` for any
word, `many` for any number of words.

* `Matches`: what a pattern means; `matchWords` decides it (`matchWords_iff`).
* `matches_read`: a pattern that is read off a list of words matches that list.
* `matches_words_iff`: a pattern without wildcards matches one list.

`words` splits a routing key at its dots, and loses nothing (`words_injective`).
-/
namespace Bumpa.Amqp
set_option autoImplicit false

universe u
variable {α : Type u}

inductive Segment (α : Type u) where
  | word (w : α)
  | one
  | many

inductive Matches : List (Segment α) → List α → Prop
  | nil : Matches [] []
  | word {ps : List (Segment α)} {ws : List α} (w : α) (rest : Matches ps ws) :
      Matches (.word w :: ps) (w :: ws)
  | one {ps : List (Segment α)} {ws : List α} (w : α) (rest : Matches ps ws) :
      Matches (.one :: ps) (w :: ws)
  | many {ps : List (Segment α)} {ws : List α} (skipped : List α) (rest : Matches ps ws) :
      Matches (.many :: ps) (skipped ++ ws)

/-- However the segments are read off the words, a wildcard matches the word it was read off. -/
theorem matches_read {read : α → Segment α} (hread : ∀ w w', read w = .word w' → w' = w)
    (ws : List α) : Matches (ws.map read) ws := by
  induction ws with
  | nil => exact .nil
  | cons w ws ih =>
    rw [List.map_cons]
    cases h : read w with
    | word w' =>
      rw [hread w w' h]
      exact .word w ih
    | one => exact .one w ih
    | many => exact .many [w] ih

theorem matches_words_iff (ws ws' : List α) : Matches (ws.map .word) ws' ↔ ws' = ws := by
  induction ws generalizing ws' with
  | nil =>
    constructor
    · intro h
      cases h
      rfl
    · rintro rfl
      exact .nil
  | cons w ws ih =>
    constructor
    · intro h
      cases h with
      | word _ rest => rw [(ih _).mp rest]
    · rintro rfl
      exact .word w ((ih ws).mpr rfl)

variable [DecidableEq α]

def matchWords : List (Segment α) → List α → Bool
  | [], ws => ws.isEmpty
  | .word _ :: _, [] => false
  | .word w :: ps, w' :: ws => w = w' && matchWords ps ws
  | .one :: _, [] => false
  | .one :: ps, _ :: ws => matchWords ps ws
  | .many :: ps, ws => ws.tails.any fun rest => matchWords ps rest

theorem matchWords_iff (ps : List (Segment α)) (ws : List α) :
    matchWords ps ws = true ↔ Matches ps ws := by
  induction ps generalizing ws with
  | nil =>
    rw [matchWords, List.isEmpty_iff]
    constructor
    · rintro rfl
      exact .nil
    · intro h
      cases h
      rfl
  | cons p ps ih =>
    constructor
    · intro h
      cases p with
      | word w =>
        cases ws with
        | nil => cases h
        | cons w' ws =>
          rw [matchWords, Bool.and_eq_true, decide_eq_true_eq] at h
          obtain ⟨rfl, hrest⟩ := h
          exact .word w ((ih ws).mp hrest)
      | one =>
        cases ws with
        | nil => cases h
        | cons w ws => exact .one w ((ih ws).mp h)
      | many =>
        rw [matchWords, List.any_eq_true] at h
        obtain ⟨rest, hsuffix, hrest⟩ := h
        obtain ⟨skipped, rfl⟩ := (List.mem_tails _ _).mp hsuffix
        exact .many skipped ((ih rest).mp hrest)
    · intro h
      cases h with
      | word w rest => simp [matchWords, (ih _).mpr rest]
      | one w rest => exact (ih _).mpr rest
      | many skipped rest =>
        rw [matchWords, List.any_eq_true]
        exact ⟨_, (List.mem_tails _ _).mpr (List.suffix_append _ _), (ih _).mpr rest⟩

/-! ## Routing keys -/

/-- The words between the dots; the empty key has none. -/
def words (key : String) : List (List Char) :=
  if key.toList = [] then [] else key.toList.splitOn '.'

theorem words_injective {key key' : String} (h : words key = words key') : key = key' := by
  have hnil : ∀ l : List Char, l.splitOn '.' ≠ [] := fun l => List.splitOn_ne_nil '.' l
  unfold words at h
  refine String.toList_injective ?_
  split at h
  · next hempty =>
    split at h
    · next hempty' => rw [hempty, hempty']
    · exact absurd h.symm (hnil _)
  · split at h
    · exact absurd h (hnil _)
    · have hjoin := fun l : List Char =>
        (List.intercalate_splitOn '.' : ['.'].intercalate (l.splitOn '.') = l)
      exact (hjoin _).symm.trans ((congrArg _ h).trans (hjoin _))

def readSegment (word : List Char) : Segment (List Char) :=
  if word = ['*'] then .one else if word = ['#'] then .many else .word word

def topicMatches (pattern key : String) : Bool :=
  matchWords ((words pattern).map readSegment) (words key)

theorem topicMatches_self (key : String) : topicMatches key key = true := by
  refine (matchWords_iff _ _).mpr (matches_read (fun w w' h => ?_) _)
  unfold readSegment at h
  split at h
  · cases h
  · split at h <;> cases h
    rfl

/-- No word of the key is a wildcard. -/
def isLiteral (key : String) : Bool := (words key).all fun word => word ≠ ['*'] && word ≠ ['#']

theorem topicMatches_of_literal {pattern : String} (h : isLiteral pattern = true) (key : String) :
    topicMatches pattern key = true ↔ key = pattern := by
  have hwords : (words pattern).map readSegment = (words pattern).map .word := by
    refine List.map_congr_left fun word hword => ?_
    have hplain := List.all_eq_true.mp h word hword
    simp only [ne_eq, decide_not, Bool.and_eq_true, Bool.not_eq_true', decide_eq_false_iff_not]
      at hplain
    rw [readSegment, if_neg hplain.1, if_neg hplain.2]
  rw [topicMatches, matchWords_iff, hwords, matches_words_iff]
  exact ⟨words_injective, fun hkey => by rw [hkey]⟩

end Bumpa.Amqp
