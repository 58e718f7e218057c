import Mathlib.Logic.Function.Basic
import Mathlib.Data.List.Nodup

/-! # Tables with a primary key

A table maps a key to at most one row, and every row is stored under its own key: both are fields
of the structure, so a table with two rows for a key, or with a row under a foreign key, cannot be
built. `keys` lists the keys in insertion order, which makes the searches by a condition
(`find?`, `filter`) executable; `mem_keys` says that it misses none.
-/
namespace Bumpa.Relational
set_option autoImplicit false

/-- Rows of type `V` under the primary key `key`. -/
@[ext]
structure Table (K V : Type) (key : V → K) where
  row : K → Option V
  keys : List K
  key_eq : ∀ {k : K} {v : V}, row k = some v → key v = k
  mem_keys : ∀ {k : K} {v : V}, row k = some v → k ∈ keys

namespace Table
variable {K V : Type} {key : V → K}

/-- The table without rows. -/
def empty : Table K V key where
  row := fun _ => none
  keys := []
  key_eq := by simp
  mem_keys := by simp

/-- The rows in insertion order of their keys. -/
def rows (T : Table K V key) : List V := T.keys.filterMap T.row

theorem mem_rows {T : Table K V key} {v : V} : v ∈ T.rows ↔ T.row (key v) = some v := by
  simp only [rows, List.mem_filterMap]
  constructor
  · rintro ⟨k, _, hk⟩
    rw [T.key_eq hk]
    exact hk
  · intro h
    exact ⟨key v, T.mem_keys h, h⟩

/-- The rows have distinct keys. -/
theorem rows_keys_nodup {T : Table K V key} (h : T.keys.Nodup) : (T.rows.map key).Nodup := by
  have hrows : T.rows.Nodup := by
    refine List.Nodup.filterMap (fun k k' v hv hv' => ?_) h
    rw [← T.key_eq hv, ← T.key_eq hv']
  refine List.Nodup.map_on (fun v hv w hw heq => ?_) hrows
  have hrow := mem_rows.mp hv
  rw [heq, mem_rows.mp hw] at hrow
  exact (Option.some.inj hrow).symm

/-- `SELECT … WHERE p LIMIT 1`. -/
def find? (T : Table K V key) (p : V → Bool) : Option V := T.rows.find? p

theorem find?_eq_some {T : Table K V key} {p : V → Bool} {v : V} (h : T.find? p = some v) :
    T.row (key v) = some v ∧ p v = true :=
  ⟨mem_rows.mp (List.mem_of_find?_eq_some h), List.find?_some h⟩

theorem find?_eq_none {T : Table K V key} {p : V → Bool} (h : T.find? p = none) {k : K} {v : V}
    (hv : T.row k = some v) : p v = false := by
  have hmem : v ∈ T.rows := mem_rows.mpr (by rw [T.key_eq hv]; exact hv)
  simpa using List.find?_eq_none.mp h v hmem

/-- `SELECT … WHERE p`. -/
def filter (T : Table K V key) (p : V → Bool) : List V := T.rows.filter p

variable [DecidableEq K]

/-- Writes `v` as the row of its key, a new row or over the old one. -/
def put (T : Table K V key) (v : V) : Table K V key where
  row := Function.update T.row (key v) (some v)
  keys := if key v ∈ T.keys then T.keys else T.keys ++ [key v]
  key_eq := by
    intro k w h
    by_cases hk : k = key v
    · subst hk
      rw [Function.update_self, Option.some.injEq] at h
      rw [h]
    · rw [Function.update_of_ne hk] at h
      exact T.key_eq h
  mem_keys := by
    intro k w h
    by_cases hk : k = key v
    · subst hk
      split <;> simp_all
    · rw [Function.update_of_ne hk] at h
      have := T.mem_keys h
      split <;> simp [this]

theorem put_row (T : Table K V key) (v : V) (k : K) :
    (T.put v).row k = if k = key v then some v else T.row k := by
  simp only [put, Function.update_apply]

theorem put_row_of_ne (T : Table K V key) (v : V) {k : K} (h : k ≠ key v) :
    (T.put v).row k = T.row k := by
  rw [put_row, if_neg h]

/-- A row that is written as it is. -/
theorem put_self {T : Table K V key} {v : V} (h : T.row (key v) = some v) : T.put v = T := by
  refine Table.ext ?_ ?_
  · exact Function.update_eq_self_iff.mpr h.symm
  · exact if_pos (T.mem_keys h)

theorem foldl_put_mem {rows : List V} {T : Table K V key} {k : K} {v : V}
    (h : (rows.foldl put T).row k = some v) : v ∈ rows ∨ T.row k = some v := by
  induction rows generalizing T with
  | nil => exact Or.inr h
  | cons row rest ih =>
    rcases ih h with hrest | hput
    · exact Or.inl (List.mem_cons_of_mem row hrest)
    · rw [put_row] at hput
      split at hput
      · rw [← Option.some.inj hput]
        exact Or.inl List.mem_cons_self
      · exact Or.inr hput

theorem foldl_put_row_of_ne {rows : List V} {T : Table K V key} {k : K}
    (h : ∀ v ∈ rows, key v ≠ k) : (rows.foldl put T).row k = T.row k := by
  induction rows generalizing T with
  | nil => rfl
  | cons row rest ih =>
    obtain ⟨hne, hrest⟩ := List.forall_mem_cons.mp h
    rw [List.foldl_cons, ih hrest, put_row_of_ne T row (Ne.symm hne)]

/-- The only row for a key among those that are written. -/
theorem foldl_put_row_of_mem {rows : List V} {T : Table K V key} {v : V} (h : v ∈ rows)
    (honly : ∀ w ∈ rows, key w = key v → w = v) : (rows.foldl put T).row (key v) = some v := by
  induction rows generalizing T with
  | nil => cases h
  | cons row rest ih =>
    have hrest : ∀ w ∈ rest, key w = key v → w = v := fun w hw => honly w (List.mem_cons_of_mem _ hw)
    by_cases hmem : v ∈ rest
    · exact ih hmem hrest
    · obtain rfl : v = row := (List.mem_cons.mp h).resolve_right hmem
      have hne : ∀ w ∈ rest, key w ≠ key v := fun w hw heq => hmem (hrest w hw heq ▸ hw)
      rw [List.foldl_cons, foldl_put_row_of_ne hne, put_row, if_pos rfl]

theorem foldl_put_keys {rows : List V} {T : Table K V key} (h : ∀ v ∈ rows, key v ∈ T.keys) :
    (rows.foldl put T).keys = T.keys := by
  induction rows generalizing T with
  | nil => rfl
  | cons row rest ih =>
    obtain ⟨hrow, hrest⟩ := List.forall_mem_cons.mp h
    have hkeys : (T.put row).keys = T.keys := if_pos hrow
    rw [List.foldl_cons, ih (by rwa [hkeys]), hkeys]

theorem put_keys_nodup {T : Table K V key} (h : T.keys.Nodup) (v : V) : (T.put v).keys.Nodup := by
  unfold put
  dsimp only
  split
  · exact h
  · next hnew => exact List.nodup_append'.mpr ⟨h, List.nodup_singleton _, by simpa using hnew⟩

theorem foldl_put_keys_nodup {rows : List V} {T : Table K V key} (h : T.keys.Nodup) :
    (rows.foldl put T).keys.Nodup := by
  induction rows generalizing T with
  | nil => exact h
  | cons row rest ih => exact ih (put_keys_nodup h row)

/-- `UPDATE … SET f WHERE key = k AND p`. -/
def updateWhere (T : Table K V key) (k : K) (p : V → Bool) (f : V → V) : Table K V key :=
  match T.row k with
  | none => T
  | some v => if p v then T.put (f v) else T

theorem updateWhere_row {T : Table K V key} {k : K} {p : V → Bool} {f : V → V}
    (hf : ∀ v, key (f v) = key v) (k' : K) :
    (T.updateWhere k p f).row k' =
      if k' = k then (T.row k).map (fun v => if p v then f v else v) else T.row k' := by
  unfold updateWhere
  split
  · next h =>
    by_cases hk : k' = k
    · rw [if_pos hk, hk, h]
      rfl
    · rw [if_neg hk]
  · next v h =>
    have hkey : key (f v) = k := by rw [hf, T.key_eq h]
    by_cases hk : k' = k
    · subst hk
      rw [if_pos rfl, h, Option.map_some]
      split
      · rw [put_row, if_pos hkey.symm]
      · exact h
    · rw [if_neg hk]
      split
      · exact put_row_of_ne T (f v) (by rw [hkey]; exact hk)
      · rfl

theorem updateWhere_row_of_ne {T : Table K V key} {k : K} {p : V → Bool} {f : V → V}
    (hf : ∀ v, key (f v) = key v) {k' : K} (h : k' ≠ k) :
    (T.updateWhere k p f).row k' = T.row k' := by
  rw [updateWhere_row hf, if_neg h]

/-- `UPDATE … SET f WHERE p`. -/
def updateAll (T : Table K V key) (p : V → Bool) (f : V → V) (hf : ∀ v, key (f v) = key v) :
    Table K V key where
  row := fun k => (T.row k).map fun v => if p v then f v else v
  keys := T.keys
  key_eq := by
    intro k w h
    obtain ⟨v, hv, rfl⟩ := Option.map_eq_some_iff.mp h
    split
    · rw [hf, T.key_eq hv]
    · exact T.key_eq hv
  mem_keys := by
    intro k w h
    obtain ⟨v, hv, _⟩ := Option.map_eq_some_iff.mp h
    exact T.mem_keys hv

omit [DecidableEq K] in
theorem updateAll_row (T : Table K V key) (p : V → Bool) (f : V → V)
    (hf : ∀ v, key (f v) = key v) (k : K) :
    (T.updateAll p f hf).row k = (T.row k).map fun v => if p v then f v else v := rfl

/-- An UPDATE writes its rows one after the other. -/
theorem foldl_put_updateAll (T : Table K V key) (p : V → Bool) (f : V → V)
    (hf : ∀ v, key (f v) = key v) : ((T.filter p).map f).foldl put T = T.updateAll p f hf := by
  have hmem : ∀ {v}, v ∈ T.filter p ↔ T.row (key v) = some v ∧ p v = true := by
    intro v
    rw [filter, List.mem_filter, mem_rows]
  refine Table.ext (funext fun k => ?_) (foldl_put_keys fun w hw => ?_)
  · by_cases h : ∃ v, T.row k = some v ∧ p v = true
    · obtain ⟨v, hrow, hp⟩ := h
      obtain rfl : key v = k := T.key_eq hrow
      have honly : ∀ w ∈ (T.filter p).map f, key w = key (f v) → w = f v := by
        intro w hw heq
        obtain ⟨u, hu, rfl⟩ := List.mem_map.mp hw
        rw [hf, hf] at heq
        have hu' := (hmem.mp hu).1
        rw [heq, hrow] at hu'
        rw [Option.some.inj hu']
      have hwritten : (((T.filter p).map f).foldl put T).row (key (f v)) = some (f v) :=
        foldl_put_row_of_mem (List.mem_map_of_mem (hmem.mpr ⟨hrow, hp⟩)) honly
      rw [hf] at hwritten
      rw [hwritten, updateAll_row, hrow, Option.map_some, if_pos hp]
    · have hne : ∀ w ∈ (T.filter p).map f, key w ≠ k := by
        rintro w hw rfl
        obtain ⟨u, hu, rfl⟩ := List.mem_map.mp hw
        rw [hf] at h
        exact h ⟨u, hmem.mp hu⟩
      rw [foldl_put_row_of_ne hne, updateAll_row]
      cases hrow : T.row k with
      | none => rfl
      | some v => rw [Option.map_some, if_neg fun hp => h ⟨v, hrow, hp⟩]
  · obtain ⟨u, hu, rfl⟩ := List.mem_map.mp hw
    rw [hf]
    exact T.mem_keys (hmem.mp hu).1

end Table
end Bumpa.Relational
