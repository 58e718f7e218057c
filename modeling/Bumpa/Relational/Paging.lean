import Bumpa.Relational.Table
import Mathlib.Data.List.Dedup
import Mathlib.Data.List.Perm.Basic
import Mathlib.Data.List.Sort

/-! # Pages of an ordered query

`ORDER BY` leaves open how rows that tie are ordered, and two queries may order them differently. A
page is cut out of one of these answers by `OFFSET` and `LIMIT`. Where no two rows tie there is one
answer only (`Ordered.unique`), and the pages that are asked for one after the other make it up
(`Ordered.walk`).
-/
namespace Bumpa.Relational
set_option autoImplicit false

section Pages
variable {α : Type} {limit : ℕ} {found : List α}

/-- `OFFSET (page - 1) * limit LIMIT limit` -/
def pageOf (limit page : ℕ) (found : List α) : List α := (found.drop ((page - 1) * limit)).take limit

def totalPages (limit total : ℕ) : ℕ := max 1 ((total + limit - 1) / limit)

theorem le_totalPages_mul (h : 0 < limit) (total : ℕ) : total ≤ totalPages limit total * limit := by
  have hdiv := Nat.div_add_mod' (total + limit - 1) limit
  have hmod := Nat.mod_lt (total + limit - 1) h
  calc
    total ≤ (total + limit - 1) / limit * limit := by omega
    _ ≤ totalPages limit total * limit := Nat.mul_le_mul_right limit (le_max_right _ _)

theorem flatten_pages (limit n : ℕ) (found : List α) :
    ((List.range n).map fun i => pageOf limit (i + 1) found).flatten = found.take (n * limit) := by
  induction n with
  | zero => simp
  | succ n ih =>
    rw [List.range_succ, List.map_append, List.flatten_append, ih, Nat.succ_mul, List.take_add]
    simp [pageOf]

/-- The pages up to the last one are everything that is found. -/
theorem flatten_allPages (h : 0 < limit) (found : List α) :
    ((List.range (totalPages limit found.length)).map fun i => pageOf limit (i + 1) found).flatten =
      found := by
  rw [flatten_pages]
  exact List.take_of_length_le (le_totalPages_mul h found.length)

end Pages

namespace Table
variable {K V : Type} {key : V → K}

/-- An answer to `SELECT … WHERE p ORDER BY …`. -/
structure Ordered (T : Table K V key) (p : V → Bool) (before : V → V → Prop) (found : List V) :
    Prop where
  nodup : found.Nodup
  mem : ∀ v, v ∈ found ↔ T.row (key v) = some v ∧ p v = true
  sorted : found.Pairwise before

/-- No two rows tie. -/
def Untied (T : Table K V key) (before : V → V → Prop) : Prop :=
  ∀ v w, T.row (key v) = some v → T.row (key w) = some w → before v w → before w v → v = w

variable {T : Table K V key} {p : V → Bool} {before : V → V → Prop}

theorem Ordered.unique {found found' : List V} (huntied : T.Untied before)
    (h : T.Ordered p before found) (h' : T.Ordered p before found') : found = found' := by
  have hperm : found.Perm found' :=
    (List.perm_ext_iff_of_nodup h.nodup h'.nodup).mpr fun v => (h.mem v).trans (h'.mem v).symm
  refine hperm.eq_of_pairwise (fun v w hv hw hvw hwv => ?_) h.sorted h'.sorted
  exact huntied v w ((h.mem v).mp hv).1 ((h'.mem w).mp hw).1 hvw hwv

open Classical in
/-- There is an answer. -/
theorem exists_ordered (T : Table K V key) (p : V → Bool) [Std.Total before] [IsTrans V before] :
    ∃ found, T.Ordered p before found := by
  refine ⟨((T.rows.filter p).dedup).insertionSort before, ?_, fun v => ?_, ?_⟩
  · exact (List.perm_insertionSort before _).nodup_iff.mpr (List.nodup_dedup _)
  · rw [List.mem_insertionSort, List.mem_dedup, List.mem_filter, mem_rows]
  · exact List.pairwise_insertionSort before _

/-- Each page is cut out of an answer of its own, and their number is what one of them says. -/
structure Walk (T : Table K V key) (p : V → Bool) (before : V → V → Prop) (limit : ℕ)
    (pages : List (List V)) : Prop where
  page : ∀ i (h : i < pages.length),
    ∃ found, T.Ordered p before found ∧ pages[i] = pageOf limit (i + 1) found
  stops : ∃ found, T.Ordered p before found ∧ pages.length = totalPages limit found.length

/-- A walk over the pages gives the whole answer. -/
theorem Walk.ordered {limit : ℕ} {pages : List (List V)} (huntied : T.Untied before)
    (hlimit : 0 < limit) (h : T.Walk p before limit pages) : T.Ordered p before pages.flatten := by
  obtain ⟨found, hfound, hlength⟩ := h.stops
  have hpages : pages =
      (List.range (totalPages limit found.length)).map fun i => pageOf limit (i + 1) found := by
    refine List.ext_getElem (by rw [List.length_map, List.length_range, hlength]) fun i hi _ => ?_
    obtain ⟨found', hfound', hpage⟩ := h.page i hi
    rw [hpage, hfound'.unique huntied hfound, List.getElem_map, List.getElem_range]
  rw [hpages, flatten_allPages hlimit]
  exact hfound

end Table
end Bumpa.Relational
