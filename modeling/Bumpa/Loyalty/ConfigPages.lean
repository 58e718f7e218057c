import Bumpa.Loyalty.AdminOrdering
import Bumpa.Relational.Like
import Bumpa.Relational.Paging
import Mathlib.Data.String.Basic

/-! # `listGroups`, `listAchievements` and `listBadges`

A list is ordered by positions (achievements by their groups first, as the database collates them),
and the database answers each page with a query of its own. A search is one condition for the name and
one for the description; descriptions are a column that nothing else reads.

`config_walked`: in every state that calls lead to, a walk over the pages of a query shows each row
that it selects once and in order, whatever order the database gives to rows that tie: none do.
-/
namespace Bumpa.Loyalty
open Bumpa.Relational Bumpa.Order Bumpa.Transition
set_option autoImplicit false

/-! ## Queries -/

structure ListConfigQueryDto where
  page : Option ℕ
  limit : Option ℕ
  search : Option String
  active : Option Bool
  deriving DecidableEq, Repr

structure ListAchievementConfigQueryDto extends ListConfigQueryDto where
  groupKey : Option String
  deriving DecidableEq, Repr

/-- `FindOptionsWhere<…>`: `name` and `description` are patterns. -/
structure ConfigWhere where
  groupKey : Option String
  active : Option Bool
  name : Option String
  description : Option String
  deriving DecidableEq, Repr

/-- `query.search ? … : …` -/
def ConfigWhere.searching (baseWhere : ConfigWhere) (search : Option String) : List ConfigWhere :=
  match search.filter (· ≠ "") with
  | none => [baseWhere]
  | some search =>
    let pattern := "%" ++ search ++ "%"
    [{ baseWhere with name := some pattern }, { baseWhere with description := some pattern }]

def buildAchievementWhere (query : ListAchievementConfigQueryDto) : List ConfigWhere :=
  ConfigWhere.searching ⟨query.groupKey.filter (· ≠ ""), query.active, none, none⟩ query.search

def buildBadgeWhere (query : ListConfigQueryDto) : List ConfigWhere :=
  ConfigWhere.searching ⟨none, query.active, none, none⟩ query.search

structure PaginationMeta where
  page : ℕ
  limit : ℕ
  total : ℕ
  totalPages : ℕ
  deriving DecidableEq, Repr

structure Paginated (V : Type) where
  items : List V
  metadata : PaginationMeta

/-- The answer to a query of which the database finds these rows. -/
def ListConfigQueryDto.paginate {V : Type} (query : ListConfigQueryDto) (found : List V) :
    Paginated V :=
  let page := query.page.getD 1
  let limit := query.limit.getD 20
  { items := pageOf limit page found
    metadata := ⟨page, limit, found.length, totalPages limit found.length⟩ }

/-! ## What the database finds -/

/-- How the database folds case and orders texts, and the columns `description`. -/
structure ConfigColumns where
  folding : CaseFolding
  collation : LinearOrder String
  achievementDescription : AchievementConfig → String
  badgeDescription : BadgeConfig → String

section Listing
variable (columns : ConfigColumns)

def ConfigWhere.holds (conditions : ConfigWhere) (groupKey : Option String) (active : Bool)
    (name description : String) : Bool :=
  conditions.groupKey.all (groupKey = some ·) && conditions.active.all (active = ·) &&
    conditions.name.all (fun pattern => columns.folding.ilike name.toList pattern.toList) &&
    conditions.description.all fun pattern => columns.folding.ilike description.toList pattern.toList

def selectsAchievement (query : ListAchievementConfigQueryDto) (achievement : AchievementConfig) :
    Bool :=
  (buildAchievementWhere query).any (·.holds columns (some achievement.groupKey) achievement.active
    achievement.name (columns.achievementDescription achievement))

def selectsBadge (query : ListConfigQueryDto) (badge : BadgeConfig) : Bool :=
  (buildBadgeWhere query).any
    (·.holds columns none badge.active badge.name (columns.badgeDescription badge))

/-- `order: { groupKey: 'ASC', sortOrder: 'ASC' }` -/
def achievementBefore (a b : AchievementConfig) : Prop :=
  columns.collation.lt a.groupKey b.groupKey ∨ (a.groupKey = b.groupKey ∧ a.sortOrder ≤ b.sortOrder)

/-- `order: { sortOrder: 'ASC' }` -/
def badgeBefore (a b : BadgeConfig) : Prop := a.sortOrder ≤ b.sortOrder

def groupBefore (a b : AchievementGroup) : Prop := a.sortOrder ≤ b.sortOrder

variable (c : Catalog)

def AchievementsFound (query : ListAchievementConfigQueryDto) (found : List AchievementConfig) :
    Prop :=
  c.achievements.Ordered (selectsAchievement columns query) (achievementBefore columns) found

def BadgesFound (query : ListConfigQueryDto) (found : List BadgeConfig) : Prop :=
  c.badges.Ordered (selectsBadge columns query) badgeBefore found

def listGroups (found : List AchievementGroup) : Prop :=
  c.groups.Ordered (fun _ => true) groupBefore found

def listAchievements (query : ListAchievementConfigQueryDto)
    (response : Paginated AchievementConfig) : Prop :=
  ∃ found, AchievementsFound columns c query found ∧ response = query.paginate found

def listBadges (query : ListConfigQueryDto) (response : Paginated BadgeConfig) : Prop :=
  ∃ found, BadgesFound columns c query found ∧ response = query.paginate found

end Listing

/-- A client asks for the pages one after the other, as many as the first one says there are. -/
structure WalksPages {V : Type} (asks : ℕ → Paginated V → Prop) (pages : List (Paginated V)) :
    Prop where
  asked : ∀ i (h : i < pages.length), asks (i + 1) pages[i]
  stops : ∃ first ∈ pages.head?, first.metadata.totalPages = pages.length

/-! ## No two rows tie -/

section Untied
variable {c : Catalog} (columns : ConfigColumns)

theorem untied_groups (hc : c.Ordered) : c.groups.Untied groupBefore := by
  intro group group' hrow hrow' hle hle'
  have hsame : group.sortOrder = group'.sortOrder := Nat.le_antisymm hle hle'
  have hkey : group.key = group'.key :=
    hc .groups _ _ group.sortOrder (positionsBy_of_row hrow)
      (by rw [hsame]; exact positionsBy_of_row hrow')
  rw [hkey, hrow'] at hrow
  exact (Option.some.inj hrow).symm

theorem untied_badges (hc : c.Ordered) : c.badges.Untied badgeBefore := by
  intro badge badge' hrow hrow' hle hle'
  have hsame : badge.sortOrder = badge'.sortOrder := Nat.le_antisymm hle hle'
  have hkey : badge.id = badge'.id :=
    hc .badges _ _ badge.sortOrder (positionsBy_of_row hrow)
      (by rw [hsame]; exact positionsBy_of_row hrow')
  rw [hkey, hrow'] at hrow
  exact (Option.some.inj hrow).symm

theorem before_antisymm {a b : AchievementConfig} (h : achievementBefore columns a b)
    (h' : achievementBefore columns b a) : a.groupKey = b.groupKey ∧ a.sortOrder = b.sortOrder := by
  obtain hlt | ⟨hgroup, hle⟩ := h
  · obtain hlt' | ⟨hgroup, -⟩ := h'
    · exact absurd hlt' (@lt_asymm _ columns.collation.toPreorder _ _ hlt)
    · exact absurd (hgroup ▸ hlt) (@lt_irrefl _ columns.collation.toPreorder _)
  · obtain hlt' | ⟨-, hle'⟩ := h'
    · exact absurd (hgroup ▸ hlt') (@lt_irrefl _ columns.collation.toPreorder _)
    · exact ⟨hgroup, Nat.le_antisymm hle hle'⟩

theorem untied_achievements (hc : c.Ordered) : c.achievements.Untied (achievementBefore columns) := by
  intro a b hrow hrow' hle hle'
  obtain ⟨hgroup, hsame⟩ := before_antisymm columns hle hle'
  have hkey : a.id = b.id := by
    refine hc (.achievements a.groupKey) _ _ a.sortOrder ?_ ?_
    · exact (positionsBy_of_row hrow).trans (positionIn_of_eq rfl)
    · exact hsame ▸ (positionsBy_of_row hrow').trans (positionIn_of_eq hgroup.symm)
  rw [hkey, hrow'] at hrow
  exact (Option.some.inj hrow).symm

theorem before_total (a b : AchievementConfig) :
    achievementBefore columns a b ∨ achievementBefore columns b a := by
  obtain hlt | hgroup | hlt :=
    @lt_trichotomy _ columns.collation a.groupKey b.groupKey
  · exact .inl (.inl hlt)
  · obtain hle | hle := Nat.le_total a.sortOrder b.sortOrder
    · exact .inl (.inr ⟨hgroup, hle⟩)
    · exact .inr (.inr ⟨hgroup.symm, hle⟩)
  · exact .inr (.inl hlt)

theorem before_trans {a b d : AchievementConfig} (h : achievementBefore columns a b)
    (h' : achievementBefore columns b d) : achievementBefore columns a d := by
  obtain hlt | ⟨hgroup, hle⟩ := h
  · obtain hlt' | ⟨hgroup', -⟩ := h'
    · exact .inl (@lt_trans _ columns.collation.toPreorder _ _ _ hlt hlt')
    · exact .inl (hgroup' ▸ hlt)
  · obtain hlt' | ⟨hgroup', hle'⟩ := h'
    · exact .inl (hgroup ▸ hlt')
    · exact .inr ⟨hgroup.trans hgroup', hle.trans hle'⟩

theorem exists_achievementsFound (c : Catalog) (query : ListAchievementConfigQueryDto) :
    ∃ found, AchievementsFound columns c query found := by
  have htotal : Std.Total (achievementBefore columns) := ⟨before_total columns⟩
  have htrans : IsTrans _ (achievementBefore columns) := ⟨fun _ _ _ => before_trans columns⟩
  exact c.achievements.exists_ordered (selectsAchievement columns query)

end Untied

/-! ## Walks -/

section Walks
variable {V : Type} {key : V → String} {T : Table String V key} {p : V → Bool}
  {before : V → V → Prop} {query : ListConfigQueryDto} {pages : List (Paginated V)}

/-- The pages of a walk are pages of the table. -/
theorem WalksPages.walk {asks : ℕ → Paginated V → Prop}
    (hasks : ∀ page response, asks page response → ∃ found, T.Ordered p before found ∧
      response = ListConfigQueryDto.paginate { query with page := some page } found)
    (h : WalksPages asks pages) :
    T.Walk p before (query.limit.getD 20) (pages.map (·.items)) := by
  refine ⟨fun i hi => ?_, ?_⟩
  · rw [List.length_map] at hi
    obtain ⟨found, hfound, hpage⟩ := hasks _ _ (h.asked i hi)
    refine ⟨found, hfound, ?_⟩
    rw [List.getElem_map, hpage]
    rfl
  · obtain ⟨first, hfirst, hstops⟩ := h.stops
    obtain ⟨hlt, hget⟩ := List.getElem?_eq_some_iff.mp (List.head?_eq_getElem?.symm.trans hfirst)
    obtain ⟨found, hfound, hpage⟩ := hasks _ _ (h.asked 0 hlt)
    refine ⟨found, hfound, ?_⟩
    rw [List.length_map, ← hstops, ← hget, hpage]
    rfl

/-- If all pages are cut out of one answer, a walk comes to its end. -/
theorem exists_walksPages (query : ListConfigQueryDto) (found : List V) :
    ∃ pages, WalksPages (fun page response => response =
      ListConfigQueryDto.paginate { query with page := some page } found) pages := by
  let answer := fun page => ListConfigQueryDto.paginate { query with page := some page } found
  let last := totalPages (query.limit.getD 20) found.length
  have hlast : 0 < last := le_max_left 1 _
  refine ⟨(List.range last).map fun i => answer (i + 1), fun i hi => ?_, answer 1, ?_, ?_⟩
  · rw [List.getElem_map, List.getElem_range]
  · rw [Option.mem_def, List.head?_eq_getElem?, List.getElem?_map, List.getElem?_range hlast]
    rfl
  · rw [List.length_map, List.length_range]
    rfl

/-- What a walk shows is the only answer to the whole query. -/
theorem WalksPages.exact {asks : ℕ → Paginated V → Prop} (huntied : T.Untied before)
    (hlimit : 0 < query.limit.getD 20)
    (hasks : ∀ page response, asks page response → ∃ found, T.Ordered p before found ∧
      response = ListConfigQueryDto.paginate { query with page := some page } found)
    (h : WalksPages asks pages) (found : List V) :
    T.Ordered p before found ↔ found = pages.flatMap (·.items) := by
  have hall := (h.walk hasks).ordered huntied hlimit
  rw [← List.flatMap_def] at hall
  exact ⟨fun hfound => hfound.unique huntied hall, fun heq => heq ▸ hall⟩

end Walks

/-- From distinct positions on, whatever is called: a walk shows each row that the query selects once,
in the order of the list, and there is no other answer to the query. -/
theorem config_walked {c c' : Catalog} {tr : List (Move Catalog AdminLabel)} (hc : c.Ordered)
    (h : Run adminStep c tr c') (columns : ConfigColumns) :
    (∀ query pages, 0 < query.limit.getD 20 →
        WalksPages (fun page => listAchievements columns c' { query with page := some page }) pages →
        ∀ found, AchievementsFound columns c' query found ↔ found = pages.flatMap (·.items)) ∧
      (∀ query pages, 0 < query.limit.getD 20 →
        WalksPages (fun page => listBadges columns c' { query with page := some page }) pages →
        ∀ found, BadgesFound columns c' query found ↔ found = pages.flatMap (·.items)) ∧
      ∀ groups groups', listGroups c' groups → listGroups c' groups' → groups = groups' := by
  have hordered : c'.Ordered := Run.invariant Catalog.Ordered (fun _ _ _ => adminStep_ordered) h hc
  refine ⟨fun query pages hlimit hwalk found => ?_, fun query pages hlimit hwalk found => ?_,
    fun _ _ hgroups hgroups' => hgroups.unique (untied_groups hordered) hgroups'⟩
  · have hasks : ∀ page response, listAchievements columns c' { query with page := some page } response →
        ∃ found, AchievementsFound columns c' query found ∧ response =
          ListConfigQueryDto.paginate { query.toListConfigQueryDto with page := some page } found :=
      fun _ _ hasked => hasked
    exact hwalk.exact (untied_achievements columns hordered) hlimit hasks found
  · have hasks : ∀ page response, listBadges columns c' { query with page := some page } response →
        ∃ found, BadgesFound columns c' query found ∧ response =
          ListConfigQueryDto.paginate { query with page := some page } found :=
      fun _ _ hasked => hasked
    exact hwalk.exact (untied_badges hordered) hlimit hasks found

theorem WalksPages.mono {V : Type} {asks asks' : ℕ → Paginated V → Prop} {pages : List (Paginated V)}
    (h : WalksPages asks pages) (hasks : ∀ page response, asks page response → asks' page response) :
    WalksPages asks' pages := ⟨fun i hi => hasks _ _ (h.asked i hi), h.stops⟩

def asciiColumns : ConfigColumns where
  folding := CaseFolding.ascii
  collation := inferInstance
  achievementDescription := fun _ => ""
  badgeDescription := fun _ => ""

/-- The achievements that are moved, one on each page. -/
theorem config_walked_moved : ∃ tr c' pages, Run adminStep Catalog.empty tr c' ∧
    c'.achievements.rows.length = 2 ∧
    WalksPages (fun page => listAchievements asciiColumns c' ⟨⟨some page, some 1, none, none⟩, none⟩)
      pages ∧
    ∀ found, AchievementsFound asciiColumns c' ⟨⟨none, some 1, none, none⟩, none⟩ found ↔
      found = pages.flatMap (·.items) := by
  obtain ⟨tr, c', hrun, hlast⟩ := exists_run_of_trace adminStep Catalog.empty rearrangingCalls
    (fun r => r.2.achievements.rows.length = 2) (by decide)
  obtain ⟨found, hfound⟩ := exists_achievementsFound asciiColumns c'
    ⟨⟨none, some 1, none, none⟩, none⟩
  obtain ⟨pages, hpages⟩ := exists_walksPages ⟨none, some 1, none, none⟩ found
  have hwalk : WalksPages (fun page => listAchievements asciiColumns c'
      ⟨⟨some page, some 1, none, none⟩, none⟩) pages :=
    hpages.mono fun _ _ hasked => ⟨found, hfound, hasked⟩
  exact ⟨tr, c', pages, hrun, of_decide_eq_true hlast, hwalk,
    (config_walked empty_ordered hrun asciiColumns).1 _ pages Nat.one_pos hwalk⟩

end Bumpa.Loyalty
