import Bumpa.Cashback.Entities
import Bumpa.Relational.Like
import Mathlib.Data.List.Sort

/-! # `CashbackService.listTransactions`

`buildTransactionWhere` turns a query into conditions on the columns, of which a row meets one. A
search is one condition for each column that it searches, and the one on `userId` takes the place of
the filter by user; what it searches for is part of an ILIKE pattern.

`listing_exact_iff`: a query selects the transactions that match it exactly if it does not search by
user and text at a time, what it searches for has no special character, and it does not filter by
the empty user id.
-/
namespace Bumpa.Cashback
open Bumpa.Relational
set_option autoImplicit false

structure ListCashbacksQueryDto where
  page : Option ℕ
  limit : Option ℕ
  userId : Option String
  status : Option CashbackTransactionStatus
  search : Option String
  deriving DecidableEq, Repr

/-- A condition on a column of texts. -/
inductive TextCondition where
  | equal (value : String)
  | iLike (pattern : String)
  deriving DecidableEq, Repr

/-- `FindOptionsWhere<CashbackTransaction>`. -/
structure TransactionWhere where
  userId : Option TextCondition
  status : Option CashbackTransactionStatus
  badgeName : Option TextCondition
  providerReference : Option TextCondition
  deriving DecidableEq, Repr

/-- `query.search ? … : …`: an empty text is as good as none. -/
def given (text : Option String) : Option String := text.filter (· ≠ "")

def baseWhere (query : ListCashbacksQueryDto) : TransactionWhere where
  userId := (given query.userId).map .equal
  status := query.status
  badgeName := none
  providerReference := none

def buildTransactionWhere (query : ListCashbacksQueryDto) : List TransactionWhere :=
  match given query.search with
  | none => [baseWhere query]
  | some search =>
    let pattern := TextCondition.iLike ("%" ++ search ++ "%")
    [{ baseWhere query with badgeName := some pattern },
      { baseWhere query with userId := some pattern },
      { baseWhere query with providerReference := some pattern }]

structure PaginationMeta where
  page : ℕ
  limit : ℕ
  total : ℕ
  totalPages : ℕ
  deriving DecidableEq, Repr

structure PaginatedCashbacksResponse where
  items : List CashbackTransaction
  metadata : PaginationMeta
  deriving DecidableEq, Repr

/-- How the database folds case, the texts of references, and the column `createdAt`. -/
structure ListingContext where
  folding : CaseFolding
  text : Reference → String
  createdAt : CashbackTransaction → ℕ

section Listing
variable (ctx : ListingContext)

/-- No condition holds of NULL. -/
def TextCondition.holds : TextCondition → Option String → Bool
  | _, none => false
  | .equal value, some text => decide (text = value)
  | .iLike pattern, some text => ctx.folding.ilike text.toList pattern.toList

def TransactionWhere.holds (conditions : TransactionWhere) (t : CashbackTransaction) : Bool :=
  conditions.userId.all (·.holds ctx (some t.userId)) &&
    conditions.status.all (t.status = ·) &&
    conditions.badgeName.all (·.holds ctx (some t.badgeName)) &&
    conditions.providerReference.all (·.holds ctx (t.providerReference.map ctx.text))

def selects (query : ListCashbacksQueryDto) (t : CashbackTransaction) : Bool :=
  (buildTransactionWhere query).any (·.holds ctx t)

def listTransactions (rows : List CashbackTransaction) (query : ListCashbacksQueryDto) :
    PaginatedCashbacksResponse :=
  let page := query.page.getD 1
  let limit := query.limit.getD 20
  let found := (rows.filter (selects ctx query)).insertionSort fun a b =>
    ctx.createdAt b ≤ ctx.createdAt a
  { items := (found.drop ((page - 1) * limit)).take limit
    metadata := ⟨page, limit, found.length, max 1 ((found.length + limit - 1) / limit)⟩ }

theorem exists_page {α : Type} {found : List α} {limit : ℕ} (h : 0 < limit) {x : α} :
    (∃ page, x ∈ (found.drop ((page - 1) * limit)).take limit) ↔ x ∈ found := by
  constructor
  · rintro ⟨page, hmem⟩
    exact List.mem_of_mem_drop (List.mem_of_mem_take hmem)
  · intro hmem
    obtain ⟨i, hi, rfl⟩ := List.mem_iff_getElem.mp hmem
    have hmod := Nat.mod_lt i h
    have hdiv := Nat.div_add_mod' i limit
    refine ⟨i / limit + 1, List.mem_take_iff_getElem.mpr ⟨i % limit, ?_, ?_⟩⟩
    · rw [List.length_drop, Nat.add_sub_cancel]
      omega
    · simp only [List.getElem_drop, Nat.add_sub_cancel, hdiv]

/-- The pages together list what the query selects. -/
theorem listed_iff {rows : List CashbackTransaction} {query : ListCashbacksQueryDto}
    {t : CashbackTransaction} (h : 0 < query.limit.getD 20) :
    (∃ page, t ∈ (listTransactions ctx rows { query with page := some page }).items) ↔
      t ∈ rows ∧ selects ctx query t = true := by
  have hselects : ∀ page, selects ctx { query with page := some page } = selects ctx query :=
    fun _ => rfl
  rw [← List.mem_filter,
    ← List.mem_insertionSort fun a b => ctx.createdAt b ≤ ctx.createdAt a, ← exists_page h]
  simp only [listTransactions, hselects, Option.getD_some]

def contains (text search : String) : Prop := ctx.folding.Contains text.toList search.toList

/-- What the parameters ask for. -/
structure ListCashbacksQueryDto.Matches (query : ListCashbacksQueryDto) (t : CashbackTransaction) :
    Prop where
  userId : ∀ userId, query.userId = some userId → t.userId = userId
  status : ∀ status, query.status = some status → t.status = status
  search : ∀ search, query.search = some search →
    contains ctx t.badgeName search ∨ contains ctx t.userId search ∨
      ∃ reference, t.providerReference = some reference ∧ contains ctx (ctx.text reference) search

/-- It has no empty user id, and does not search, or not by user as well and for plain text. -/
def ListCashbacksQueryDto.Plain (query : ListCashbacksQueryDto) : Prop :=
  query.userId ≠ some "" ∧ ∀ search, query.search = some search → search ≠ "" →
    query.userId = none ∧ ∀ c ∈ search.toList, ¬ IsSpecial c

theorem given_eq_some {text : Option String} {s : String} :
    given text = some s ↔ text = some s ∧ s ≠ "" := by
  rw [given, Option.filter_eq_some_iff, decide_eq_true_eq]

theorem given_eq_none {text : Option String} :
    given text = none ↔ ∀ s, text = some s → s = "" := by
  rw [given, Option.filter_eq_none_iff]
  exact ⟨fun h s hs => by simpa using h s hs, fun h s hs => by simpa using h s hs⟩

/-- The pattern of the search finds the text. -/
def finds (search text : String) : Prop :=
  ctx.folding.ilike text.toList (CaseFolding.enclosed search.toList) = true

theorem holds_pattern {search : String} {text : Option String} :
    TextCondition.holds ctx (.iLike ("%" ++ search ++ "%")) text = true ↔
      ∃ s, text = some s ∧ finds ctx search s := by
  have hpattern : ("%" ++ search ++ "%").toList = CaseFolding.enclosed search.toList := by
    simp [CaseFolding.enclosed]
  cases text with
  | none => simp [TextCondition.holds]
  | some s => simp [TextCondition.holds, finds, hpattern]

section Query
variable {ctx} {query : ListCashbacksQueryDto} {t : CashbackTransaction}

theorem userId_holds {userId : Option String} :
    (userId.map TextCondition.equal).all (·.holds ctx (some t.userId)) = true ↔
      ∀ u, userId = some u → t.userId = u := by
  cases userId <;> simp [TextCondition.holds]

theorem status_holds {status : Option CashbackTransactionStatus} :
    status.all (t.status = ·) = true ↔ ∀ s, status = some s → t.status = s := by
  cases status <;> simp

theorem selects_all (h : given query.search = none) : selects ctx query t = true ↔
    (∀ userId, given query.userId = some userId → t.userId = userId) ∧
      ∀ status, query.status = some status → t.status = status := by
  simp only [selects, buildTransactionWhere, h, List.any_cons, List.any_nil, Bool.or_false,
    TransactionWhere.holds, baseWhere, Option.all_none, Bool.and_true, Bool.and_eq_true,
    userId_holds, status_holds]

theorem selects_search {search : String} (h : given query.search = some search) :
    selects ctx query t = true ↔ (∀ status, query.status = some status → t.status = status) ∧
      (finds ctx search t.userId ∨
        (∀ userId, given query.userId = some userId → t.userId = userId) ∧
          (finds ctx search t.badgeName ∨ ∃ reference, t.providerReference = some reference ∧
            finds ctx search (ctx.text reference))) := by
  simp only [selects, buildTransactionWhere, h, List.any_cons, List.any_nil, Bool.or_false,
    TransactionWhere.holds, baseWhere, Option.all_none, Option.all_some, Bool.and_true,
    Bool.and_eq_true, Bool.or_eq_true, userId_holds, status_holds, holds_pattern,
    Option.some.injEq, exists_eq_left', Option.map_eq_some_iff, exists_exists_and_eq_and]
  tauto

theorem finds_iff {search text : String} (h : ∀ c ∈ search.toList, ¬ IsSpecial c) :
    finds ctx search text ↔ contains ctx text search :=
  ctx.folding.ilike_iff h

theorem contains_empty (text : String) : contains ctx text "" := List.nil_infix

theorem not_contains_empty {search : String} (h : search ≠ "") : ¬ contains ctx "" search := by
  intro hcontains
  have hnil : ctx.folding.apply search.toList = [] := List.infix_nil.mp hcontains
  exact h (String.toList_eq_nil_iff.mp (List.map_eq_nil_iff.mp hnil))

/-- A plain query selects what it matches. -/
theorem selects_iff (h : query.Plain) :
    selects ctx query t = true ↔ query.Matches ctx t := by
  obtain ⟨hempty, hplain⟩ := h
  cases hsearch : given query.search with
  | none =>
    rw [selects_all hsearch]
    constructor
    · rintro ⟨huser, hstatus⟩
      refine ⟨fun userId hgiven => huser userId (given_eq_some.mpr ⟨hgiven, ?_⟩), hstatus, ?_⟩
      · rintro rfl
        exact hempty hgiven
      · intro search hgiven
        rw [given_eq_none.mp hsearch search hgiven]
        exact Or.inl (contains_empty _)
    · exact fun hmatches => ⟨fun userId hgiven =>
        hmatches.userId userId (given_eq_some.mp hgiven).1, hmatches.status⟩
  | some search =>
    obtain ⟨hgiven, hne⟩ := given_eq_some.mp hsearch
    obtain ⟨hall, hspecial⟩ := hplain search hgiven hne
    rw [selects_search hsearch]
    simp only [finds_iff hspecial]
    constructor
    · rintro ⟨hstatus, hfound⟩
      refine ⟨fun userId huser => ?_, hstatus, fun search' hgiven' => ?_⟩
      · rw [hall] at huser
        cases huser
      · rw [hgiven, Option.some.injEq] at hgiven'
        subst hgiven'
        rcases hfound with huser | ⟨_, hbadge | hreference⟩
        · exact Or.inr (Or.inl huser)
        · exact Or.inl hbadge
        · exact Or.inr (Or.inr hreference)
    · intro hmatches
      have huser : ∀ userId, given query.userId = some userId → t.userId = userId :=
        fun userId huser => hmatches.userId userId (given_eq_some.mp huser).1
      refine ⟨hmatches.status, ?_⟩
      rcases hmatches.search search hgiven with hbadge | hid | hreference
      · exact Or.inr ⟨huser, Or.inl hbadge⟩
      · exact Or.inl hid
      · exact Or.inr ⟨huser, Or.inr hreference⟩

/-- A transaction of a user that a search finds by its badge. -/
def foundByBadge (query : ListCashbacksQueryDto) (search userId : String) : CashbackTransaction where
  id := 0
  userId := userId
  badgeName := String.ofList (shortest search.toList)
  amountKobo := 0
  status := query.status.getD .pending
  provider := .paystack
  providerReference := none
  providerRecipientCode := none
  correlationId := none
  failureReason := none
  failureCode := none
  retryable := none
  retryCount := 0
  nextRetryAt := none

theorem finds_shortest {search text : String} (h : shortest search.toList <:+ text.toList) :
    finds ctx search text :=
  ctx.folding.ilike_shortest h

theorem foundByBadge_status (search userId : String) (status : CashbackTransactionStatus)
    (h : query.status = some status) : (foundByBadge query search userId).status = status := by
  rw [foundByBadge, h, Option.getD_some]

theorem foundByBadge_selected {userId : String}
    (h : ∀ userId', given query.userId = some userId' → userId = userId') :
    selects ctx query (foundByBadge query (query.search.getD "") userId) = true := by
  cases hsearch : given query.search with
  | none => exact (selects_all hsearch).mpr ⟨h, foundByBadge_status _ _⟩
  | some search =>
    rw [(given_eq_some.mp hsearch).1, Option.getD_some, selects_search hsearch]
    refine ⟨foundByBadge_status _ _, Or.inr ⟨h, Or.inl (finds_shortest ?_)⟩⟩
    rw [foundByBadge, String.toList_ofList]

/-- No user is filtered by where the search is for another one. -/
theorem foundByUser_selected {search : String} (h : given query.search = some search)
    (userId : String) : selects ctx query (foundByBadge query search
      (userId ++ "a" ++ String.ofList (shortest search.toList))) = true := by
  refine (selects_search h).mpr ⟨foundByBadge_status _ _, Or.inl (finds_shortest ?_)⟩
  rw [foundByBadge, String.toList_append, String.toList_ofList]
  exact List.suffix_append _ _

theorem plain_of_selects (h : ∀ t, selects ctx query t = true ↔ query.Matches ctx t) :
    query.Plain := by
  refine ⟨fun hempty => ?_, fun search hgiven hne => ?_⟩
  · have hselected : selects ctx query (foundByBadge query (query.search.getD "") "a") = true :=
      foundByBadge_selected fun userId huser => absurd (given_eq_some.mp huser) (by simp [hempty])
    exact absurd (((h _).mp hselected).userId "" hempty) (by simp [foundByBadge])
  · have hall : query.userId = none := by
      cases huser : query.userId with
      | none => rfl
      | some userId =>
        have hselected : selects ctx query (foundByBadge query search
            (userId ++ "a" ++ String.ofList (shortest search.toList))) = true :=
          foundByUser_selected (given_eq_some.mpr ⟨hgiven, hne⟩) userId
        have heq := congrArg (·.toList.length) (((h _).mp hselected).userId userId huser)
        simp only [foundByBadge, String.toList_append, List.length_append] at heq
        have hone : "a".toList.length = 1 := rfl
        omega
    refine ⟨hall, ?_⟩
    by_contra hspecial
    have hselected : selects ctx query (foundByBadge query (query.search.getD "") "") = true :=
      foundByBadge_selected fun userId huser => absurd (given_eq_some.mp huser) (by simp [hall])
    rw [hgiven, Option.getD_some] at hselected
    rcases ((h _).mp hselected).search search hgiven with hbadge | huser | ⟨_, hreference, _⟩
    · rw [foundByBadge, contains, String.toList_ofList] at hbadge
      exact ctx.folding.not_contains_shortest hspecial hbadge
    · exact not_contains_empty hne huser
    · cases hreference

end Query

/-- A query lists what matches it, whatever there is, exactly if it is plain. -/
theorem listing_exact_iff (query : ListCashbacksQueryDto) :
    (∀ t, selects ctx query t = true ↔ query.Matches ctx t) ↔ query.Plain :=
  ⟨plain_of_selects, fun h _ => selects_iff h⟩

end Listing

def customerQuery : ListCashbacksQueryDto :=
  ⟨none, none, some "usr_customer_001", none, some "customer"⟩

def otherCustomer : CashbackTransaction :=
  ⟨1, "usr_customer_002", "Beginner", 30000, .successful, .paystack, none, none, none, none, none,
    none, 0, none⟩

/-- A search within a user's transactions lists those of other users. -/
theorem customerQuery_lists_other : ∃ ctx : ListingContext,
    selects ctx customerQuery otherCustomer = true ∧
    ¬ ∀ query t, selects ctx query t = true ↔ query.Matches ctx t := by
  let ctx : ListingContext := ⟨.ascii, fun _ => "", fun _ => 0⟩
  have hselected : selects ctx customerQuery otherCustomer = true := by decide
  refine ⟨ctx, hselected, fun hall => ?_⟩
  exact absurd (((hall _ _).mp hselected).userId _ rfl) (by decide)

end Bumpa.Cashback
