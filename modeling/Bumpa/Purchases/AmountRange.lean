import Bumpa.Loyalty.StatsColumns
import Bumpa.Purchases.Consistency
import Mathlib.Algebra.BigOperators.Ring.Finset

/-! # Amounts that are accepted and cannot be stored

The DTO accepts amounts up to `maxAmountKobo`, which is more than a column of type `integer` takes:
`purchases.amountKobo` refuses a large purchase, and `user_stats.totalSpendKobo` a large customer.
`purchases_in_range_iff`: the purchases of a user are created and counted without such an error
exactly if all they spend fits the column. `large_purchase_out_of_range` is one purchase above it.
-/
namespace Bumpa.Purchases
open Bumpa.Events Bumpa.Relational Bumpa.Transition
set_option autoImplicit false

/-- A purchase, and the id of the event that announces it. -/
structure Sale where
  dto : CreatePurchaseDto
  eventId : ReadableId

/-- Purchases of a user that the DTO accepts, in the order in which they are counted. -/
structure Sales (isEmail : String → Bool) (cfg : Loyalty.Config) (userId : String)
    (sales : List Sale) : Prop where
  accepted : ∀ sale ∈ sales, sale.dto.validate isEmail = []
  user : ∀ sale ∈ sales, sale.dto.userId = userId
  announced : ∀ sale ∈ sales, ∃ purchaseId correlationId, cfg.event sale.eventId =
    buildPurchaseCompletedEvent sale.dto (buildUserSnapshot sale.dto) purchaseId correlationId
      sale.eventId
  distinct : (sales.map (·.eventId)).Nodup

/-- No call for one of the purchases is rejected for its amount, and no handler of their events fails
on the stats. Each event is handled once, after the end of the one before; what several deliveries of
one event do is not asked here. -/
structure InRange (cfg : Loyalty.Config) (w : Loyalty.World) (sales : List Sale) : Prop where
  created : ∀ sale ∈ sales, ∀ tr s e call error, Reaches tr s →
    s.threads e = .rejected call error → error.code = postgresNumericValueOutOfRange →
      call.dto ≠ sale.dto
  counted : ∀ before sale after, sales = before ++ sale :: after →
    ∀ w', Loyalty.Processes cfg w (before.map (·.eventId)) w' →
      ¬Loyalty.Overflows cfg w' (.alreadyProcessed (cfg.event sale.eventId))

/-! ## The column of a purchase -/

/-- The first call of a service comes to the INSERT of its purchase. -/
theorem exists_insertPurchase (call : Call) (hkey : call.idempotencyKey = none) :
    ∃ tr s tx, Reaches tr s ∧ s.threads 0 = .transaction ⟨call, 0, 1⟩ tx .insertPurchase := by
  have hcall : step initial (.call call) = some ⟨(initial.world.begin call).1,
      Function.update initial.threads 0 (initial.world.begin call).2, 1⟩ := by
    simp only [step, World.createPurchase, hkey]
    rfl
  have hselect := Run.snoc (l := .run 0 .ok) (Run.single hcall) rfl
  have hinsert := Run.snoc (l := .run 0 .ok) hselect rfl
  exact ⟨_, _, _, hinsert, rfl⟩

/-- A call with an amount out of range is rejected there. -/
theorem exists_rejected_of_range {dto : CreatePurchaseDto} (h : ¬Int4.Fits dto.amountKobo) :
    ∃ tr s, Reaches tr s ∧
      s.threads 0 = .rejected ⟨dto, 0, none⟩ (integerOutOfRange dto.amountKobo) := by
  obtain ⟨tr, s, tx, hrun, hth⟩ := exists_insertPurchase ⟨dto, 0, none⟩ rfl
  have hrefused : step s (.run 0 .ok) = some { s with
      threads := Function.update s.threads 0
        (.rejected ⟨dto, 0, none⟩ (integerOutOfRange dto.amountKobo)) } := by
    simp only [step, hth, advance, statement, Int4.ofInt?_eq_none_iff.mpr h]
    rfl
  exact ⟨_, _, Run.snoc hrun hrefused, rfl⟩

theorem created_iff {dto : CreatePurchaseDto} :
    (∀ tr s e call error, Reaches tr s → s.threads e = .rejected call error →
      error.code = postgresNumericValueOutOfRange → call.dto ≠ dto) ↔
    Int4.Fits dto.amountKobo := by
  constructor
  · intro hall
    by_contra hrange
    obtain ⟨tr, s, h, hth⟩ := exists_rejected_of_range hrange
    exact hall tr s 0 _ _ h hth rfl rfl
  · rintro hfits tr s e call error h hth hcode rfl
    have hsound := (reaches_consistent h).sound e
    rw [hth] at hsound
    exact hsound hcode hfits

/-! ## The columns of the stats -/

section Sales
variable {isEmail : String → Bool} {cfg : Loyalty.Config} {userId : String} {w : Loyalty.World}
  {sales : List Sale}

def Sale.amountKobo (sale : Sale) : ℕ := sale.dto.amountKobo.toNat

theorem Sales.amount (h : Sales isEmail cfg userId sales) {sale : Sale} (hmem : sale ∈ sales) :
    1 ≤ sale.amountKobo ∧ sale.dto.amountKobo = sale.amountKobo := by
  obtain ⟨hmin, -⟩ := CreatePurchaseDto.accepted_amount (h.accepted sale hmem)
  rw [Sale.amountKobo]
  omega

theorem Sales.payload (h : Sales isEmail cfg userId sales) {sale : Sale} (hmem : sale ∈ sales) :
    (cfg.payload sale.eventId).userId = userId ∧
      (cfg.payload sale.eventId).amountKobo = sale.amountKobo := by
  obtain ⟨purchaseId, correlationId, hevent⟩ := h.announced sale hmem
  have hpayload := congrArg (·.payload) hevent
  refine ⟨?_, congrArg (·.amountKobo) hpayload⟩
  rw [← h.user sale hmem]
  exact congrArg (·.userId) hpayload

/-- After sales that fit together, a sale is counted in range exactly if their number and their sum
with it are in range. -/
theorem overflows_sale_iff (hcfg : cfg.Keyed) (hfirst : w.db.stats.row userId = none)
    (hnew : ∀ sale ∈ sales, sale.eventId ∉ w.db.processed) (h : Sales isEmail cfg userId sales)
    {before after : List Sale} {sale : Sale} (hsplit : sales = before ++ sale :: after)
    (hfit : (before.map (·.amountKobo)).sum ≤ 2147483647)
    {w' : Loyalty.World} (hrun : Loyalty.Processes cfg w (before.map (·.eventId)) w') :
    Loyalty.Overflows cfg w' (.alreadyProcessed (cfg.event sale.eventId)) ↔
      ¬(Int4.Fits ↑(before.length + 1) ∧
        Int4.Fits ↑((before.map (·.amountKobo)).sum + sale.amountKobo)) := by
  have hbefore : ∀ sale' ∈ before, sale' ∈ sales := fun sale' hmem => by
    rw [hsplit]
    exact List.mem_append_left _ hmem
  have hsale : sale ∈ sales := by
    rw [hsplit]
    exact List.mem_append_right _ List.mem_cons_self
  have hdistinct := h.distinct
  rw [hsplit, List.map_append, List.map_cons, List.nodup_append'] at hdistinct
  obtain ⟨hnodup, -, hdisjoint⟩ := hdistinct
  have hids : ∀ eventId ∈ before.map (·.eventId), ∃ sale' ∈ sales, sale'.eventId = eventId := by
    intro eventId hmem
    obtain ⟨sale', hmem', hid⟩ := List.mem_map.mp hmem
    exact ⟨sale', hbefore sale' hmem', hid⟩
  have hsum : ((before.map (·.eventId)).map fun eventId => (cfg.payload eventId).amountKobo) =
      before.map (·.amountKobo) := by
    rw [List.map_map]
    exact List.map_congr_left fun sale' hmem => (h.payload (hbefore sale' hmem)).2
  have hzero : w.db.purchaseCount userId = 0 ∧ w.db.totalSpendKobo userId = 0 := by
    simp only [Loyalty.Database.purchaseCount, Loyalty.Database.totalSpendKobo, hfirst]
    exact ⟨rfl, rfl⟩
  have hpositive : ∀ amount ∈ before.map (·.amountKobo), 1 ≤ amount := by
    intro amount hmem
    obtain ⟨sale', hmem', rfl⟩ := List.mem_map.mp hmem
    exact (h.amount (hbefore sale' hmem')).1
  have hfits : Loyalty.FitTogether cfg w.db userId (before.map (·.eventId)).toFinset := by
    intro _
    have hlength := Int4.length_le_sum hpositive
    rw [List.length_map] at hlength
    rw [List.toFinset_card_of_nodup hnodup, List.sum_toFinset _ hnodup, hsum, hzero.1, hzero.2,
      List.length_map, Nat.zero_add, Nat.zero_add, Int4.fits_natCast_iff, Int4.fits_natCast_iff]
    exact ⟨hlength.trans hfit, hfit⟩
  obtain ⟨taken, hperm, hgains, hprocessed⟩ := Loyalty.processes_fitting hcfg
    (fun eventId hmem => by
      obtain ⟨sale', hmem', rfl⟩ := hids eventId hmem
      exact hnew sale' hmem')
    (fun eventId hmem => by
      obtain ⟨sale', hmem', rfl⟩ := hids eventId hmem
      exact (h.payload hmem').1)
    (fun eventId hmem => by
      obtain ⟨sale', hmem', rfl⟩ := hids eventId hmem
      exact (h.payload hmem').2 ▸ (h.amount hmem').1)
    hnodup hfits hrun
  obtain ⟨hcount, htotal⟩ := hgains.counters
  rw [hzero.1, Nat.zero_add, hperm.length_eq, List.length_map] at hcount
  rw [hzero.2, Nat.zero_add, (hperm.map _).sum_eq, hsum] at htotal
  have hunseen : sale.eventId ∉ w'.db.processed := by
    intro hmem
    rcases hprocessed _ hmem with hold | hearlier
    · exact hnew sale hsale hold
    · exact hdisjoint hearlier List.mem_cons_self
  obtain ⟨huser, hamount⟩ := h.payload hsale
  rw [Loyalty.overflows_iff hunseen (hamount ▸ (h.amount hsale).1), huser, hamount, hcount, htotal]

/-- While every sale is counted in range, those up to it fit together. -/
theorem InRange.sum_le (hcfg : cfg.Keyed) (hfirst : w.db.stats.row userId = none)
    (hnew : ∀ sale ∈ sales, sale.eventId ∉ w.db.processed) (h : Sales isEmail cfg userId sales)
    (hrange : InRange cfg w sales) {before : List Sale} (hle : before <+: sales) :
    (before.map (·.amountKobo)).sum ≤ 2147483647 := by
  induction before using List.reverseRecOn with
  | nil => exact Nat.zero_le _
  | append_singleton before sale ih =>
    have hfit := ih ((List.prefix_append _ _).trans hle)
    obtain ⟨after, hsplit⟩ := hle
    rw [List.append_assoc, List.singleton_append] at hsplit
    obtain ⟨w', hrun, -⟩ := Loyalty.processes_purchases hcfg w (before.map (·.eventId))
    have hcounted := hrange.counted before sale after hsplit.symm w' hrun
    rw [overflows_sale_iff hcfg hfirst hnew h hsplit.symm hfit hrun, not_not] at hcounted
    rw [List.map_append, List.sum_append, List.map_singleton, List.sum_singleton]
    exact Int4.fits_natCast_iff.mp hcounted.2

/-- Every purchase is stored and counted without an error of range if and only if what the user
spends in all of them fits the column. -/
theorem purchases_in_range_iff (hcfg : cfg.Keyed) (hfirst : w.db.stats.row userId = none)
    (hnew : ∀ sale ∈ sales, sale.eventId ∉ w.db.processed) (h : Sales isEmail cfg userId sales) :
    InRange cfg w sales ↔ (sales.map (·.dto.amountKobo)).sum ≤ 2147483647 := by
  have hamounts : (sales.map (·.dto.amountKobo)).sum =
      ((sales.map (·.amountKobo)).sum : ℕ) := by
    rw [Nat.cast_list_sum, List.map_map]
    exact congrArg List.sum (List.map_congr_left fun sale hmem => (h.amount hmem).2)
  rw [hamounts]
  constructor
  · intro hrange
    have hle := hrange.sum_le hcfg hfirst hnew h (List.prefix_refl _)
    omega
  · intro hsum
    have hpositive : ∀ amount ∈ sales.map (·.amountKobo), 1 ≤ amount := by
      intro amount hmem
      obtain ⟨sale, hsale, rfl⟩ := List.mem_map.mp hmem
      exact (h.amount hsale).1
    refine ⟨fun sale hmem => created_iff.mpr ?_, fun before sale after hsplit w' hrun => ?_⟩
    · have hle : sale.amountKobo ≤ (sales.map (·.amountKobo)).sum :=
        List.single_le_sum (fun _ _ => Nat.zero_le _) _ (List.mem_map_of_mem hmem)
      rw [(h.amount hmem).2, Int4.fits_natCast_iff]
      omega
    · have htaken : (before ++ [sale]).map (·.amountKobo) <+: sales.map (·.amountKobo) := by
        rw [hsplit, List.append_cons before sale after]
        exact (List.prefix_append _ _).map _
      have hle := Int4.sum_le_of_prefix htaken
      have hfit := Int4.sum_le_of_prefix ((List.prefix_append before (sale :: after)).map
        (·.amountKobo))
      rw [← hsplit] at hfit
      rw [overflows_sale_iff hcfg hfirst hnew h hsplit (by omega) hrun, not_not,
        Int4.fits_natCast_iff, Int4.fits_natCast_iff]
      have hlength := Int4.length_le_sum fun amount hmem => hpositive amount (htaken.subset hmem)
      rw [List.map_append, List.sum_append, List.map_singleton, List.sum_singleton] at hle
      rw [List.length_map, List.length_append, List.length_singleton, List.map_append,
        List.sum_append, List.map_singleton, List.sum_singleton] at hlength
      omega

end Sales

/-! ## Two histories -/

def amountDto (amountKobo : ℤ) : CreatePurchaseDto :=
  ⟨"usr_1", "amina@getbumpa.com", "Amina Bello", .value "0123456789", .value "058", amountKobo⟩

/-- Every event announces a purchase of this amount by one user. -/
def amountConfig (amountKobo : ℤ) : Loyalty.Config where
  payload := fun eventId => (buildPurchaseCompletedEvent (amountDto amountKobo)
    (buildUserSnapshot (amountDto amountKobo)) eventId eventId eventId).payload
  correlationId := id
  achievements := []
  badges := []

theorem amountDto_accepted {amountKobo : ℤ} (h : 1 ≤ amountKobo ∧ amountKobo ≤ maxAmountKobo) :
    (amountDto amountKobo).validate (fun _ => true) = [] := by
  have hsplit : (amountDto amountKobo).checks (fun _ => true) =
      ((amountDto 1).checks fun _ => true).dropLast ++
        [("amountKobo", decide (1 ≤ amountKobo) && decide (amountKobo ≤ maxAmountKobo))] := rfl
  have hothers : (((amountDto 1).checks fun _ => true).dropLast.all (·.2)) = true := by
    decide +kernel
  refine CreatePurchaseDto.validate_eq_nil_iff.mpr fun check hmem => ?_
  rw [hsplit, List.mem_append, List.mem_singleton] at hmem
  rcases hmem with hother | rfl
  · exact List.all_eq_true.mp hothers check hother
  · simpa using h

theorem amountConfig_sales {amountKobo : ℤ} (h : 1 ≤ amountKobo ∧ amountKobo ≤ maxAmountKobo)
    (eventIds : List ReadableId) (hdistinct : eventIds.Nodup) :
    Sales (fun _ => true) (amountConfig amountKobo) "usr_1"
      (eventIds.map fun eventId => ⟨amountDto amountKobo, eventId⟩) where
  accepted := by
    intro sale hmem
    obtain ⟨eventId, -, rfl⟩ := List.mem_map.mp hmem
    exact amountDto_accepted h
  user := by
    intro sale hmem
    obtain ⟨eventId, -, rfl⟩ := List.mem_map.mp hmem
    rfl
  announced := by
    intro sale hmem
    obtain ⟨eventId, -, rfl⟩ := List.mem_map.mp hmem
    exact ⟨eventId, eventId, rfl⟩
  distinct := by
    rw [List.map_map]
    exact (List.map_id eventIds).symm ▸ hdistinct

theorem amountConfig_keyed (amountKobo : ℤ) : (amountConfig amountKobo).Keyed :=
  ⟨List.nodup_nil, List.nodup_nil⟩

/-- Two purchases of 5000 naira. -/
theorem small_purchases_in_range : InRange (amountConfig 500000) Loyalty.initial.world
    [⟨amountDto 500000, 0⟩, ⟨amountDto 500000, 1⟩] :=
  (purchases_in_range_iff (amountConfig_keyed _) rfl (fun _ _ hmem => by cases hmem)
    (amountConfig_sales ⟨by decide, by decide⟩ [0, 1] (by decide))).mpr (by decide)

/-- A purchase of 30 million naira is accepted and cannot be stored. -/
theorem large_purchase_out_of_range : ¬∀ (isEmail : String → Bool) (cfg : Loyalty.Config)
    (userId : String) (w : Loyalty.World) (sales : List Sale), cfg.Keyed →
    w.db.stats.row userId = none → (∀ sale ∈ sales, sale.eventId ∉ w.db.processed) →
    Sales isEmail cfg userId sales → InRange cfg w sales := by
  intro hall
  have hsales : Sales (fun _ => true) (amountConfig 3000000000) "usr_1"
      [⟨amountDto 3000000000, 0⟩] :=
    amountConfig_sales ⟨by decide, by decide⟩ [0] (by decide)
  have hrange := hall _ _ _ Loyalty.initial.world _ (amountConfig_keyed _) rfl
    (fun _ _ hmem => by cases hmem) hsales
  have hfits := created_iff.mp (hrange.created _ List.mem_cons_self)
  exact absurd hfits (by decide)

end Bumpa.Purchases
