import Mathlib.Data.List.Nodup
import EcommerceService.TransactionEffects

namespace EcommerceService.StockEffects

open EcommerceService.Effects EcommerceService.Errors EcommerceService.Models
open EcommerceService.Database EcommerceService.Repositories EcommerceService.Backend
open EcommerceService.Services EcommerceService.Facades EcommerceService.OutboxPolling
open EcommerceService.TransactionEffects

section Bulk

def updateAll (s : Store) (updates : List ProductStockModel) : Store :=
  updates.foldl (fun s update => s.after (.updateManyStock update.productId update.stock) ()) s

theorem updateAll_same (s : Store) (updates : List ProductStockModel) :
    (updateAll s updates).db = { s.db with productStock := (updateAll s updates).db.productStock } ∧
    (updateAll s updates).journal = s.journal := by
  induction updates generalizing s with
  | nil => exact ⟨rfl, rfl⟩
  | cons update updates ih =>
    obtain ⟨hdb, hj⟩ := ih (s.after (.updateManyStock update.productId update.stock) ())
    exact ⟨hdb, hj.trans (List.append_nil _)⟩

theorem updateAll_other {s : Store} {updates : List ProductStockModel} {p : ℕ}
    (hp : p ∉ updates.map (·.productId)) :
    (updateAll s updates).db.productStock p = s.db.productStock p := by
  induction updates generalizing s with
  | nil => rfl
  | cons update updates ih =>
    simp only [List.map_cons, List.mem_cons, not_or] at hp
    exact (ih hp.2).trans (Function.update_of_ne hp.1 _ _)

theorem updateAll_of_mem {s : Store} {updates : List ProductStockModel} {update : ProductStockModel}
    (hn : (updates.map (·.productId)).Nodup) (hu : update ∈ updates) :
    (updateAll s updates).db.productStock update.productId =
      (s.db.productStock update.productId).map (fun _ => update.stock) := by
  induction updates generalizing s with
  | nil => cases hu
  | cons first updates ih =>
    obtain ⟨hfirst, hn⟩ := List.nodup_cons.mp hn
    obtain rfl | hu := List.mem_cons.mp hu
    · exact (updateAll_other hfirst).trans (Function.update_self _ _ _)
    · refine (ih hn hu).trans ?_
      have hne : update.productId ≠ first.productId :=
        fun he => hfirst (List.mem_map.mpr ⟨update, hu, he⟩)
      exact congrArg (Option.map _) (Function.update_of_ne hne _ _)

theorem runs_all_updates {updates : List ProductStockModel} {s t : Store} {us : List Unit}
    (h : Effect.Runs Store.exec (Effect.all (updates.map (fun update =>
      tryPromise (.updateManyStock update.productId update.stock)))) s (.success us) t) :
    t = updateAll s updates := by
  induction updates generalizing s us with
  | nil => exact (Effect.runs_succeed.mp h).2
  | cons update updates ih =>
    obtain ⟨_, u, hu, hrest⟩ := Effect.runs_flatMap_success.mp h
    obtain ⟨us', hus, _⟩ := Effect.runs_map_success.mp hrest
    obtain ⟨_, rfl⟩ := runs_tryPromise.mp hu
    exact ih hus

theorem runs_updateBulk {updates : List ProductStockModel} {s t : Store} {a : Unit}
    (h : Effect.Runs Store.exec (ProductStockRepository.updateBulk updates) s (.success a) t) :
    t = updateAll s updates := by
  obtain ⟨us, hus, _⟩ :=
    Effect.runs_map_success.mp ((Effect.runs_catchAll_success (fun _ => ⟨_, rfl⟩)).mp h)
  exact runs_all_updates hus

theorem runs_findByIdsWithXLock {productIds : List ℕ} {rows : List ProductStockModel} {s t : Store}
    (h : Effect.Runs Store.exec (ProductStockRepository.findByIdsWithXLock productIds) s
      (.success rows) t) :
    (Query.selectStocksForUpdate productIds).Allows s.db rows ∧ t = s := by
  obtain ⟨hrows, rfl⟩ :=
    runs_tryPromise.mp ((Effect.runs_catchAll_success (fun _ => ⟨_, rfl⟩)).mp h)
  exact ⟨hrows, Store.after_read rfl rfl⟩

section Answering

variable {exec : (q : Query) → Store → Option q.Answer → Store → Prop} (hexec : Answering exec)
include hexec

theorem all_updates_run (s : Store) (updates : List ProductStockModel) :
    ∃ us, Effect.Runs exec (Effect.all (updates.map (fun update =>
      tryPromise (.updateManyStock update.productId update.stock)))) s (.success us)
      (updateAll s updates) := by
  induction updates generalizing s with
  | nil => exact ⟨[], .succeed [] s⟩
  | cons update updates ih =>
    obtain ⟨us, hus⟩ := ih (s.after (.updateManyStock update.productId update.stock) ())
    exact ⟨() :: us, Effect.runs_flatMap_success.mpr ⟨(), _, tryPromise_run hexec trivial,
      Effect.runs_map_success.mpr ⟨us, hus, rfl⟩⟩⟩

theorem updateBulk_run (s : Store) (updates : List ProductStockModel) :
    Effect.Runs exec (ProductStockRepository.updateBulk updates) s (.success ())
      (updateAll s updates) := by
  obtain ⟨us, hus⟩ := all_updates_run hexec s updates
  exact (Effect.runs_catchAll_success (fun _ => ⟨_, rfl⟩)).mpr
    (Effect.runs_map_success.mpr ⟨us, hus, rfl⟩)

theorem findByIdsWithXLock_run {productIds : List ℕ} {rows : List ProductStockModel} {s : Store}
    (h : (Query.selectStocksForUpdate productIds).Allows s.db rows) :
    Effect.Runs exec (ProductStockRepository.findByIdsWithXLock productIds) s
      (.success rows) s := by
  have hread := tryPromise_run hexec h
  rw [Store.after_read rfl rfl] at hread
  exact (Effect.runs_catchAll_success (fun _ => ⟨_, rfl⟩)).mpr hread

end Answering

end Bulk

section Deduction

variable (command : DeductStockCommand)

/-- The row has the stock that the command asks of its product. -/
def Covers (row : ProductStockModel) : Prop :=
  ∃ quantity, command.quantity row.productId = some quantity ∧ quantity ≤ row.stock

def deducted (row : ProductStockModel) : ProductStockModel :=
  { row with stock := row.stock - (command.quantity row.productId).getD 0 }

def outOfStock : Error := .appConflict ErrorCodes.productOutOfStock

variable {command}

theorem deduct_covered {row : ProductStockModel} (h : Covers command row) :
    ProductService.deduct command row = .succeed (deducted command row) := by
  obtain ⟨quantity, hq, hle⟩ := h
  simp [ProductService.deduct, ProductStockModel.deduct, ProductStockModel.inStock, deducted, hq, hle]

theorem deduct_short {row : ProductStockModel} (h : ¬ Covers command row) :
    ProductService.deduct command row = .fail outOfStock := by
  rw [ProductService.deduct]
  cases hq : command.quantity row.productId with
  | none => rfl
  | some quantity =>
    have hlt : ¬ quantity ≤ row.stock := fun hle => h ⟨quantity, hq, hle⟩
    simp [ProductStockModel.deduct, ProductStockModel.inStock, hlt, outOfStock]

theorem deductStocks_covered {rows : List ProductStockModel} (h : ∀ row ∈ rows, Covers command row) :
    ProductService.deductStocks command rows = .succeed (rows.map (deducted command)) :=
  Effect.all_succeed (fun row hrow => deduct_covered (h row hrow))

theorem deductStocks_short {rows : List ProductStockModel} (h : ∃ row ∈ rows, ¬ Covers command row) :
    ProductService.deductStocks command rows = .fail outOfStock := by
  obtain ⟨short, hmem, hshort⟩ := h
  refine Effect.all_fail (g := deducted command) (fun row _ => ?_) ⟨short, hmem, deduct_short hshort⟩
  by_cases hrow : Covers command row
  · exact .inl (deduct_covered hrow)
  · exact .inr (deduct_short hrow)

/-- A deduction that succeeds has found the stock of every row it has locked, and has
taken the ordered quantities. -/
theorem runs_deductStock {s t : Store} {a : Unit}
    (h : Effect.Runs Store.exec (ProductService.deductStock command) s (.success a) t) :
    ∃ rows, (Query.selectStocksForUpdate command.productIds).Allows s.db rows ∧
      (∀ row ∈ rows, Covers command row) ∧ t = updateAll s (rows.map (deducted command)) := by
  obtain ⟨updates, u, hdeduct, hupdate⟩ := Effect.runs_flatMap_success.mp h
  obtain ⟨rows, v, hfind, hrows⟩ := Effect.runs_flatMap_success.mp hdeduct
  obtain ⟨hallows, rfl⟩ := runs_findByIdsWithXLock hfind
  have hcovers : ∀ row ∈ rows, Covers command row := by
    by_contra hshort
    push Not at hshort
    rw [deductStocks_short hshort] at hrows
    simp at hrows
  rw [deductStocks_covered hcovers] at hrows
  obtain ⟨heq, rfl⟩ := Effect.runs_succeed.mp hrows
  cases heq
  exact ⟨rows, hallows, hcovers, runs_updateBulk hupdate⟩

theorem deductStock_run {exec : (q : Query) → Store → Option q.Answer → Store → Prop}
    (hexec : Answering exec) {s : Store} {rows : List ProductStockModel}
    (h : (Query.selectStocksForUpdate command.productIds).Allows s.db rows)
    (hc : ∀ row ∈ rows, Covers command row) :
    Effect.Runs exec (ProductService.deductStock command) s (.success ())
      (updateAll s (rows.map (deducted command))) := by
  refine Effect.runs_flatMap_success.mpr ⟨rows.map (deducted command), s, ?_, updateBulk_run hexec _ _⟩
  refine Effect.runs_flatMap_success.mpr ⟨rows, s, findByIdsWithXLock_run hexec h, ?_⟩
  rw [deductStocks_covered hc]
  exact .succeed _ _

theorem mem_productIds {p : ℕ} : p ∈ command.productIds ↔ ∃ q, command.quantity p = some q := by
  rw [DeductStockCommand.quantity, ← Option.isSome_iff_exists, List.lookup_isSome_iff,
    DeductStockCommand.productIds, List.mem_map]
  refine exists_congr (fun e => and_congr_right (fun _ => ?_))
  rw [beq_iff_eq]
  exact eq_comm

theorem rows_exist (db : Tables) {productIds : List ℕ} (hn : productIds.Nodup)
    (hne : productIds ≠ []) :
    ∃ rows, (Query.selectStocksForUpdate productIds).Allows db rows := by
  let row (p : ℕ) : Option ProductStockModel := (db.productStock p).map (fun stock => ⟨p, stock⟩)
  have hrow : ∀ p model, row p = some model ↔
      model.productId = p ∧ db.productStock p = some model.stock := by
    intro p model
    obtain ⟨id, stock⟩ := model
    cases hp : db.productStock p with
    | none => simp [row, hp]
    | some n => simp [row, hp, eq_comm]
  refine ⟨productIds.filterMap row, hne, ?_, fun model => ?_⟩
  · rw [List.map_filterMap]
    refine List.Nodup.filterMap (fun p p' id hp hp' => ?_) hn
    obtain ⟨model, hm, rfl⟩ := Option.map_eq_some_iff.mp hp
    obtain ⟨model', hm', hid⟩ := Option.map_eq_some_iff.mp hp'
    rw [← ((hrow p model).mp hm).1, ← ((hrow p' model').mp hm').1, hid]
  · simp only [List.mem_filterMap, hrow]
    constructor
    · rintro ⟨p, hp, rfl, hstock⟩
      exact ⟨hp, hstock⟩
    · rintro ⟨hp, hstock⟩
      exact ⟨_, hp, rfl, hstock⟩

theorem productIds_nodup (command : DeductStockCommand) : command.productIds.Nodup :=
  command.ascending.imp (fun h => h.ne)

theorem lookup_items (items : List OrderItemInfo) (p : ℕ) :
    (items.map (fun item => (item.productId, item.quantity))).lookup p =
      (items.find? (fun item => item.productId = p)).map (·.quantity) := by
  induction items with
  | nil => rfl
  | cons item items ih =>
    by_cases hp : item.productId = p
    · simp [hp]
    · have hp' : (p == item.productId) = false := by simpa using Ne.symm hp
      simp [List.lookup_cons, hp, hp', ih]

variable {info : CreateOrderInfo}

theorem find_item (hn : (info.orderItems.map (·.productId)).Nodup) {item : OrderItemInfo}
    (hitem : item ∈ info.orderItems) :
    info.orderItems.find? (fun item' => item'.productId = item.productId) = some item := by
  generalize info.orderItems = items at hn hitem
  induction items with
  | nil => cases hitem
  | cons first items ih =>
    obtain ⟨hout, hn⟩ := List.nodup_cons.mp hn
    obtain rfl | hitem := List.mem_cons.mp hitem
    · simp
    · have hne : first.productId ≠ item.productId :=
        fun he => hout (List.mem_map.mpr ⟨item, hitem, he.symm⟩)
      rw [List.find?_cons_of_neg (by simpa using hne), ih hn hitem]

theorem command_quantity (hn : (info.orderItems.map (·.productId)).Nodup) (p : ℕ) :
    (ProductFacade.deductStockCommand info).quantity p =
      (info.orderItems.find? (fun item => item.productId = p)).map (·.quantity) := by
  have hkeys : ((info.orderItems.map (fun item => (item.productId, item.quantity))).map
      Prod.fst).Nodup := by simpa [Function.comp_def] using hn
  exact (lookup_fromEntries hkeys).trans (lookup_items info.orderItems p)

def ShortOf (command : DeductStockCommand) (db : Tables) : Prop :=
  ∃ p quantity stock, command.quantity p = some quantity ∧ db.productStock p = some stock ∧
    stock < quantity

theorem covers_rows {s : Store} {rows : List ProductStockModel}
    (h : (Query.selectStocksForUpdate command.productIds).Allows s.db rows) :
    (∀ row ∈ rows, Covers command row) ↔ ¬ ShortOf command s.db := by
  obtain ⟨_, _, hrows⟩ := h
  constructor
  · rintro hc ⟨p, quantity, stock, hq, hstock, hlt⟩
    obtain ⟨quantity', hq', hle⟩ :=
      hc ⟨p, stock⟩ ((hrows _).mpr ⟨mem_productIds.mpr ⟨quantity, hq⟩, hstock⟩)
    cases hq.symm.trans hq'
    exact absurd hle (not_le.mpr hlt)
  · intro hs row hrow
    obtain ⟨hp, hstock⟩ := (hrows row).mp hrow
    obtain ⟨quantity, hq⟩ := mem_productIds.mp hp
    exact ⟨quantity, hq, not_lt.mp (fun hlt => hs ⟨_, quantity, _, hq, hstock, hlt⟩)⟩

end Deduction

section Values

theorem updateAll_stock {s : Store} {productIds : List ℕ} {rows : List ProductStockModel}
    {f : ProductStockModel → ProductStockModel} (hf : ∀ row, (f row).productId = row.productId)
    (h : (Query.selectStocksForUpdate productIds).Allows s.db rows) (p : ℕ) :
    (updateAll s (rows.map f)).db.productStock p = (s.db.productStock p).map (fun n =>
      if p ∈ productIds then (f ⟨p, n⟩).stock else n) := by
  obtain ⟨_, hn, hrows⟩ := h
  have hids : (rows.map f).map (·.productId) = rows.map (·.productId) := by
    simp [Function.comp_def, hf]
  by_cases hp : p ∈ productIds
  · cases hstock : s.db.productStock p with
    | none =>
      have hout : p ∉ (rows.map f).map (·.productId) := by
        rw [hids]
        rintro hmem
        obtain ⟨row, hrow, rfl⟩ := List.mem_map.mp hmem
        simp [((hrows row).mp hrow).2] at hstock
      rw [updateAll_other hout, hstock]
      rfl
    | some n =>
      have hrow : ⟨p, n⟩ ∈ rows := (hrows ⟨p, n⟩).mpr ⟨hp, hstock⟩
      have hset := updateAll_of_mem (s := s) (hids ▸ hn) (List.mem_map_of_mem (f := f) hrow)
      rw [hf] at hset
      simpa [hp, hstock] using hset
  · have hout : p ∉ (rows.map f).map (·.productId) := by
      rw [hids]
      intro hmem
      obtain ⟨row, hrow, rfl⟩ := List.mem_map.mp hmem
      exact hp ((hrows row).mp hrow).1
    rw [updateAll_other hout]
    simp [hp]

variable {command : DeductStockCommand} {payload : CreateOrderInfo} {s t : Store} {a : Unit}

/-- A deduction takes the ordered quantity of every product that has a stock row. -/
theorem deduction_stock
    (h : Effect.Runs Store.exec (ProductService.deductStock command) s (.success a) t) (p : ℕ) :
    t.db.productStock p = (s.db.productStock p).map (fun n => n - (command.quantity p).getD 0) := by
  obtain ⟨rows, hallows, _, rfl⟩ := runs_deductStock h
  rw [updateAll_stock (f := deducted command) (fun _ => rfl) hallows]
  refine congrArg (fun f => (s.db.productStock p).map f) (funext (fun n => ?_))
  split
  · rfl
  · rename_i hp
    have hnone : command.quantity p = none := by
      rw [mem_productIds] at hp
      exact Option.eq_none_iff_forall_ne_some.mpr (fun q hq => hp ⟨q, hq⟩)
    simp [hnone]

theorem deduction_enough
    (h : Effect.Runs Store.exec (ProductService.deductStock command) s (.success a) t) {p : ℕ}
    {n q : ℤ} (hn : s.db.productStock p = some n) (hq : command.quantity p = some q) : q ≤ n := by
  obtain ⟨rows, ⟨_, _, hrows⟩, hcovers, _⟩ := runs_deductStock h
  have hrow : ⟨p, n⟩ ∈ rows := (hrows ⟨p, n⟩).mpr ⟨mem_productIds.mpr ⟨q, hq⟩, hn⟩
  obtain ⟨q', hq', hle⟩ := hcovers _ hrow
  cases hq.symm.trans hq'
  exact hle

def restoredQuantity (payload : CreateOrderInfo) (p : ℕ) : ℤ :=
  ((payload.orderItems.find? (fun item => item.productId = p)).map (·.quantity)).getD 0

def restored (payload : CreateOrderInfo) (row : ProductStockModel) : ProductStockModel :=
  { row with stock := row.stock + restoredQuantity payload row.productId }

theorem addStocks_found {rows : List ProductStockModel}
    (h : ∀ row ∈ rows, row.productId ∈ payload.orderItems.map (·.productId)) :
    addStocks payload rows = .succeed (rows.map (restored payload)) := by
  refine Effect.all_succeed (fun row hrow => ?_)
  obtain ⟨item, hitem, hid⟩ := List.mem_map.mp (h row hrow)
  rw [addStock]
  cases hfind : payload.orderItems.find? (fun item => item.productId = row.productId) with
  | none => simpa [hid] using List.find?_eq_none.mp hfind item hitem
  | some found => simp [ProductStockModel.add, restored, restoredQuantity, hfind]

theorem runs_restoring_rows
    (h : Effect.Runs Store.exec (restoring payload) s (.success a) t) :
    ∃ rows, (Query.selectStocksForUpdate (payload.orderItems.map (·.productId))).Allows s.db rows ∧
      t = updateAll s (rows.map (restored payload)) := by
  obtain ⟨updates, u, hadd, hupdate⟩ := Effect.runs_flatMap_success.mp h
  obtain ⟨rows, v, hfind, hrows⟩ := Effect.runs_flatMap_success.mp hadd
  obtain ⟨hallows, rfl⟩ := runs_findByIdsWithXLock hfind
  rw [addStocks_found (fun row hrow => ((hallows.2.2 row).mp hrow).1)] at hrows
  obtain ⟨heq, rfl⟩ := Effect.runs_succeed.mp hrows
  cases heq
  exact ⟨rows, hallows, runs_updateBulk hupdate⟩

/-- A restoration gives the quantity of the payload back to every product that has a row. -/
theorem restoration_stock (h : Effect.Runs Store.exec (restoring payload) s (.success a) t) (p : ℕ) :
    t.db.productStock p = (s.db.productStock p).map (fun n => n + restoredQuantity payload p) := by
  obtain ⟨rows, hallows, rfl⟩ := runs_restoring_rows h
  rw [updateAll_stock (f := restored payload) (fun _ => rfl) hallows]
  refine congrArg (fun f => (s.db.productStock p).map f) (funext (fun n => ?_))
  split
  · rfl
  · rename_i hp
    have hnone : payload.orderItems.find? (fun item => item.productId = p) = none := by
      refine List.find?_eq_none.mpr (fun item hitem => ?_)
      simp only [decide_eq_true_eq]
      exact fun hid => hp (List.mem_map.mpr ⟨item, hitem, hid⟩)
    simp [restoredQuantity, hnone]

theorem restoring_run {rows : List ProductStockModel}
    (h : (Query.selectStocksForUpdate (payload.orderItems.map (·.productId))).Allows s.db rows) :
    Effect.Runs Store.exec (restoring payload) s (.success ())
      (updateAll s (rows.map (restored payload))) := by
  refine Effect.runs_flatMap_success.mpr
    ⟨rows.map (restored payload), s, ?_, updateBulk_run answering_exec _ _⟩
  refine Effect.runs_flatMap_success.mpr ⟨rows, s, findByIdsWithXLock_run answering_exec h, ?_⟩
  rw [addStocks_found (fun row hrow => ((h.2.2 row).mp hrow).1)]
  exact .succeed _ _

theorem mem_deductStockCommand {p : ℕ} : p ∈ (ProductFacade.deductStockCommand payload).productIds ↔
    p ∈ payload.orderItems.map (·.productId) := by
  refine fromEntries_keys.trans ?_
  rw [List.map_map]
  rfl

theorem command_nonempty (h : payload.orderItems ≠ []) :
    (ProductFacade.deductStockCommand payload).productIds ≠ [] := by
  obtain ⟨item, hitem⟩ := List.exists_mem_of_ne_nil _ h
  exact List.ne_nil_of_mem (mem_deductStockCommand.mpr (List.mem_map_of_mem hitem))

theorem deducting_rejected {exec : (q : Query) → Store → Option q.Answer → Store → Prop}
    (hexec : Answering exec) (hitems : payload.orderItems ≠ [])
    (h : ShortOf (ProductFacade.deductStockCommand payload) s.db) : Effect.Runs exec
      (PrismaService.effectWithTransaction (ProductFacade.deducting payload)) s (.failure outOfStock) s := by
  obtain ⟨rows, hrows⟩ := rows_exist s.db (productIds_nodup _) (command_nonempty hitems)
  have hshort : ∃ row ∈ rows, ¬ Covers (ProductFacade.deductStockCommand payload) row := by
    by_contra hall
    push Not at hall
    exact (covers_rows hrows).mp hall h
  have hdeduct : Effect.Runs exec
      (ProductService.deductStocks (ProductFacade.deductStockCommand payload) rows) s
      (.failure outOfStock) s := by
    rw [deductStocks_short hshort]
    exact .fail _ s
  exact Effect.runs_catchAll_failure (Effect.runs_flatMap_failure (Effect.runs_flatMap_failure
    (Effect.runs_flatMap.mpr ⟨.success rows, s, findByIdsWithXLock_run hexec hrows, hdeduct⟩)))
    (.fail _ s)

theorem deducting_run {exec : (q : Query) → Store → Option q.Answer → Store → Prop}
    (hexec : Answering exec) (hitems : payload.orderItems ≠ [])
    (h : ¬ ShortOf (ProductFacade.deductStockCommand payload) s.db)
    (hnew : s.db.outboxEvent (aggregateId payload.order.id, .orderDeductStock) = none) :
    ∃ u, Effect.Runs exec (ProductService.deductStock (ProductFacade.deductStockCommand payload)) s
        (.success ()) u ∧ Effect.Runs exec (ProductFacade.deducting payload) s (.success ())
      (u.after (.createOutboxEvent (aggregateId payload.order.id, .orderDeductStock)
        (Json.order payload).stringify .init) ⟨(Json.order payload).stringify, .init⟩) := by
  obtain ⟨rows, hrows⟩ := rows_exist s.db (productIds_nodup _) (command_nonempty hitems)
  have hdeduct := deductStock_run hexec hrows ((covers_rows hrows).mpr h)
  obtain ⟨hdb, _⟩ := updateAll_same s (rows.map (deducted (ProductFacade.deductStockCommand payload)))
  have hrow := congrFun (congrArg Tables.outboxEvent hdb)
    (aggregateId payload.order.id, .orderDeductStock)
  have hcreate := tryPromise_run (q := .createOutboxEvent
    (aggregateId payload.order.id, .orderDeductStock) (Json.order payload).stringify .init) hexec
    ⟨hrow.trans hnew, rfl⟩
  exact ⟨_, hdeduct, Effect.runs_tap_success.mpr
    ⟨_, _, hdeduct, Effect.runs_map_success.mpr ⟨_, hcreate, rfl⟩⟩⟩

end Values

end EcommerceService.StockEffects
