import EcommerceService.Restoration

namespace EcommerceService.Deduction

open EcommerceService.Effects EcommerceService.Errors EcommerceService.Models
open EcommerceService.Database EcommerceService.Repositories EcommerceService.Backend
open EcommerceService.Services EcommerceService.Facades EcommerceService.OutboxPolling
open EcommerceService.TransactionEffects EcommerceService.StockEffects EcommerceService.Saga
open EcommerceService.SagaCalls EcommerceService.SagaRuns EcommerceService.StockLocking
open EcommerceService.Restoration

def InTransaction {A : Type} (effect : Statements A) (s : Store) (x : Exit Error A) (s' : Store) :
    Prop :=
  ∃ t, Effect.Runs Store.exec (PrismaService.effectWithTransaction effect) s x t ∧
    s' = match x with
      | .success _ => t
      | _ => s

/-- Every product of the command has lost exactly its quantity, and no other has changed. -/
structure AllDeducted (command : DeductStockCommand) (db db' : Tables) : Prop where
  deducted : ∀ p quantity, command.quantity p = some quantity → ∃ stock,
    db.productStock p = some stock ∧ db'.productStock p = some (stock - quantity)
  other : ∀ p, command.quantity p = none → db'.productStock p = db.productStock p

def AllOrNothing (command : DeductStockCommand) (db : Tables) (x : Exit Error Unit) (db' : Tables) :
    Prop :=
  x = .success () ∧ AllDeducted command db db' ∨
    (∃ e, x = .failure e) ∧ db'.productStock = db.productStock

section Command

variable {command : DeductStockCommand} {s t : Store} {x : Exit Error Unit}

theorem deductStock_settles (command : DeductStockCommand) :
    (ProductService.deductStock command).Settles := by
  refine Effect.Settles.flatMap (Effect.Settles.flatMap ?_ (fun stocks => ?_)) updateBulk_settles
  · exact (tryPromise_settles _).catchAll (fun _ => Effect.settles_fail)
  · refine Effect.Settles.all (fun p hp => ?_)
    obtain ⟨stock, _, rfl⟩ := List.mem_map.mp hp
    by_cases hc : Covers command stock
    · rw [deduct_covered hc]
      exact Effect.settles_succeed
    · rw [deduct_short hc]
      exact Effect.settles_fail

theorem runs_enough {a : Unit}
    (h : Effect.Runs Store.exec (ProductService.deductStock command) s (.success a) t) :
    ¬ ShortOf command s.db := by
  rintro ⟨p, quantity, stock, hq, hstock, hlt⟩
  exact absurd (deduction_enough h hstock hq) (not_le.mpr hlt)

/-- A deduction that succeeds has deducted everything exactly when every product of the
command has a stock row. -/
theorem runs_allDeducted {a : Unit}
    (h : Effect.Runs Store.exec (ProductService.deductStock command) s (.success a) t) :
    AllDeducted command s.db t.db ↔
      ∀ p ∈ command.productIds, (s.db.productStock p).isSome := by
  have hstock := deduction_stock h
  constructor
  · intro hall p hp
    obtain ⟨quantity, hq⟩ := mem_productIds.mp hp
    obtain ⟨stock, hn, _⟩ := hall.deducted p quantity hq
    simp [hn]
  · refine fun hrow => ⟨fun p quantity hq => ?_, fun p hq => ?_⟩
    · obtain ⟨stock, hn⟩ := Option.isSome_iff_exists.mp (hrow p (mem_productIds.mpr ⟨quantity, hq⟩))
      exact ⟨stock, hn, by rw [hstock p, hn, hq]; rfl⟩
    · rw [hstock p, hq]
      simp

theorem complete_of_allOrNothing
    (h : ∀ x s', InTransaction (ProductService.deductStock command) s x s' →
      AllOrNothing command s.db x s'.db) (hs : ¬ ShortOf command s.db) {p : ℕ}
    (hp : p ∈ command.productIds) : (s.db.productStock p).isSome := by
  obtain ⟨rows, hrows⟩ := rows_exist s.db (productIds_nodup command)
    (List.ne_nil_of_mem hp)
  have hrun := deductStock_run answering_exec hrows ((covers_rows hrows).mpr hs)
  obtain ⟨_, hall⟩ | ⟨⟨e, he⟩, _⟩ := h _ _ ⟨_, runs_effectWithTransaction.mpr hrun, rfl⟩
  · exact (runs_allDeducted hrun).mp hall p hp
  · cases he

/-- A deduction deducts everything or fails, in every run, exactly when every product of the
command has a stock row, or some product that has one is short of stock. -/
theorem deductStock_complete_iff (command : DeductStockCommand) (s : Store) :
    (∀ x s', InTransaction (ProductService.deductStock command) s x s' →
      AllOrNothing command s.db x s'.db) ↔
    (∀ p ∈ command.productIds, (s.db.productStock p).isSome) ∨ ShortOf command s.db := by
  constructor
  · intro h
    by_cases hs : ShortOf command s.db
    · exact .inr hs
    · exact .inl (fun p hp => complete_of_allOrNothing h hs hp)
  · rintro hcond x s' ⟨t, hr, rfl⟩
    cases x with
    | success a =>
      have hr := runs_effectWithTransaction.mp hr
      have hrow := hcond.resolve_right (runs_enough hr)
      exact .inl ⟨rfl, (runs_allDeducted hr).mpr hrow⟩
    | failure e => exact .inr ⟨⟨e, rfl⟩, rfl⟩
    | defect => exact absurd rfl ((body_settles (deductStock_settles command)).runs hr)

def twoProducts : DeductStockCommand := .ofEntries [(1, 2), (2, 3)]

/-- Product 2 has no stock row, and its three units are not deducted. -/
theorem deductStock_incomplete : ¬ ∀ (command : DeductStockCommand) (s : Store),
    (∀ e ∈ command.orderItems, 0 < e.2) →
    ∀ x s', InTransaction (ProductService.deductStock command) s x s' →
      AllOrNothing command s.db x s'.db := by
  intro h
  have hshort : ¬ ShortOf twoProducts unpaidOrder.store.db := by
    rintro ⟨p, quantity, stock, hq, hstock, hlt⟩
    obtain ⟨rfl, rfl⟩ : 1 = p ∧ 7 = stock := by
      simpa [unpaidOrder, Option.ite_none_right_eq_some, eq_comm] using hstock
    have h2 : some (2 : ℤ) = some quantity := hq
    cases h2
    omega
  have hrow := complete_of_allOrNothing (h twoProducts unpaidOrder.store (by decide)) hshort
    (p := 2) (by decide)
  exact absurd hrow (by decide)

end Command

/-- How the handling of a new order can end. -/
inductive Outcome where
  | deducted
  | rejected
  | postponed
deriving DecidableEq, Repr

def Insufficient (info : CreateOrderInfo) (db : Tables) : Prop :=
  ∃ item ∈ info.orderItems, ∃ stock, db.productStock item.productId = some stock ∧
    stock < item.quantity

def StockTaken (info : CreateOrderInfo) (db db' : Tables) : Prop :=
  (∀ item ∈ info.orderItems, ∃ stock, db.productStock item.productId = some stock ∧
    db'.productStock item.productId = some (stock - item.quantity)) ∧
  ∀ p, p ∉ info.orderItems.map (·.productId) → db'.productStock p = db.productStock p

def rowStatus (db : Tables) (info : CreateOrderInfo) (ty : OutboxEventType) :
    Option OutboxEventStatus :=
  (db.outboxEvent (aggregateId info.order.id, ty)).map (·.status)

def Outcome.Holds (info : CreateOrderInfo) (db db' : Tables) : Outcome → Prop
  | deducted => StockTaken info db db' ∧ rowStatus db' info .orderDeductStock = some .init
  | rejected => Insufficient info db ∧ db'.productStock = db.productStock ∧
      rowStatus db' info .orderDeductStock = some .fail
  | postponed => db'.productStock = db.productStock ∧
      rowStatus db' info .orderDeductStock = none ∧ rowStatus db' info .orderCreated = some .init

/-- The calls as they may go, but a statement outside a transaction is only rejected when the
tables allow no answer to it. -/
def followedUp (c : Call) (w : World) (r : c.Reply) (w' : World) : Prop :=
  World.exec c w r w' ∧ match c, r with
    | .statement q, none => ∀ v, ¬ q.Allows w.store.db v
    | _, _ => True

section Handling

variable {info : CreateOrderInfo} {s t : Store} {w w' : World} {x : Exit Error Unit}

theorem short_insufficient (hn : (info.orderItems.map (·.productId)).Nodup)
    (h : ShortOf (ProductFacade.deductStockCommand info) s.db) : Insufficient info s.db := by
  obtain ⟨p, quantity, stock, hq, hstock, hlt⟩ := h
  rw [command_quantity hn] at hq
  obtain ⟨item, hfind, rfl⟩ := Option.map_eq_some_iff.mp hq
  have hid : item.productId = p := by simpa using List.find?_some hfind
  exact ⟨item, List.mem_of_find?_eq_some hfind, stock, by rw [hid, hstock], hlt⟩

theorem runs_taken (hn : (info.orderItems.map (·.productId)).Nodup)
    (hrow : ∀ item ∈ info.orderItems, (s.db.productStock item.productId).isSome) {a : Unit}
    (h : Effect.Runs Store.exec (ProductService.deductStock (ProductFacade.deductStockCommand info)) s
      (.success a) t) : StockTaken info s.db t.db := by
  have hstock := deduction_stock h
  refine ⟨fun item hitem => ?_, fun p hp => ?_⟩
  · obtain ⟨stock, hs⟩ := Option.isSome_iff_exists.mp (hrow item hitem)
    have hq : (ProductFacade.deductStockCommand info).quantity item.productId = some item.quantity := by
      rw [command_quantity hn, find_item hn hitem]
      rfl
    exact ⟨stock, hs, by rw [hstock, hs, hq]; rfl⟩
  · have hq : (ProductFacade.deductStockCommand info).quantity p = none := by
      rw [command_quantity hn, List.find?_eq_none.mpr]
      · rfl
      · simpa using hp
    rw [hstock, hq]
    simp

theorem runs_deducting_taken (hn : (info.orderItems.map (·.productId)).Nodup)
    (hrow : ∀ item ∈ info.orderItems, (s.db.productStock item.productId).isSome) {a : Unit}
    (h : Effect.Runs Store.exec (PrismaService.effectWithTransaction (ProductFacade.deducting info)) s
      (.success a) t) :
    StockTaken info s.db t.db ∧ rowStatus t.db info .orderDeductStock = some .init ∧
      t.db.outboxEvent (aggregateId info.order.id, .orderCreated) =
        s.db.outboxEvent (aggregateId info.order.id, .orderCreated) := by
  obtain ⟨u, _, hdeduct, hemit⟩ := Effect.runs_tap_success.mp (runs_effectWithTransaction.mp h)
  obtain ⟨row, ⟨_, rfl⟩, rfl⟩ := runs_createOutboxEvent hemit
  have hsame := Confined.sameSaga ((deductStock_confined _).mono (fun _ => .inl) (fun _ h => h)) hdeduct
  have htaken := runs_taken hn hrow hdeduct
  refine ⟨htaken, by simp [rowStatus, Store.after, Query.apply], ?_⟩
  simp [Store.after, Query.apply, hsame.outboxEvent]

theorem runs_catchAll_const {C : Type*} {R : C → Type} {S E E' A : Type}
    {exec : (c : C) → S → R c → S → Prop} {p : Effect C R E A} {e e' : E'} {s t : S}
    (h : Effect.Runs exec (p.catchAll (fun _ => .fail e')) s (.failure e) t) : e = e' := by
  obtain ⟨y, u, _, hy⟩ := Effect.runs_catchAll.mp h
  cases y with
  | success a => cases (Effect.runs_succeed.mp hy).1
  | failure e₁ => exact Exit.failure.inj (Effect.runs_fail.mp hy).1
  | defect => cases (Effect.runs_die.mp hy).1

/-- A failed deduction says that the stock is short only if it is. -/
theorem deductStock_failure {command : DeductStockCommand} {e : Error}
    (h : Effect.Runs Store.exec (ProductService.deductStock command) s (.failure e) t) :
    e = .appConflict ErrorCodes.orderFailed ∨ ShortOf command s.db := by
  obtain ⟨y, u, hdeduct, hupdate⟩ := Effect.runs_flatMap.mp h
  cases y with
  | success updates => exact .inl (runs_catchAll_const hupdate)
  | defect => cases (Effect.runs_die.mp hupdate).1
  | failure e₁ =>
    cases (Effect.runs_fail.mp hupdate).1
    obtain ⟨z, v, hfind, hrows⟩ := Effect.runs_flatMap.mp hdeduct
    cases z with
    | success rows =>
      obtain ⟨hallows, rfl⟩ := runs_findByIdsWithXLock hfind
      by_cases hc : ∀ row ∈ rows, Covers command row
      · simp only [Effect.resume, deductStocks_covered hc] at hrows
        cases (Effect.runs_succeed.mp hrows).1
      · exact .inr (not_not.mp (fun hs => hc ((covers_rows hallows).mpr hs)))
    | failure e₂ =>
      cases (Effect.runs_fail.mp hrows).1
      exact .inl (runs_catchAll_const hfind)
    | defect => cases (Effect.runs_die.mp hrows).1

theorem deducting_failure {e : Error}
    (h : Effect.Runs Store.exec (PrismaService.effectWithTransaction (ProductFacade.deducting info)) s
      (.failure e) t) (he : ProductFacade.isOutOfStock (PrismaService.rejection (some e)) = true) :
    ShortOf (ProductFacade.deductStockCommand info) s.db := by
  obtain ⟨y, u, hdeducting, hwrap⟩ := Effect.runs_catchAll.mp h
  cases y with
  | success a => cases (Effect.runs_succeed.mp hwrap).1
  | defect => cases (Effect.runs_die.mp hwrap).1
  | failure e₁ =>
    have hknown : e₁ = .appConflict ErrorCodes.orderFailed ∨ e₁ = .unknownException ∨
        ShortOf (ProductFacade.deductStockCommand info) s.db := by
      obtain ⟨z, v, hdeduct, hemit⟩ := Effect.runs_flatMap.mp hdeducting
      cases z with
      | failure e₂ =>
        cases (Effect.runs_fail.mp hemit).1
        exact (deductStock_failure hdeduct).imp_right .inr
      | defect => cases (Effect.runs_die.mp hemit).1
      | success a =>
        obtain ⟨r, v', _, hr⟩ := Effect.runs_perform.mp hemit
        cases r with
        | none => exact .inr (.inl (Exit.failure.inj (Effect.runs_fail.mp hr).1))
        | some row => cases (Effect.runs_succeed.mp hr).1
    obtain rfl | rfl | hshort := hknown
    · cases (Effect.runs_fail.mp hwrap).1
      exact absurd he (by decide)
    · cases (Effect.runs_fail.mp hwrap).1
      exact absurd he (by decide)
    · exact hshort

theorem followedUp_statement {q : Query} {r : Option q.Answer} {v : q.Answer}
    (h : followedUp (.statement q) w r w') (hv : q.Allows w.store.db v) :
    ∃ v', r = some v' ∧ q.Allows w.store.db v' ∧ w' = { w with store := w.store.after q v' } := by
  obtain ⟨hexec, hanswer⟩ := h
  cases r with
  | none => exact absurd hv (hanswer v)
  | some v' =>
    obtain ⟨t, ⟨hv', rfl⟩, rfl⟩ := hexec
    exact ⟨v', rfl, hv', rfl⟩

theorem runs_emitFail (hnew : w.store.db.outboxEvent (aggregateId info.order.id, .orderDeductStock) = none)
    (h : Effect.Runs followedUp (autocommit (ProductFacade.emitStockDeductedEvent info .fail)).asVoid
      w x w') :
    x = .success () ∧ w'.store.db.productStock = w.store.db.productStock ∧
      rowStatus w'.store.db info .orderDeductStock = some .fail := by
  obtain ⟨r, u, hcall, hr⟩ := Effect.runs_perform.mp h
  have hallows : (Query.createOutboxEvent (aggregateId info.order.id, .orderDeductStock)
      (Json.order info).stringify .fail).Allows w.store.db ⟨(Json.order info).stringify, .fail⟩ :=
    ⟨hnew, rfl⟩
  obtain ⟨row, rfl, ⟨_, rfl⟩, rfl⟩ := followedUp_statement hcall hallows
  obtain ⟨rfl, rfl⟩ := Effect.runs_succeed.mp hr
  exact ⟨rfl, rfl, by simp [rowStatus, Store.after, Query.apply]⟩

theorem runs_setInit {row : OutboxEventRow}
    (hrow : w.store.db.outboxEvent (aggregateId info.order.id, .orderCreated) = some row)
    (h : Effect.Runs followedUp (ProductFacade.setOrderCreatedEventToInit info) w x w') :
    x = .success () ∧ w'.store.db.productStock = w.store.db.productStock ∧
      rowStatus w'.store.db info .orderDeductStock = rowStatus w.store.db info .orderDeductStock ∧
      rowStatus w'.store.db info .orderCreated = some .init := by
  obtain ⟨r, u, hcall, hr⟩ := Effect.runs_perform.mp h
  have hfound : (Query.findUniqueOutboxEvent (aggregateId info.order.id, .orderCreated)).Allows
      w.store.db (some row) := hrow.symm
  obtain ⟨found, rfl, rfl, rfl⟩ := followedUp_statement hcall hfound
  rw [hrow] at hr
  obtain ⟨r', u', hcall', hr'⟩ := Effect.runs_perform.mp hr
  have hset : (Query.updateOutboxEvent (aggregateId info.order.id, .orderCreated) .init).Allows
      w.store.db { row with status := .init } := ⟨row, hrow, rfl⟩
  obtain ⟨new, rfl, ⟨old, _, rfl⟩, rfl⟩ := followedUp_statement hcall' hset
  obtain ⟨rfl, rfl⟩ := Effect.runs_succeed.mp hr'
  refine ⟨rfl, rfl, ?_, ?_⟩
  · simp [rowStatus, Store.after, Query.apply, OutboxEventModel.from]
  · simp [rowStatus, Store.after, Query.apply, OutboxEventModel.from]

theorem runs_processOrderDeductStock
    (h : Effect.Runs followedUp (ProductFacade.processOrderDeductStock info) w x w') :
    ∃ r u, World.exec (.transaction (.deductStock info.order.id) Unit
        (PrismaService.effectWithTransaction (ProductFacade.deducting info))) w r u ∧
      match r with
      | .resolved () => x = .success () ∧ w' = u
      | .rejected e =>
          if ProductFacade.isOutOfStock (PrismaService.rejection e) then
            Effect.Runs followedUp
              (autocommit (ProductFacade.emitStockDeductedEvent info .fail)).asVoid u x w'
          else Effect.Runs followedUp (ProductFacade.setOrderCreatedEventToInit info) u x w' := by
  obtain ⟨r, u, hcall, hr⟩ := Effect.runs_perform.mp h
  refine ⟨r, u, hcall.1, ?_⟩
  cases r with
  | resolved a => exact Effect.runs_succeed.mp hr
  | rejected e =>
    simp only [Effect.catchAll] at hr
    split at hr
    · rename_i he
      simpa [he] using hr
    · rename_i he
      simpa [he] using hr

theorem Outcome.unique {db db' : Tables} {outcome outcome' : Outcome}
    (h : outcome.Holds info db db') (h' : outcome'.Holds info db db') : outcome' = outcome := by
  have hstatus : ∀ {o : Outcome}, o.Holds info db db' →
      rowStatus db' info .orderDeductStock = match o with
        | .deducted => some .init
        | .rejected => some .fail
        | .postponed => none := by
    intro o ho
    cases o with
    | deducted => exact ho.2
    | rejected => exact ho.2.2
    | postponed => exact ho.2.1
  have heq := (hstatus h).symm.trans (hstatus h')
  cases outcome <;> cases outcome' <;> simp_all

variable (hdistinct : (info.orderItems.map (·.productId)).Nodup)
  (hnew : w.store.db.outboxEvent (aggregateId info.order.id, .orderDeductStock) = none)
  {created : OutboxEventRow}
  (hcreated : w.store.db.outboxEvent (aggregateId info.order.id, .orderCreated) = some created)
  (hstock : ∀ item ∈ info.orderItems, (w.store.db.productStock item.productId).isSome)
include hdistinct hnew hcreated hstock

theorem outcome_exists
    (h : Effect.Runs followedUp (ProductFacade.processOrderDeductStock info) w x w') :
    x = .success () ∧ ∃ outcome : Outcome, outcome.Holds info w.store.db w'.store.db := by
  have hnone : rowStatus w.store.db info .orderDeductStock = none := by simp [rowStatus, hnew]
  obtain ⟨r, u, hcall, hr⟩ := runs_processOrderDeductStock h
  match r with
  | .resolved () =>
    obtain ⟨t, ht, rfl⟩ := hcall
    obtain ⟨rfl, rfl⟩ := hr
    obtain ⟨htaken, hinit, _⟩ := runs_deducting_taken hdistinct hstock ht
    exact ⟨rfl, .deducted, htaken, hinit⟩
  | .rejected (some e) =>
    obtain ⟨⟨t, ht⟩, rfl⟩ := hcall
    simp only at hr
    split at hr
    · rename_i he
      obtain ⟨rfl, hsame, hfail⟩ := runs_emitFail hnew hr
      exact ⟨rfl, .rejected, short_insufficient hdistinct (deducting_failure ht he), hsame, hfail⟩
    · obtain ⟨rfl, hsame, hrow, hinit⟩ := runs_setInit hcreated hr
      exact ⟨rfl, .postponed, hsame, hrow.trans hnone, hinit⟩
  | .rejected none =>
    have hconflict : ProductFacade.isOutOfStock (PrismaService.rejection none) = false := by decide
    simp only [hconflict, if_false, Bool.false_eq_true] at hr
    obtain rfl | ⟨a, t, ht, rfl⟩ := hcall
    · obtain ⟨rfl, hsame, hrow, hinit⟩ := runs_setInit hcreated hr
      exact ⟨rfl, .postponed, hsame, hrow.trans hnone, hinit⟩
    · -- the transaction has committed, and only its acknowledgement is lost
      obtain ⟨htaken, hinit, hkept⟩ := runs_deducting_taken hdistinct hstock ht
      obtain ⟨rfl, hsame, hrow, _⟩ := runs_setInit (hkept.trans hcreated) hr
      refine ⟨rfl, .deducted, ⟨fun item hitem => ?_, fun p hp => ?_⟩, hrow.trans hinit⟩
      · obtain ⟨stock, hs, ht⟩ := htaken.1 item hitem
        exact ⟨stock, hs, (congrFun hsame _).trans ht⟩
      · exact (congrFun hsame p).trans (htaken.2 p hp)

/-- The handling of a new order ends in exactly one of the three ways, and it rejects the
order only when the stock does not suffice. -/
theorem deduction_outcome
    (h : Effect.Runs followedUp (ProductFacade.processOrderDeductStock info) w x w') :
    x = .success () ∧ (∃! outcome : Outcome, outcome.Holds info w.store.db w'.store.db) ∧
      (rowStatus w'.store.db info .orderDeductStock = some .fail → Insufficient info w.store.db) := by
  obtain ⟨hx, outcome, ho⟩ := outcome_exists hdistinct hnew hcreated hstock h
  refine ⟨hx, ⟨outcome, ho, fun outcome' ho' => Outcome.unique ho ho'⟩, fun hfail => ?_⟩
  cases outcome with
  | deducted => cases hfail.symm.trans ho.2
  | rejected => exact ho.1
  | postponed => cases hfail.symm.trans ho.2.1

end Handling

theorem deduction_outcome_placed : ∃ w x w',
    Effect.Runs followedUp (ProductFacade.processOrderDeductStock firstOrder) w x w' ∧
    x = .success () ∧ (∃! outcome : Outcome, outcome.Holds firstOrder w.store.db w'.store.db) ∧
      (rowStatus w'.store.db firstOrder .orderDeductStock = some .fail →
        Insufficient firstOrder w.store.db) := by
  obtain ⟨w, hshows, _⟩ := (tea 10).staged_order
  obtain ⟨t, hbody, _⟩ := taken_runs hshows (tea 10).info_filled (tea_covered 10) rfl
  have hrun : Effect.Runs followedUp (ProductFacade.processOrderDeductStock firstOrder) w
      (.success ()) _ := Effect.runs_perform.mpr
    ⟨.resolved (), _, ⟨⟨_, runs_effectWithTransaction.mpr hbody, rfl⟩, trivial⟩, .succeed () _⟩
  refine ⟨w, _, _, hrun, deduction_outcome (by decide) (hshows.noRow rfl) (hshows.row .orderCreated rfl)
    ?_ hrun⟩
  intro item hitem
  obtain rfl := List.mem_singleton.mp hitem
  rw [hshows.stock]
  rfl

end EcommerceService.Deduction
