import EcommerceService.SagaSafety
import EcommerceService.SagaRuns

namespace EcommerceService.Redelivery

open EcommerceService.Effects EcommerceService.Errors EcommerceService.Models
open EcommerceService.Database EcommerceService.Repositories EcommerceService.Backend
open EcommerceService.Services EcommerceService.Facades EcommerceService.Pool
open EcommerceService.TransactionEffects EcommerceService.StockEffects EcommerceService.Saga
open EcommerceService.SagaCalls EcommerceService.SagaInvariant EcommerceService.SagaSafety
open EcommerceService.SagaRuns

/-- The stocks, the wallets, the orders and the event rows are the same. -/
structure Unchanged (w w' : World) : Prop where
  productStock : w'.store.db.productStock = w.store.db.productStock
  wallet : w'.store.db.wallet = w.store.db.wallet
  order : w'.store.db.order = w.store.db.order
  outboxEvent : w'.store.db.outboxEvent = w.store.db.outboxEvent

/-- A statement that is only rejected when the tables allow no answer to it. -/
def fairly (q : Query) (s : Store) (r : Option q.Answer) (t : Store) : Prop :=
  Store.exec q s r t ∧ (r = none → ∀ v, ¬ q.Allows s.db v)

/-- Every statement is answered as the tables allow, and no transaction is rejected by the
engine itself. -/
def Reliable : (c : Call) → World → c.Reply → Prop
  | .statement q, w, r => r = none → ∀ v, ¬ q.Allows w.store.db v
  | .transaction _ _ body, w, .resolved a => ∃ t, Effect.Runs fairly body w.store (.success a) t
  | .transaction _ _ body, w, .rejected e =>
      ∃ e' t, e = some e' ∧ Effect.Runs fairly body w.store (.failure e') t
  | .emit _ _ _, _, _ => True

def AnyReply : (c : Call) → World → c.Reply → Prop := fun _ _ _ => True

def Handles (good : (c : Call) → World → c.Reply → Prop) (m : Message) (w w' : World) : Prop :=
  ∃ x, Effect.Runs (fun c w r t => World.exec c w r t ∧ good c w r) (Job.message m).program w x w'

/-- Some product of the order has less stock than the order asks for. -/
def Short (info : CreateOrderInfo) (db : Tables) : Prop :=
  ∃ p quantity stock, (ProductFacade.deductStockCommand info).quantity p = some quantity ∧
    db.productStock p = some stock ∧ stock < quantity

/-- The `ORDER_CREATED` row of the order is already `INIT`. -/
def Armed (o : ℕ) (db : Tables) : Prop :=
  ∃ payload, db.outboxEvent (aggregateId o, .orderCreated) = some ⟨payload, .init⟩

section Deducting

variable {info : CreateOrderInfo} {command : DeductStockCommand} {s t : Store}

theorem answering_fairly : Answering fairly := fun _ _ _ hv => ⟨⟨hv, rfl⟩, fun h => nomatch h⟩

theorem short_iff {rows : List ProductStockModel} (h : (Query.selectStocksForUpdate
    (ProductFacade.deductStockCommand info).productIds).Allows s.db rows) :
    Short info s.db ↔ ∃ row ∈ rows, ¬ Covers (ProductFacade.deductStockCommand info) row := by
  have hcovers : (∀ row ∈ rows, Covers (ProductFacade.deductStockCommand info) row) ↔
      ¬ Short info s.db := covers_rows h
  rw [← not_iff_not, ← hcovers]
  simp

theorem short_fails (h : Short info s.db) {y : Exit Error Unit}
    (hr : Effect.Runs fairly
      (ProductService.deductStock (ProductFacade.deductStockCommand info)) s y t) :
    y = .failure outOfStock := by
  obtain ⟨y₁, u₁, hr₁, hy⟩ := Effect.runs_flatMap.mp hr
  obtain ⟨y₂, u₂, hr₂, hy₁⟩ := Effect.runs_flatMap.mp hr₁
  obtain ⟨y₃, u₃, hr₃, hy₂⟩ := Effect.runs_catchAll.mp hr₂
  obtain ⟨r, v, ⟨hexec, hfair⟩, hr₃⟩ := Effect.runs_perform.mp hr₃
  cases r with
  | none =>
    obtain ⟨p, quantity, _, hq, _, _⟩ := h
    have hp : p ∈ (ProductFacade.deductStockCommand info).productIds :=
      mem_productIds.mpr ⟨quantity, hq⟩
    obtain ⟨rows, hrows⟩ := rows_exist s.db (productIds_nodup _) (List.ne_nil_of_mem hp)
    exact absurd hrows (hfair rfl rows)
  | some rows =>
    obtain ⟨hallows, rfl⟩ := hexec
    obtain ⟨rfl, rfl⟩ := Effect.runs_succeed.mp hr₃
    obtain ⟨rfl, rfl⟩ := Effect.runs_succeed.mp hy₂
    simp only [Effect.resume, deductStocks_short ((short_iff hallows).mp h)] at hy₁
    obtain ⟨rfl, rfl⟩ := Effect.runs_fail.mp hy₁
    exact (Effect.runs_fail.mp hy).1

theorem short_rejected (h : Short info s.db) {e : Error}
    (hr : Effect.Runs fairly (PrismaService.effectWithTransaction (ProductFacade.deducting info)) s
      (.failure e) t) : e = outOfStock := by
  obtain ⟨y, u, hr, hy⟩ := Effect.runs_catchAll.mp hr
  obtain ⟨y₁, u₁, hr₁, hy₁⟩ := Effect.runs_flatMap.mp hr
  obtain rfl := short_fails h hr₁
  obtain ⟨rfl, rfl⟩ := Effect.runs_fail.mp hy₁
  obtain ⟨heq, _⟩ := Effect.runs_fail.mp hy
  exact Exit.failure.inj heq

theorem covered_rejected (h : ¬ Short info s.db) {row : OutboxEventRow}
    (hrow : s.db.outboxEvent (aggregateId info.order.id, .orderDeductStock) = some row) :
    ∃ e t, Effect.Runs fairly (PrismaService.effectWithTransaction (ProductFacade.deducting info)) s
      (.failure e) t ∧ ProductFacade.isOutOfStock (PrismaService.rejection (some e)) = false := by
  by_cases hids : (ProductFacade.deductStockCommand info).productIds = []
  · have hfair : fairly
        (.selectStocksForUpdate (ProductFacade.deductStockCommand info).productIds) s none s :=
      ⟨rfl, fun _ rows hrows => hrows.1 hids⟩
    have hfind : Effect.Runs fairly (ProductStockRepository.findByIdsWithXLock
        (ProductFacade.deductStockCommand info).productIds) s
        (.failure (.appConflict ErrorCodes.orderFailed)) s :=
      Effect.runs_catchAll_failure (.perform hfair (.fail _ s)) (.fail _ s)
    have hdeducting : Effect.Runs fairly (ProductFacade.deducting info) s _ s :=
      Effect.runs_flatMap_failure (Effect.runs_flatMap_failure (Effect.runs_flatMap_failure hfind))
    exact ⟨_, s, Effect.runs_catchAll_failure hdeducting (.fail _ s), rfl⟩
  · obtain ⟨rows, hrows⟩ := rows_exist s.db (productIds_nodup _) hids
    have hcovers : ∀ row ∈ rows, Covers (ProductFacade.deductStockCommand info) row := by
      by_contra hshort
      push Not at hshort
      exact h ((short_iff hrows).mpr hshort)
    have hdeduct := deductStock_run answering_fairly hrows hcovers
    obtain ⟨hdb, _⟩ := updateAll_same s (rows.map (deducted (ProductFacade.deductStockCommand info)))
    generalize updateAll s (rows.map (deducted (ProductFacade.deductStockCommand info))) = u
      at hdeduct hdb
    have hfair : fairly (.createOutboxEvent (aggregateId info.order.id, .orderDeductStock)
        (Json.order info).stringify .init) u none u := by
      refine ⟨rfl, fun _ v hv => ?_⟩
      have hnone := hv.1
      rw [hdb] at hnone
      cases hrow.symm.trans hnone
    have hcreate : Effect.Runs fairly (ProductFacade.emitStockDeductedEvent info .init) u
        (.failure .unknownException) u := Effect.runs_flatMap_failure (.perform hfair (.fail _ u))
    have hdeducting : Effect.Runs fairly (ProductFacade.deducting info) s
        (.failure .unknownException) u :=
      Effect.runs_flatMap.mpr ⟨.success (), u, hdeduct, Effect.runs_flatMap_failure hcreate⟩
    exact ⟨_, u, Effect.runs_catchAll_failure hdeducting (.fail _ u), rfl⟩

end Deducting

section Handling

variable {good : (c : Call) → World → c.Reply → Prop} {m : Message} {info : CreateOrderInfo}
  {w w' : World}

def armed (o : ℕ) (db : Tables) (row : OutboxEventRow) : Tables :=
  { db with
    outboxEvent := Function.update db.outboxEvent (aggregateId o, .orderCreated)
      (some { row with status := .init }) }

def Handled (o : ℕ) (db : Tables) : Prop :=
  ∃ row, db.outboxEvent (aggregateId o, .orderDeductStock) = some row

theorem handle_eq (hty : m.eventType = .orderCreated)
    (hinfo : orderInfoOf (received m.value) = some info) :
    (Job.message m).program = ProductFacade.processOrderDeductStock info := by
  simp only [Job.program, hty, handleOrderCreated, withOrderInfo, hinfo]

theorem Handled.deducting_fails {s t : Store} {a : Unit} (h : Handled info.order.id s.db)
    (hr : Effect.Runs Store.exec (PrismaService.effectWithTransaction (ProductFacade.deducting info)) s
      (.success a) t) : False := by
  obtain ⟨row, hrow⟩ := h
  obtain ⟨u, v, hsame, ⟨⟨hnone, _⟩, _⟩⟩ := runs_deducting (runs_effectWithTransaction.mp hr)
  rw [hsame.outboxEvent] at hnone
  cases hrow.symm.trans hnone

theorem Handled.insert_same {payload : Json} {status : OutboxEventStatus} {r : Option OutboxEventRow}
    (h : Handled info.order.id w.store.db) (hexec : World.exec (.statement (.createOutboxEvent
      (aggregateId info.order.id, .orderDeductStock) payload status)) w r w') : w' = w := by
  cases World.exec_change hexec with
  | same => rfl
  | statement hq =>
    obtain ⟨row, hrow⟩ := h
    cases hrow.symm.trans hq.1.1

theorem exec_handled (hty : m.eventType = .orderCreated)
    (hinfo : orderInfoOf (received m.value) = some info) (hrow : Handled info.order.id w.store.db)
    {q : Call} {r : q.Reply} (h : Makes (.message m) q) (hexec : World.exec q w r w') :
    w'.store.db = w.store.db ∨
      ∃ row, w.store.db.outboxEvent (aggregateId info.order.id, .orderCreated) = some row ∧
        w'.store.db = armed info.order.id w.store.db row := by
  cases h with
  | deductStock _ hinfo' =>
    obtain rfl := Option.some.inj (hinfo.symm.trans hinfo')
    cases World.exec_change hexec with
    | same => exact .inl rfl
    | commit hr => exact (hrow.deducting_fails hr).elim
  | outOfStock _ hinfo' =>
    obtain rfl := Option.some.inj (hinfo.symm.trans hinfo')
    exact .inl (by rw [hrow.insert_same hexec])
  | findOrderCreated _ _ =>
    cases World.exec_change hexec with
    | same => exact .inl rfl
    | statement hq =>
      obtain ⟨_, rfl⟩ := hq
      exact .inl rfl
  | setInit _ hinfo' =>
    obtain rfl := Option.some.inj (hinfo.symm.trans hinfo')
    cases World.exec_change hexec with
    | same => exact .inl rfl
    | statement hq =>
      obtain ⟨⟨old, hold, rfl⟩, rfl⟩ := hq
      exact .inr ⟨old, hold, rfl⟩
  | payment hty' _ => cases hty.symm.trans hty'
  | paymentFailed hty' _ => cases hty.symm.trans hty'
  | orderSuccess hty' _ => cases hty.symm.trans hty'

theorem armed_same {o : ℕ} {db : Tables} {row : OutboxEventRow} (h : Armed o db)
    (hrow : db.outboxEvent (aggregateId o, .orderCreated) = some row) : armed o db row = db := by
  obtain ⟨payload, hinit⟩ := h
  obtain rfl := Option.some.inj (hrow.symm.trans hinit)
  rw [armed, ← hrow, Function.update_eq_self]

theorem armed_changed {o : ℕ} {db : Tables} (h : ¬ Armed o db) (row : OutboxEventRow) :
    (armed o db row).outboxEvent ≠ db.outboxEvent := by
  intro heq
  have hnew := (congrFun heq (aggregateId o, .orderCreated)).symm.trans (Function.update_self _ _ _)
  exact h ⟨row.payload, hnew⟩

theorem Unchanged.of_db (h : w'.store.db = w.store.db) : Unchanged w w' :=
  ⟨by rw [h], by rw [h], by rw [h], by rw [h]⟩

/-- Where the row is armed already, no handling changes anything. -/
theorem armed_unchanged (hty : m.eventType = .orderCreated)
    (hinfo : orderInfoOf (received m.value) = some info) (hhandled : Handled info.order.id w.store.db)
    (harmed : Armed info.order.id w.store.db) (h : Handles good m w w') : Unchanged w w' := by
  obtain ⟨x, hr⟩ := h
  refine .of_db ((calls_message m).runs (F := fun v => v.store.db = w.store.db) hr rfl
    (fun c v r v' _ hexec => ⟨v, v', hexec.1⟩) (fun c v r v' hmakes hexec hv => ?_)).2
  obtain hsame | ⟨row, hold, hset⟩ := exec_handled hty hinfo (by rwa [hv]) hmakes hexec.1
  · exact hsame.trans hv
  · rw [hset, armed_same (hv ▸ harmed) hold, hv]

theorem rejected_arms (good : (c : Call) → World → c.Reply → Prop)
    (hgood : ∀ q v a, good (.statement q) v (some a)) (hty : m.eventType = .orderCreated)
    (hinfo : orderInfoOf (received m.value) = some info) {row : OutboxEventRow}
    (hrow : w.store.db.outboxEvent (aggregateId info.order.id, .orderCreated) = some row)
    {e : Option Error} (he : ProductFacade.isOutOfStock (PrismaService.rejection e) = false)
    (hexec : World.exec (.transaction (.deductStock info.order.id) Unit
      (PrismaService.effectWithTransaction (ProductFacade.deducting info))) w (.rejected e) w)
    (hreply : good (.transaction (.deductStock info.order.id) Unit
      (PrismaService.effectWithTransaction (ProductFacade.deducting info))) w (.rejected e)) :
    ∃ w', Effect.Runs (fun c w r t => World.exec c w r t ∧ good c w r) (Job.message m).program w
        (.success ()) w' ∧ w'.published = w.published ∧
      w'.store.db = armed info.order.id w.store.db row := by
  let key : OutboxKey := (aggregateId info.order.id, .orderCreated)
  let w₁ : World := { w with store := w.store.after (.findUniqueOutboxEvent key) (some row) }
  let w₂ : World := { w₁ with
    store := w₁.store.after (.updateOutboxEvent key .init) { row with status := .init } }
  have hfind : World.exec (.statement (.findUniqueOutboxEvent key)) w (some (some row)) w₁ :=
    ⟨_, ⟨hrow.symm, rfl⟩, rfl⟩
  have hupdate : World.exec (.statement (.updateOutboxEvent key .init)) w₁
      (some { row with status := .init }) w₂ := ⟨_, ⟨⟨row, hrow, rfl⟩, rfl⟩, rfl⟩
  have harm : Effect.Runs (fun c w r t => World.exec c w r t ∧ good c w r)
      (ProductFacade.setOrderCreatedEventToInit info) w (.success ()) w₂ :=
    .perform ⟨hfind, hgood _ _ _⟩ (.perform ⟨hupdate, hgood _ _ _⟩ (.succeed _ _))
  refine ⟨w₂, ?_, rfl, rfl⟩
  rw [handle_eq hty hinfo]
  refine Effect.runs_catchAll_failure (.perform ⟨hexec, hreply⟩ (.fail _ w)) ?_
  rw [he]
  exact harm

/-- An order that is not short is armed again, even when every call is reliable. -/
theorem reliable_arms (hty : m.eventType = .orderCreated)
    (hinfo : orderInfoOf (received m.value) = some info) (hrow : Handled info.order.id w.store.db)
    (hshort : ¬ Short info w.store.db) {row : OutboxEventRow}
    (hcreated : w.store.db.outboxEvent (aggregateId info.order.id, .orderCreated) = some row) :
    ∃ w', Handles Reliable m w w' ∧ w'.store.db = armed info.order.id w.store.db row := by
  obtain ⟨row', hrow'⟩ := hrow
  obtain ⟨e, t, hr, he⟩ := covered_rejected hshort hrow'
  obtain ⟨w', hruns, _, harm⟩ := rejected_arms Reliable (fun _ _ _ h => nomatch h) hty hinfo
    hcreated he ⟨⟨t, hr.mono (fun _ _ _ _ h => h.1)⟩, rfl⟩ ⟨e, t, rfl, hr⟩
  exact ⟨w', ⟨_, hruns⟩, harm⟩

theorem short_unchanged (hty : m.eventType = .orderCreated)
    (hinfo : orderInfoOf (received m.value) = some info) (hrow : Handled info.order.id w.store.db)
    (hshort : Short info w.store.db) (h : Handles Reliable m w w') : Unchanged w w' := by
  obtain ⟨x, hr⟩ := h
  rw [handle_eq hty hinfo] at hr
  obtain ⟨y, u, htransaction, hrest⟩ := Effect.runs_catchAll.mp hr
  obtain ⟨r, v, ⟨hexec, hreply⟩, hend⟩ := Effect.runs_perform.mp htransaction
  cases r with
  | resolved a =>
    obtain ⟨t, ht, _⟩ := hexec
    exact (hrow.deducting_fails ht).elim
  | rejected e =>
    obtain ⟨e, t, rfl, hfair⟩ := hreply
    obtain rfl := short_rejected hshort hfair
    obtain ⟨_, rfl⟩ := hexec
    obtain ⟨rfl, rfl⟩ := Effect.runs_fail.mp hend
    obtain ⟨r, v, ⟨hinsert, _⟩, hend⟩ := Effect.runs_perform.mp hrest
    obtain rfl := hrow.insert_same hinsert
    cases r with
    | none => exact .of_db (by rw [(Effect.runs_fail.mp hend).2])
    | some row => exact .of_db (by rw [(Effect.runs_succeed.mp hend).2])

end Handling

section Main

variable {c : Configuration} {m : Message} {info : CreateOrderInfo}

theorem sent_row (h : Reachable anyStep c) (hm : m ∈ c.shared.published)
    (hty : m.eventType = .orderCreated)
    (hinfo : orderInfoOf (received m.value) = some info) :
    ∃ row, c.shared.store.db.outboxEvent (aggregateId info.order.id, .orderCreated) = some row := by
  have hc := reachable_consistent h
  obtain ⟨row, hrow, _⟩ := hc.lives.born_row (hty ▸ hc.message m hm info hinfo)
  exact ⟨row, hrow⟩

/-- A handling of a message that was handled before changes nothing exactly when the row it
would arm is armed already; and when its calls are reliable, also when the stock is short. -/
theorem redelivery_noop_iff (h : Reachable anyStep c) (hm : m ∈ c.shared.published)
    (hty : m.eventType = .orderCreated) (hinfo : orderInfoOf (received m.value) = some info)
    (hrow : Handled info.order.id c.shared.store.db) :
    ((∀ w', Handles AnyReply m c.shared w' → Unchanged c.shared w') ↔
      Armed info.order.id c.shared.store.db) ∧
    ((∀ w', Handles Reliable m c.shared w' → Unchanged c.shared w') ↔
      Armed info.order.id c.shared.store.db ∨ Short info c.shared.store.db) := by
  obtain ⟨row, hcreated⟩ := sent_row h hm hty hinfo
  refine ⟨⟨fun hall => ?_, fun harmed w' => armed_unchanged hty hinfo hrow harmed⟩,
    ⟨fun hall => ?_, fun hcond w' hw => ?_⟩⟩
  · by_contra hnot
    obtain ⟨w', hruns, _, harm⟩ := rejected_arms AnyReply (fun _ _ _ => trivial) hty hinfo
      hcreated (e := none) rfl (.inl rfl) trivial
    exact armed_changed hnot row (harm ▸ (hall w' ⟨_, hruns⟩).outboxEvent)
  · by_contra hnot
    rw [not_or] at hnot
    obtain ⟨w', hw, harm⟩ := reliable_arms hty hinfo hrow hnot.2 hcreated
    exact armed_changed hnot.1 row (harm ▸ (hall w' hw).outboxEvent)
  · obtain harmed | hshort := hcond
    · exact armed_unchanged hty hinfo hrow harmed hw
    · exact short_unchanged hty hinfo hrow hshort hw

theorem taken_again {w : World} (hshows : ((tea 10).placed.sent .orderCreated .init).taken.Shows w.store) :
    Handled 1 w.store.db ∧ ¬ Armed 1 w.store.db ∧ ¬ Short firstOrder w.store.db := by
  refine ⟨⟨_, hshows.row .orderDeductStock rfl⟩, ?_, ?_⟩
  · rintro ⟨payload, hrow⟩
    cases (hshows.row .orderCreated rfl).symm.trans hrow
  · rintro ⟨p, quantity, stock, hq, hstock, hlt⟩
    obtain rfl := List.mem_singleton.mp (mem_productIds.mpr ⟨quantity, hq⟩ : p ∈ [1])
    obtain rfl : 3 = quantity := Option.some.inj hq
    have hseven : w.store.db.productStock 1 = some (10 - 3) := congrFun hshows.stock 1
    obtain rfl : (10 - 3 : ℤ) = stock := Option.some.inj (hseven.symm.trans hstock)
    omega

theorem firstOrder_read :
    orderInfoOf (received (messageOf firstOrder .orderCreated).value) = some firstOrder := rfl

theorem redelivery_noop_iff_taken : ∃ (c : Configuration) (m : Message), Reachable anyStep c ∧
    m ∈ c.shared.published ∧ Handled firstOrder.order.id c.shared.store.db ∧
    ((∀ w', Handles AnyReply m c.shared w' → Unchanged c.shared w') ↔
      Armed firstOrder.order.id c.shared.store.db) ∧
    ((∀ w', Handles Reliable m c.shared w' → Unchanged c.shared w') ↔
      Armed firstOrder.order.id c.shared.store.db ∨ Short firstOrder c.shared.store.db) := by
  obtain ⟨w, hshows, hpublished, _, hstaged⟩ :=
    (Purchase.staged_taken (tea_covered 10)).reached (tea 10).initial
  have hreach := hstaged _ permits_anyStep
  have hm : messageOf firstOrder .orderCreated ∈ w.published := by
    rw [hpublished]
    exact List.mem_cons_self
  obtain ⟨hhandled, _⟩ := taken_again hshows
  have hiff := redelivery_noop_iff hreach hm rfl firstOrder_read hhandled
  exact ⟨quiet w, messageOf firstOrder .orderCreated, hreach, hm, hhandled, hiff⟩

/-- The second delivery of the message sets the row from `SUCCESS` back to `INIT`. -/
theorem redelivery_arms : ¬ ∀ (c : Configuration) (m : Message) (info : CreateOrderInfo) (w' : World),
    Reachable anyStep c → m ∈ c.shared.published → m.eventType = .orderCreated →
    orderInfoOf (received m.value) = some info → Handled info.order.id c.shared.store.db →
    Handles Reliable m c.shared w' → Unchanged c.shared w' := by
  intro h
  obtain ⟨w, hshows, hpublished, _, hstaged⟩ :=
    (Purchase.staged_taken (tea_covered 10)).reached (tea 10).initial
  have hm : messageOf firstOrder .orderCreated ∈ w.published := by
    rw [hpublished]
    exact List.mem_cons_self
  obtain ⟨hhandled, harmed, hshort⟩ := taken_again hshows
  have hcreated := hshows.row .orderCreated rfl
  obtain ⟨w', hw, harm⟩ := reliable_arms rfl firstOrder_read hhandled hshort hcreated
  have hsame := h _ _ _ w' (hstaged _ permits_anyStep) hm rfl firstOrder_read hhandled hw
  exact armed_changed harmed _ (harm ▸ hsame.outboxEvent)

end Main

end EcommerceService.Redelivery
