import EcommerceService.OutboxPolling

namespace EcommerceService.TransactionEffects

open EcommerceService.Effects EcommerceService.Errors EcommerceService.Models
open EcommerceService.Database EcommerceService.Repositories EcommerceService.Backend
open EcommerceService.Services EcommerceService.Facades EcommerceService.OutboxPolling

theorem runs_tryPromise {q : Query} {s t : Store} {v : q.Answer} :
    Effect.Runs Store.exec (tryPromise q) s (.success v) t ↔ Store.exec q s (some v) t := by
  constructor
  · intro h
    obtain ⟨v', hq, hv⟩ | ⟨_, hfail⟩ := Effect.runs_attempt h
    · cases hv
      exact hq
    · cases hfail
  · exact fun hq => .perform hq (.succeed v t)

def Answering (exec : (q : Query) → Store → Option q.Answer → Store → Prop) : Prop :=
  ∀ q s v, q.Allows s.db v → exec q s (some v) (s.after q v)

theorem answering_exec : Answering Store.exec := fun _ _ _ hv => ⟨hv, rfl⟩

theorem tryPromise_run {exec : (q : Query) → Store → Option q.Answer → Store → Prop}
    (hexec : Answering exec) {q : Query} {s : Store} {v : q.Answer} (hv : q.Allows s.db v) :
    Effect.Runs exec (tryPromise q) s (.success v) (s.after q v) :=
  .perform (hexec q s v hv) (.succeed v _)

theorem query_then {exec : (q : Query) → Store → Option q.Answer → Store → Prop}
    (hexec : Answering exec) {E A : Type} {q : Query}
    {k : Option q.Answer → Effect Query (fun q => Option q.Answer) E A} {s t : Store} {x : Exit E A}
    (v : q.Answer) (hv : q.Allows s.db v) (hk : Effect.Runs exec (k (some v)) (s.after q v) x t) :
    Effect.Runs exec (.perform q k) s x t := Effect.runs_perform.mpr ⟨some v, _, hexec q s v hv, hk⟩

theorem runs_effectWithTransaction {exec : (q : Query) → Store → Option q.Answer → Store → Prop}
    {A : Type} {effect : Statements A} {s t : Store} {a : A} :
    Effect.Runs exec (PrismaService.effectWithTransaction effect) s (.success a) t ↔
      Effect.Runs exec effect s (.success a) t := by
  refine Effect.runs_catchAll_success (fun e => ?_)
  split
  · exact ⟨_, rfl⟩
  · exact ⟨_, rfl⟩

def onStock : Query → Prop
  | .selectStocksForUpdate _ => True
  | .updateManyStock _ _ => True
  | _ => False

def onWallet : Query → Prop
  | .findUniqueOrThrowWallet _ => True
  | .updateWallet _ _ _ => True
  | .createPoint _ => True
  | _ => False

structure SameSaga (s t : Store) : Prop where
  order : t.db.order = s.db.order
  outboxEvent : t.db.outboxEvent = s.db.outboxEvent
  journal : t.journal = s.journal

theorem SameSaga.refl (s : Store) : SameSaga s s := ⟨rfl, rfl, rfl⟩

theorem SameSaga.trans {s t u : Store} (h : SameSaga s t) (h' : SameSaga t u) : SameSaga s u :=
  ⟨h'.order.trans h.order, h'.outboxEvent.trans h.outboxEvent, h'.journal.trans h.journal⟩

theorem exec_onStock {q : Query} {s t : Store} {r : Option q.Answer} (hq : onStock q)
    (h : Store.exec q s r t) : SameSaga s t := by
  cases r with
  | none => exact h ▸ .refl s
  | some v =>
    obtain ⟨_, rfl⟩ := h
    cases q with
    | selectStocksForUpdate ids => exact ⟨rfl, rfl, List.append_nil _⟩
    | updateManyStock p n => exact ⟨rfl, rfl, List.append_nil _⟩
    | _ => exact hq.elim

theorem exec_onWallet {q : Query} {s t : Store} {r : Option q.Answer} (hq : onWallet q)
    (h : Store.exec q s r t) : SameSaga s t := by
  cases r with
  | none => exact h ▸ .refl s
  | some v =>
    obtain ⟨_, rfl⟩ := h
    cases q with
    | findUniqueOrThrowWallet u => exact ⟨rfl, rfl, List.append_nil _⟩
    | updateWallet id v n => exact ⟨rfl, rfl, List.append_nil _⟩
    | createPoint p => exact ⟨rfl, rfl, List.append_nil _⟩
    | _ => exact hq.elim

theorem Store.after_read {q : Query} {s : Store} {v : q.Answer} (hdb : q.apply s.db v = s.db)
    (hj : q.events s.db = []) : s.after q v = s := by
  rw [Store.after, hdb, hj, List.append_nil]

theorem Store.after_update {key : OutboxKey} {status : OutboxEventStatus} {s : Store}
    {old row : OutboxEventRow} (hold : s.db.outboxEvent key = some old) :
    (s.after (.updateOutboxEvent key status) row).journal =
      s.journal ++ [.updated key old.status status] := by
  simp [Store.after, Query.events, hold]

theorem confined_tryPromise {P : Query → Prop} {Q : Error → Prop} {q : Query} (hq : P q)
    (hQ : Q .unknownException) : Effect.Confined Effect.anyAnswer P Q (tryPromise q) := by
  refine Effect.confined_perform.mpr ⟨hq, fun r _ => ?_⟩
  cases r with
  | none => exact Effect.confined_fail.mpr hQ
  | some v => exact Effect.confined_succeed

/-- The failures that a transaction turns into a conflict. -/
def Conflicting (e : Error) : Prop := e.isConflict = true ∨ e.isApplication = false

theorem effectWithTransaction_confined {A : Type} {P : Query → Prop} {effect : Statements A}
    (h : Effect.Confined Effect.anyAnswer P Conflicting effect) :
    Effect.Confined Effect.anyAnswer P (fun e => e.isConflict = true)
      (PrismaService.effectWithTransaction effect) := by
  refine h.catchAll (fun e he => ?_)
  split
  · rename_i happ
    exact Effect.confined_fail.mpr (he.resolve_right (by simp [happ]))
  · exact Effect.confined_fail.mpr rfl

theorem updateBulk_confined (updates : List ProductStockModel) :
    Effect.Confined Effect.anyAnswer onStock (fun e => e.isConflict = true)
      (ProductStockRepository.updateBulk updates) := by
  refine Effect.Confined.catchAll (Q := fun _ => True) (Effect.Confined.map ?_)
    (fun _ _ => Effect.confined_fail.mpr rfl)
  refine Effect.Confined.all (fun p hp => ?_)
  obtain ⟨update, _, rfl⟩ := List.mem_map.mp hp
  exact confined_tryPromise trivial trivial

theorem findByIdsWithXLock_confined (productIds : List ℕ) :
    Effect.Confined Effect.anyAnswer onStock (fun e => e.isConflict = true)
      (ProductStockRepository.findByIdsWithXLock productIds) :=
  (confined_tryPromise (Q := fun _ => True) trivial trivial).catchAll
    (fun _ _ => Effect.confined_fail.mpr rfl)

theorem deductStocks_confined (command : DeductStockCommand) (stocks : List ProductStockModel) :
    Effect.Confined Effect.anyAnswer onStock (fun e => e.isConflict = true)
      (ProductService.deductStocks command stocks) := by
  refine Effect.Confined.all (fun p hp => ?_)
  obtain ⟨stock, _, rfl⟩ := List.mem_map.mp hp
  rw [ProductService.deduct]
  split
  · rw [ProductStockModel.deduct]
    split
    · exact Effect.confined_succeed
    · exact Effect.confined_fail.mpr rfl
  · exact Effect.confined_fail.mpr rfl

theorem deductStock_confined (command : DeductStockCommand) :
    Effect.Confined Effect.anyAnswer onStock (fun e => e.isConflict = true)
      (ProductService.deductStock command) :=
  ((findByIdsWithXLock_confined _).flatMap (deductStocks_confined command)).flatMap
    updateBulk_confined

theorem addStocks_confined (payload : CreateOrderInfo) (stocks : List ProductStockModel) :
    Effect.Confined Effect.anyAnswer onStock Conflicting (addStocks payload stocks) := by
  refine Effect.Confined.all (fun p hp => ?_)
  obtain ⟨stock, _, rfl⟩ := List.mem_map.mp hp
  rw [addStock]
  split
  · exact Effect.confined_succeed
  · exact Effect.confined_fail.mpr (.inr rfl)

theorem restoring_confined (payload : CreateOrderInfo) :
    Effect.Confined Effect.anyAnswer onStock Conflicting (restoring payload) := by
  have hconflict : ∀ e : Error, e.isConflict = true → Conflicting e := fun _ => .inl
  exact (((findByIdsWithXLock_confined _).mono (fun _ h => h) hconflict).flatMap
    (addStocks_confined payload)).flatMap
    (fun stocks => (updateBulk_confined stocks).mono (fun _ h => h) hconflict)

theorem payable_confined {P : Query → Prop} (wallet : WalletModel) (amount : ℚ) :
    Effect.Confined Effect.anyAnswer P (fun _ => True) (wallet.payable amount : Statements Bool) := by
  rw [WalletModel.payable]
  split
  · exact Effect.confined_succeed
  · exact Effect.confined_fail.mpr trivial

theorem walletUpdate_confined {P : Query → Prop} {id : ℕ} {totalPoint : ℚ} {version : Option ℕ}
    (h : P (.updateWallet id version totalPoint)) : Effect.Confined Effect.anyAnswer P
      (fun _ => True) (WalletRepository.update id totalPoint version) :=
  (confined_tryPromise (Q := fun _ => True) h trivial).map.catchAll
    (fun _ _ => Effect.confined_fail.mpr trivial)

theorem completePayment_confined (userId : ℕ) (amount : ℚ) :
    Effect.Confined Effect.anyAnswer onWallet (fun _ => True)
      (WalletService.completePayment userId amount) := by
  have hread : Effect.Confined Effect.anyAnswer onWallet (fun _ => True)
      (WalletRepository.getByUserId userId) :=
    (confined_tryPromise (Q := fun _ => True) trivial trivial).map.catchAll
      (fun _ _ => Effect.confined_fail.mpr trivial)
  have hcreate : ∀ wallet : WalletModel, Effect.Confined Effect.anyAnswer onWallet (fun _ => True)
      (WalletService.createPoint amount wallet) := fun _ => confined_tryPromise trivial trivial
  refine (((hread.tap (fun wallet => payable_confined wallet amount)).tap hcreate).flatMap
    (fun _ => walletUpdate_confined trivial)).catchAll (fun e _ => ?_)
  split
  · exact Effect.confined_fail.mpr trivial
  · exact Effect.confined_fail.mpr trivial

theorem Confined.sameSaga {A : Type} {Q : Error → Prop} {p : Statements A} {s t : Store}
    {x : Exit Error A} (h : Effect.Confined Effect.anyAnswer (fun q => onStock q ∨ onWallet q) Q p)
    (hr : Effect.Runs Store.exec p s x t) : SameSaga s t :=
  (h.runs hr (SameSaga.refl s) (fun _ _ _ _ _ _ => trivial) (fun _ _ _ _ hq hexec hs =>
    hs.trans (hq.elim (fun h => exec_onStock h hexec) (fun h => exec_onWallet h hexec)))).2

theorem runs_createOutboxEvent {aggregateId : String} {eventType : OutboxEventType} {payload : Json}
    {status : OutboxEventStatus} {s t : Store} {model : OutboxEventModel}
    (h : Effect.Runs Store.exec
      (OutboxEventService.createOutboxEvent aggregateId eventType payload status) s
      (.success model) t) :
    ∃ row, Store.exec (.createOutboxEvent (aggregateId, eventType) payload status) s (some row) t := by
  obtain ⟨row, hrow, _⟩ := Effect.runs_map_success.mp h
  exact ⟨row, runs_tryPromise.mp hrow⟩

theorem runs_deducting {info : CreateOrderInfo} {s t : Store} {a : Unit}
    (h : Effect.Runs Store.exec (ProductFacade.deducting info) s (.success a) t) :
    ∃ u row, SameSaga s u ∧ Store.exec (.createOutboxEvent
      (aggregateId info.order.id, .orderDeductStock) (Json.order info).stringify .init) u
      (some row) t := by
  obtain ⟨u, _, hdeduct, hemit⟩ := Effect.runs_tap_success.mp h
  obtain ⟨row, hrow⟩ := runs_createOutboxEvent hemit
  have hs := Confined.sameSaga ((deductStock_confined _).mono (fun _ => .inl) (fun _ h => h)) hdeduct
  exact ⟨u, row, hs, hrow⟩

/-- A committed payment has created the event row, and has touched the wallet and its
points only. -/
theorem runs_paying {info : CreateOrderInfo} {s t : Store} {a : WalletModel}
    (h : Effect.Runs Store.exec (UserFacade.paying info) s (.success a) t) :
    ∃ u row, SameSaga s u ∧ Store.exec (.createOutboxEvent
      (aggregateId info.order.id, .orderPayment) (Json.order info).stringify .init) u
      (some row) t := by
  obtain ⟨u, _, hpay, hemit⟩ := Effect.runs_tap_success.mp h
  obtain ⟨row, hrow⟩ := runs_createOutboxEvent hemit
  have hs := Confined.sameSaga ((completePayment_confined _ _).mono (fun _ => .inr) (fun _ h => h))
    hpay
  exact ⟨u, row, hs, hrow⟩

theorem runs_restoring {info : CreateOrderInfo} {s t : Store} {x : Exit Error Unit}
    (h : Effect.Runs Store.exec (restoring info) s x t) : SameSaga s t :=
  Confined.sameSaga ((restoring_confined info).mono (fun _ => .inl) (fun _ h => h)) h

theorem runs_createMany {params models : List OrderItemModel} {s t : Store}
    (h : Effect.Runs Store.exec (OrderItemRepository.createMany params) s (.success models) t) :
    Store.exec (.createManyOrderItems params) s (some ()) t ∧
    ∃ param rest, params = param :: rest ∧
      models.Perm (t.db.orderItem.filter (fun item => item.orderId = param.orderId)) := by
  obtain ⟨_, u, hinsert, hread⟩ := Effect.runs_flatMap_success.mp h
  have hu := runs_tryPromise.mp hinsert
  cases params with
  | nil => simp at hread
  | cons param rest =>
    obtain ⟨hperm, rfl⟩ := runs_tryPromise.mp hread
    rw [Store.after_read (by rfl) (by rfl)]
    exact ⟨hu, param, rest, rfl, hperm⟩

theorem runs_createOrder {userId : ℕ} {s t : Store} {order : OrderModel}
    (h : Effect.Runs Store.exec (OrderRepository.create userId) s (.success order) t) :
    order = ⟨order.id, userId, .pendingPayment⟩ ∧
    Store.exec (.createOrder userId) s (some (order.id, ⟨userId, .pendingPayment⟩)) t := by
  obtain ⟨r, u, hexec, hr⟩ := Effect.runs_perform.mp h
  cases r with
  | none => simp at hr
  | some answer =>
    obtain ⟨hmodel, rfl⟩ := Effect.runs_succeed.mp hr
    cases hmodel
    obtain ⟨id, row⟩ := answer
    obtain ⟨⟨hnone, rfl⟩, ht⟩ := hexec
    exact ⟨rfl, ⟨hnone, rfl⟩, ht⟩

theorem runs_getById {id : ℕ} {s t : Store} {order : OrderModel}
    (h : Effect.Runs Store.exec (OrderRepository.getById id) s (.success order) t) :
    order.id = id ∧ t = s := by
  obtain ⟨row, hrow, rfl⟩ :=
    Effect.runs_map_success.mp ((Effect.runs_catchAll_success (fun _ => ⟨_, rfl⟩)).mp h)
  obtain ⟨_, ht⟩ := runs_tryPromise.mp hrow
  exact ⟨rfl, by rw [ht, Store.after_read rfl rfl]⟩

theorem runs_ordering {userId : ℕ} {items : List CreateOrderItemCommand} {s t : Store}
    {info : CreateOrderInfo}
    (h : Effect.Runs Store.exec
      ((OrderService.createOrder userId items).flatMap OrderFacade.createOutboxEvent) s
      (.success info) t) :
    ∃ u row, s.db.order info.order.id = none ∧
      u.db.order = Function.update s.db.order info.order.id (some ⟨userId, .pendingPayment⟩) ∧
      u.db.outboxEvent = s.db.outboxEvent ∧ u.journal = s.journal ∧
      Store.exec (.createOutboxEvent (aggregateId info.order.id, .orderCreated)
        (Json.order info).stringify .init) u (some row) t := by
  obtain ⟨info', u, hcreate, hemit⟩ := Effect.runs_flatMap_success.mp h
  obtain ⟨_, hrow, rfl⟩ := Effect.runs_map_success.mp hemit
  obtain ⟨row, hrow⟩ := runs_createOutboxEvent hrow
  obtain ⟨order, v, horder, hitems⟩ := Effect.runs_flatMap_success.mp hcreate
  obtain ⟨models, hmany, rfl⟩ := Effect.runs_map_success.mp hitems
  obtain ⟨_, ⟨hnone, _⟩, rfl⟩ := runs_createOrder horder
  obtain ⟨⟨_, rfl⟩, _⟩ := runs_createMany hmany
  refine ⟨_, row, hnone, ?_, ?_, ?_, hrow⟩
  · rfl
  · rfl
  · simp [Store.after, Query.events]

theorem runs_succeeding {info : CreateOrderInfo} {s t : Store} {a : OrderModel}
    (h : Effect.Runs Store.exec ((OrderService.updateOrderStatus info.order.id .paid).tap
      (fun _ => OrderFacade.orderSuccessEvent info)) s (.success a) t) :
    ∃ u order row, Store.exec (.updateOrder info.order.id .paid) s (some order) u ∧
      Store.exec (.createOutboxEvent (aggregateId info.order.id, .orderSuccess)
        (Json.order info).stringify .init) u (some row) t := by
  obtain ⟨u, _, hset, hemit⟩ := Effect.runs_tap_success.mp h
  obtain ⟨row, hrow⟩ := runs_createOutboxEvent hemit
  obtain ⟨order, v, hget, hupdate⟩ := Effect.runs_flatMap_success.mp hset
  obtain ⟨new, hnew, _⟩ := Effect.runs_map_success.mp hupdate
  obtain ⟨hid, rfl⟩ := runs_getById hget
  rw [hid] at hnew
  exact ⟨u, new, row, runs_tryPromise.mp hnew, hrow⟩

end EcommerceService.TransactionEffects
