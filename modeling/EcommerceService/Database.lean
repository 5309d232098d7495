import Mathlib.Data.List.Perm.Basic
import EcommerceService.Models

namespace EcommerceService.Database

open EcommerceService.Models

structure OrderRow where
  userId : ℕ
  status : OrderStatus
deriving DecidableEq, Repr

structure WalletRow where
  userId : ℕ
  version : ℕ
  totalPoint : ℚ
deriving DecidableEq, Repr

structure OutboxEventRow where
  payload : Json
  status : OutboxEventStatus
deriving DecidableEq, Repr

abbrev OutboxKey : Type := String × OutboxEventType

structure Tables where
  order : ℕ → Option OrderRow
  orderItem : List OrderItemModel
  productStock : ℕ → Option ℤ
  wallet : ℕ → Option WalletRow
  point : List PointModel
  outboxEvent : OutboxKey → Option OutboxEventRow

def itemsOf (db : Tables) (orderId : ℕ) : List OrderItemModel :=
  db.orderItem.filter (fun item => item.orderId = orderId)

/-- The statements the repositories send, a method of the Prisma client each. -/
inductive Query where
  | createOrder (userId : ℕ)
  | createManyOrderItems (items : List OrderItemModel)
  | findManyOrderItems (orderId : ℕ)
  | updateOrder (id : ℕ) (status : OrderStatus)
  | findUniqueOrThrowOrder (id : ℕ)
  | selectStocksForUpdate (productIds : List ℕ)
  | updateManyStock (productId : ℕ) (stock : ℤ)
  | findUniqueOrThrowWallet (userId : ℕ)
  | updateWallet (id : ℕ) (version : Option ℕ) (totalPoint : ℚ)
  | createPoint (point : PointModel)
  | createOutboxEvent (key : OutboxKey) (payload : Json) (status : OutboxEventStatus)
  | updateOutboxEvent (key : OutboxKey) (status : OutboxEventStatus)
  | findUniqueOutboxEvent (key : OutboxKey)

namespace Query

@[reducible] def Answer : Query → Type
  | createOrder _ => ℕ × OrderRow
  | createManyOrderItems _ => Unit
  | findManyOrderItems _ => List OrderItemModel
  | updateOrder _ _ => OrderRow
  | findUniqueOrThrowOrder _ => OrderRow
  | selectStocksForUpdate _ => List ProductStockModel
  | updateManyStock _ _ => Unit
  | findUniqueOrThrowWallet _ => ℕ × WalletRow
  | updateWallet _ _ _ => ℕ × WalletRow
  | createPoint _ => PointModel
  | createOutboxEvent _ _ _ => OutboxEventRow
  | updateOutboxEvent _ _ => OutboxEventRow
  | findUniqueOutboxEvent _ => Option OutboxEventRow

/-- The answers a statement may get when it succeeds. Rows come in any order, and a new
order gets any id that is free. -/
def Allows : (q : Query) → Tables → q.Answer → Prop
  | createOrder userId, db, (id, row) => db.order id = none ∧ row = ⟨userId, .pendingPayment⟩
  | createManyOrderItems items, db, _ =>
      (items.map (fun item => (item.orderId, item.productId))).Nodup ∧
      ∀ item ∈ items, ∀ old ∈ db.orderItem, old.orderId = item.orderId → old.productId ≠ item.productId
  | findManyOrderItems orderId, db, items =>
      items.Perm (db.orderItem.filter (fun item => item.orderId = orderId))
  | updateOrder id status, db, row =>
      ∃ old, db.order id = some old ∧ row = { old with status := status }
  | findUniqueOrThrowOrder id, db, row => db.order id = some row
  | selectStocksForUpdate productIds, db, rows => productIds ≠ [] ∧
      (rows.map (·.productId)).Nodup ∧
      ∀ row, row ∈ rows ↔ row.productId ∈ productIds ∧
        db.productStock row.productId = some row.stock
  | updateManyStock _ _, _, _ => True
  | findUniqueOrThrowWallet userId, db, (id, row) => db.wallet id = some row ∧ row.userId = userId
  | updateWallet id version totalPoint, db, (id', row) => id' = id ∧
      ∃ old, db.wallet id = some old ∧ (∀ v, version = some v → old.version = v) ∧
        row = { old with version := old.version + 1, totalPoint := totalPoint }
  | createPoint point, _, row => row = point
  | createOutboxEvent key payload status, db, row =>
      db.outboxEvent key = none ∧ row = ⟨payload, status⟩
  | updateOutboxEvent key status, db, row =>
      ∃ old, db.outboxEvent key = some old ∧ row = { old with status := status }
  | findUniqueOutboxEvent key, db, row => row = db.outboxEvent key

def apply : (q : Query) → Tables → q.Answer → Tables
  | createOrder _, db, (id, row) => { db with order := Function.update db.order id (some row) }
  | createManyOrderItems items, db, _ => { db with orderItem := db.orderItem ++ items }
  | updateOrder id _, db, row => { db with order := Function.update db.order id (some row) }
  | updateManyStock productId stock, db, _ => { db with
      productStock := Function.update db.productStock productId
        ((db.productStock productId).map (fun _ => stock)) }
  | updateWallet id _ _, db, (_, row) =>
      { db with wallet := Function.update db.wallet id (some row) }
  | createPoint point, db, _ => { db with point := db.point ++ [point] }
  | createOutboxEvent key _ _, db, row =>
      { db with outboxEvent := Function.update db.outboxEvent key (some row) }
  | updateOutboxEvent key _, db, row =>
      { db with outboxEvent := Function.update db.outboxEvent key (some row) }
  | _, db, _ => db

end Query

def FindEventsByStatus (db : Tables) (status : OutboxEventStatus)
    (rows : List (OutboxKey × OutboxEventRow)) : Prop :=
  rows.length ≤ 500 ∧ (rows.map Prod.fst).Nodup ∧
  (∀ row ∈ rows, db.outboxEvent row.1 = some row.2 ∧ row.2.status = status) ∧
  (rows.length < 500 → ∀ key row, db.outboxEvent key = some row → row.status = status →
    (key, row) ∈ rows)

/-- The transactions the facades and the services open. -/
inductive TransactionKind where
  | order
  | deductStock (orderId : ℕ)
  | payment (orderId : ℕ)
  | orderSuccess (orderId : ℕ)
  | restoreStock (orderId : ℕ)
  | chargePoint (userId : ℕ)
deriving DecidableEq, Repr

/-- What has happened, in the order of its happening: the writes to `outbox_event` and
to the status of an order, the commits, and the messages Kafka has taken. -/
inductive Event where
  | created (key : OutboxKey) (status : OutboxEventStatus)
  | updated (key : OutboxKey) (old new : OutboxEventStatus)
  | orderSet (id : ℕ) (status : OrderStatus)
  | committed (kind : TransactionKind)
  | published (eventType : OutboxEventType) (orderId : ℕ)
deriving DecidableEq, Repr

/-- The tables together with the journal of what has been committed to them. -/
structure Store where
  db : Tables
  journal : List Event

def Query.events : Query → Tables → List Event
  | createOutboxEvent key _ status, _ => [.created key status]
  | updateOutboxEvent key status, db =>
      ((db.outboxEvent key).map (fun old => Event.updated key old.status status)).toList
  | updateOrder id status, _ => [.orderSet id status]
  | _, _ => []

def Store.after (s : Store) (q : Query) (v : q.Answer) : Store :=
  ⟨q.apply s.db v, s.journal ++ q.events s.db⟩

/-- A statement on the store. It may always fail, and then it has done nothing. -/
def Store.exec (q : Query) (s : Store) : Option q.Answer → Store → Prop
  | some v, t => q.Allows s.db v ∧ t = s.after q v
  | none, t => t = s

end EcommerceService.Database
