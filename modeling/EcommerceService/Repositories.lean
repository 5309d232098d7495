import EcommerceService.Database
import EcommerceService.Lib.Effects

namespace EcommerceService.Repositories

open EcommerceService.Effects EcommerceService.Errors EcommerceService.Models
open EcommerceService.Database

/-- An effect that sends statements. A rejected statement has no answer. -/
abbrev Statements (A : Type) : Type := Effect Query (fun q => Option q.Answer) Error A

def tryPromise (q : Query) : Statements q.Answer := .attempt .unknownException q

def OrderModel.from (id : ℕ) (row : OrderRow) : OrderModel := ⟨id, row.userId, row.status⟩

def WalletModel.from (id : ℕ) (row : WalletRow) : WalletModel :=
  ⟨id, row.userId, row.totalPoint, row.version⟩

def OutboxEventModel.from (key : OutboxKey) (row : OutboxEventRow) : OutboxEventModel :=
  ⟨key.1, key.2, row.payload.stringify, row.status⟩

namespace OrderRepository

/-- A rejection is thrown again by the handler of the promise, so it is a defect. -/
def create (userId : ℕ) : Statements OrderModel :=
  .perform (.createOrder userId) (fun
    | some (id, row) => .succeed (OrderModel.from id row)
    | none => .die)

def update (id : ℕ) (status : OrderStatus) : Statements OrderModel :=
  (tryPromise (.updateOrder id status)).map (OrderModel.from id)

def getById (id : ℕ) : Statements OrderModel :=
  ((tryPromise (.findUniqueOrThrowOrder id)).map (OrderModel.from id)).catchAll
    (fun _ => .fail (.appNotFound ErrorCodes.orderNotFound))

end OrderRepository

namespace OrderItemRepository

/-- Reading `params[0].orderId` of no parameters throws inside the promise. -/
def createMany (params : List OrderItemModel) : Statements (List OrderItemModel) :=
  (tryPromise (.createManyOrderItems params)).flatMap (fun _ =>
    match params with
    | [] => .fail .unknownException
    | param :: _ => tryPromise (.findManyOrderItems param.orderId))

end OrderItemRepository

namespace ProductStockRepository

def updateBulk (updates : List ProductStockModel) : Statements Unit :=
  (Effect.all (updates.map (fun update =>
    tryPromise (.updateManyStock update.productId update.stock)))).asVoid.catchAll
    (fun _ => .fail (.appConflict ErrorCodes.orderFailed))

def findByIdsWithXLock (productIds : List ℕ) : Statements (List ProductStockModel) :=
  (tryPromise (.selectStocksForUpdate productIds)).catchAll
    (fun _ => .fail (.appConflict ErrorCodes.orderFailed))

end ProductStockRepository

namespace WalletRepository

def update (id : ℕ) (totalPoint : ℚ) (version : Option ℕ) : Statements WalletModel :=
  ((tryPromise (.updateWallet id version totalPoint)).map
    (fun answer => WalletModel.from answer.1 answer.2)).catchAll
    (fun _ => .fail (.appConflict ErrorCodes.pointChargeFailed))

def validateVersion (version : ℕ) (answer : ℕ × WalletRow) : Statements (ℕ × WalletRow) :=
  if answer.2.version = version + 1 then .succeed answer
  else .fail (.appConflict ErrorCodes.pointChargeFailed)

def updatePoint (params : WalletModel) : Statements WalletModel :=
  (((tryPromise (.updateWallet params.id (some params.version) params.totalPoint)).flatMap
    (validateVersion params.version)).map (fun answer => WalletModel.from answer.1 answer.2)).catchAll
    (fun _ => .fail (.appConflict ErrorCodes.pointChargeFailed))

def getByUserId (userId : ℕ) : Statements WalletModel :=
  ((tryPromise (.findUniqueOrThrowWallet userId)).map
    (fun answer => WalletModel.from answer.1 answer.2)).catchAll
    (fun _ => .fail (.appNotFound ErrorCodes.walletNotFound))

end WalletRepository

namespace PointRepository

def create (point : PointModel) : Statements PointModel := tryPromise (.createPoint point)

end PointRepository

namespace OutboxEventRepository

def create (key : OutboxKey) (payload : Json) (status : OutboxEventStatus) :
    Statements OutboxEventModel :=
  (tryPromise (.createOutboxEvent key payload status)).map (OutboxEventModel.from key)

def updateByAggregateIdAndEventType (aggregateId : String) (eventType : OutboxEventType)
    (status : OutboxEventStatus) : Statements OutboxEventModel :=
  (tryPromise (.updateOutboxEvent (aggregateId, eventType) status)).map
    (OutboxEventModel.from (aggregateId, eventType))

def findOneByAggregateIdAndEventType (aggregateId : String) (eventType : OutboxEventType) :
    Statements (Option OutboxEventModel) :=
  (tryPromise (.findUniqueOutboxEvent (aggregateId, eventType))).map
    (fun row => row.map (OutboxEventModel.from (aggregateId, eventType)))

end OutboxEventRepository

end EcommerceService.Repositories
