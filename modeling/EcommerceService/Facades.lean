import EcommerceService.Services

namespace EcommerceService.Facades

open EcommerceService.Effects EcommerceService.Errors EcommerceService.Models
open EcommerceService.Database EcommerceService.Repositories EcommerceService.Backend
open EcommerceService.Services

namespace OrderFacade

def createOutboxEvent (order : CreateOrderInfo) : Statements CreateOrderInfo :=
  (OutboxEventService.createOutboxEvent (aggregateId order.order.id) .orderCreated
    (Json.order order).stringify .init).map (fun _ => order)

/-- `OrderFacade.order` from its transaction on. The items are those that the stock
reservation has let through, with the prices of their products. -/
def order (userId : ℕ) (orderItems : List CreateOrderItemCommand) :
    Service (CreateOrderInfo ⊕ String) :=
  ((PrismaService.transaction .order
    ((OrderService.createOrder userId orderItems).flatMap createOutboxEvent)).map .inl).catchIf
    Error.isBadRequest (fun _ => .succeed (.inr "일시 품절"))

def orderSuccessEvent (orderInfo : CreateOrderInfo) : Statements OutboxEventModel :=
  OutboxEventService.createOutboxEvent (aggregateId orderInfo.order.id) .orderSuccess
    (Json.order orderInfo).stringify .init

def processOrderSuccess (orderInfo : CreateOrderInfo) : Service OrderModel :=
  PrismaService.transaction (.orderSuccess orderInfo.order.id)
    ((OrderService.updateOrderStatus orderInfo.order.id .paid).tap
      (fun _ => orderSuccessEvent orderInfo))

end OrderFacade

namespace ProductFacade

def deductStockCommand (orderInfo : CreateOrderInfo) : DeductStockCommand :=
  .ofEntries (orderInfo.orderItems.map (fun item => (item.productId, item.quantity)))

def emitStockDeductedEvent (orderInfo : CreateOrderInfo) (status : OutboxEventStatus) :
    Statements OutboxEventModel :=
  OutboxEventService.createOutboxEvent (aggregateId orderInfo.order.id) .orderDeductStock
    (Json.order orderInfo).stringify status

def setOrderCreatedEventToInit (orderInfo : CreateOrderInfo) : Service Unit :=
  (autocommit (OutboxEventService.findByAggregate
    (aggregateId orderInfo.order.id) .orderCreated)).flatMap (fun
    | some outboxEvent => (autocommit (OutboxEventService.updateOutboxEvent
        outboxEvent.aggregateId .orderCreated .init)).asVoid
    | none => .succeed ())

def deducting (orderInfo : CreateOrderInfo) : Statements Unit :=
  (ProductService.deductStock (deductStockCommand orderInfo)).tap
    (fun _ => emitStockDeductedEvent orderInfo .init)

def isOutOfStock (error : Error) : Bool :=
  error.isApplication && error.message == ErrorCodes.productOutOfStock.message

def processOrderDeductStock (orderInfo : CreateOrderInfo) : Service Unit :=
  (PrismaService.transaction (.deductStock orderInfo.order.id) (deducting orderInfo)).catchAll
    (fun error =>
      if isOutOfStock error then (autocommit (emitStockDeductedEvent orderInfo .fail)).asVoid
      else setOrderCreatedEventToInit orderInfo)

end ProductFacade

namespace UserFacade

def payment (orderInfo : CreateOrderInfo) : Statements WalletModel :=
  WalletService.completePayment orderInfo.order.userId orderInfo.totalAmount

def emitPaymentEvent (orderInfo : CreateOrderInfo) (status : OutboxEventStatus) :
    Statements OutboxEventModel :=
  OutboxEventService.createOutboxEvent (aggregateId orderInfo.order.id) .orderPayment
    (Json.order orderInfo).stringify status

def paying (orderInfo : CreateOrderInfo) : Statements WalletModel :=
  (payment orderInfo).tap (fun _ => emitPaymentEvent orderInfo .init)

def processOrderPayment (orderInfo : CreateOrderInfo) : Service Unit :=
  (PrismaService.transaction (.payment orderInfo.order.id) (paying orderInfo)).asVoid.catchAll
    (fun _ => (autocommit (emitPaymentEvent orderInfo .fail)).asVoid)

end UserFacade

/-- The parser of the Kafka transport turns the JSON text of an object into the object. -/
def received (value : Json) : Json :=
  if value.startsWithBrace then value.parse.getD value else value

def orderInfoOf (payload : Json) : Option CreateOrderInfo :=
  (if payload.isString then
    if payload.startsWithBrace then payload.parse else payload.parse.bind Json.parse
  else some payload).bind Json.asOrder

def withOrderInfo (payload : Json) (facade : CreateOrderInfo → Service Unit) : Service Unit :=
  match orderInfoOf payload with
  | some orderInfo => facade orderInfo
  | none => .die

def handleOrderCreated (payload : Json) : Service Unit :=
  withOrderInfo payload ProductFacade.processOrderDeductStock

def handleDeductStock (payload : Json) : Service Unit :=
  withOrderInfo payload UserFacade.processOrderPayment

def handleOrderPayment (payload : Json) : Service Unit :=
  withOrderInfo payload (fun orderInfo => (OrderFacade.processOrderSuccess orderInfo).asVoid)

end EcommerceService.Facades
