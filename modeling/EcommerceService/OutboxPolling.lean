import EcommerceService.Facades

namespace EcommerceService.OutboxPolling

open EcommerceService.Effects EcommerceService.Errors EcommerceService.Models
open EcommerceService.Database EcommerceService.Repositories EcommerceService.Backend
open EcommerceService.Services

/-- The three producers: send the payload of the event, and again after a failure, at
most three times. -/
def produce (eventType : OutboxEventType) (key : ℕ) (outbox : OutboxEventModel) : Service Unit :=
  Effect.retry 3 (.perform (.emit eventType key outbox.payload)
    (fun sent => if sent then .succeed () else .fail .unknownException))

def updateStatus (event : OutboxEventModel) (status : OutboxEventStatus) : Service Unit :=
  (autocommit (OutboxEventRepository.updateByAggregateIdAndEventType event.aggregateId
    event.eventType status)).asVoid

def handleFailedEvent (event : OutboxEventModel) : Service Unit := updateStatus event .fail

def createEventHandler (processEvent : OutboxEventModel → Service Unit)
    (event : OutboxEventModel) : Service Unit :=
  ((processEvent event).retry 3).catchAll (fun _ => handleFailedEvent event)

def parsePayload (payload : Json) : Option Json :=
  if payload.startsWithQuote then payload.parse.bind Json.parse else payload.parse

def produceEvent (event : OutboxEventModel) (payload : Json) : Service Unit :=
  match event.eventType, payload.asOrder with
  | .orderCreated, some info => produce .orderCreated info.order.id event
  | .orderDeductStock, some info => produce .orderDeductStock info.order.id event
  | .orderPayment, some info => produce .orderPayment info.order.id event
  | .orderSuccess, _ => .succeed ()
  | _, _ => .die

def processOutboxEvent (event : OutboxEventModel) : Service Unit :=
  match parsePayload event.payload with
  | none => .die
  | some payload => ((produceEvent event payload).tap (fun _ => updateStatus event .success)).catchAll
      (fun _ => .succeed ())

def rawPayload (payload : Json) : Option Json :=
  payload.parse.bind (fun raw => if raw.isString then raw.parse else some raw)

def findStocks (payload : CreateOrderInfo) : Statements (List ProductStockModel) :=
  ProductStockRepository.findByIdsWithXLock (payload.orderItems.map (·.productId))

def addStock (payload : CreateOrderInfo) (stock : ProductStockModel) :
    Statements ProductStockModel :=
  match payload.orderItems.find? (fun item => item.productId = stock.productId) with
  | some orderItem => stock.add orderItem.quantity
  | none => .fail (.error ("OrderItem not found for productId: " ++ Nat.repr stock.productId))

def addStocks (payload : CreateOrderInfo) (productStocks : List ProductStockModel) :
    Statements (List ProductStockModel) := Effect.all (productStocks.map (addStock payload))

def restoring (payload : CreateOrderInfo) : Statements Unit :=
  ((findStocks payload).flatMap (addStocks payload)).flatMap ProductStockRepository.updateBulk

def failOrder (payload : CreateOrderInfo) : Service Unit :=
  (autocommit (OrderRepository.update payload.order.id .failed)).asVoid

/-- What the promise in `executeCompensation` runs. Reading the fields of a payload that
is no order throws: in the transaction that is one more conflict, else it rejects the promise. -/
def compensate (eventType : OutboxEventType) : Option CreateOrderInfo → Service Unit
  | some payload =>
      if eventType = .orderPayment then
        (PrismaService.transaction (.restoreStock payload.order.id) (restoring payload)).catchAll
          (fun ret => if ret.isConflict then .succeed () else failOrder payload)
      else failOrder payload
  | none => if eventType = .orderPayment then .succeed () else .fail .unknownException

def executeCompensation (event : OutboxEventModel) : Service Unit :=
  match rawPayload event.payload with
  | none => .die
  | some payload =>
      ((compensate event.eventType payload.asOrder).promise .unknownException).flatMap
        (fun _ => updateStatus event .success)

/-- The two readings of the table that `pollEvents` makes. -/
inductive Poll where
  | handleInitEvents
  | handleFailedEvents
deriving DecidableEq, Repr

def Poll.status : Poll → OutboxEventStatus
  | handleInitEvents => .init
  | handleFailedEvents => .fail

def Poll.handle : Poll → OutboxEventModel → Service Unit
  | handleInitEvents => createEventHandler processOutboxEvent
  | handleFailedEvents => createEventHandler executeCompensation

end EcommerceService.OutboxPolling
