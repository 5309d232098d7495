import EcommerceService.OutboxPolling
import EcommerceService.Lib.JsonText

namespace EcommerceService.Payloads

open EcommerceService.Decimals EcommerceService.JsonText EcommerceService.Models

section Code

structure OrderInfo where
  id : Decimal
  userId : Decimal
  status : String
deriving DecidableEq

structure OrderItemInfo where
  productId : Decimal
  quantity : Decimal
  price : Decimal
deriving DecidableEq

structure CreateOrderInfo where
  order : OrderInfo
  orderItems : List OrderItemInfo
deriving DecidableEq

def OrderInfo.toJson (order : OrderInfo) : Value :=
  .object [("id", .number order.id), ("userId", .number order.userId), ("status", .string order.status)]

/-- `id` and `orderId` of an `OrderItemInfo` are never set, and so not written. -/
def OrderItemInfo.toJson (item : OrderItemInfo) : Value :=
  .object [("productId", .number item.productId), ("quantity", .number item.quantity),
    ("price", .number item.price)]

def CreateOrderInfo.toJson (info : CreateOrderInfo) : Value :=
  .object [("order", info.order.toJson), ("orderItems", .array (info.orderItems.map (·.toJson)))]

def asNumber : Option Value → Option Decimal
  | some (.number d) => some d
  | _ => none

def asText : Option Value → Option String
  | some (.string s) => some s
  | _ => none

def OrderInfo.ofJson (v : Value) : Option OrderInfo :=
  match asNumber (v.member "id"), asNumber (v.member "userId"), asText (v.member "status") with
  | some id, some userId, some status => some ⟨id, userId, status⟩
  | _, _, _ => none

def OrderItemInfo.ofJson (v : Value) : Option OrderItemInfo :=
  match asNumber (v.member "productId"), asNumber (v.member "quantity"), asNumber (v.member "price") with
  | some productId, some quantity, some price => some ⟨productId, quantity, price⟩
  | _, _, _ => none

def CreateOrderInfo.ofJson (v : Value) : Option CreateOrderInfo :=
  match (v.member "order").bind OrderInfo.ofJson, v.member "orderItems" with
  | some order, some (.array items) => (items.mapM OrderItemInfo.ofJson).map (fun items => ⟨order, items⟩)
  | _, _ => none

namespace OutboxEventTypes

def orderCreated : String := "order.created"

def orderPayment : String := "order.payment"

def orderDeductStock : String := "order.deduct_stock"

def orderSuccess : String := "order.success"

def orderFailed : String := "order.failed"

end OutboxEventTypes

structure OutboxEvent where
  aggregateId : String
  eventType : String
  payload : Value
  status : OutboxEventStatus

structure OutboxEventModel where
  aggregateId : String
  eventType : String
  payload : String
  status : OutboxEventStatus
deriving DecidableEq, Repr

def OutboxEventModel.from (props : OutboxEvent) : OutboxEventModel :=
  ⟨props.aggregateId, props.eventType, stringify props.payload, props.status⟩

namespace OutboxPollingService

def parsePayload (payload : String) : Option Value :=
  if startsWith '"' payload then (parse payload).bind (fun v => parse v.toText) else parse payload

def rawPayload (payload : String) : Option Value :=
  (parse payload).bind (fun
    | .string rawPayload => parse rawPayload
    | rawPayload => some rawPayload)

end OutboxPollingService

/-- How a consumer reads the payload of a message, a text or what the transport made of it. -/
def orderInfoOf : Value → Option Value
  | .string payload =>
      if startsWith '\x7b' payload then parse payload
      else (parse payload).bind (fun v => parse v.toText)
  | payload => some payload

def ProductEventConsumer.orderInfo (payload : Value) : Option Value := orderInfoOf payload

def UserEventConsumer.orderInfo (payload : Value) : Option Value := orderInfoOf payload

def OrderEventConsumer.orderInfo (payload : Value) : Option Value := orderInfoOf payload

/-- The parser of the Kafka transport parses what looks like an object or an array, if it can. -/
def received (value : String) : Value :=
  if startsWith '\x7b' value ∨ startsWith '[' value then (parse value).getD (.string value)
  else .string value

def eventPayload (orderInfo : Value) : Value := .string (stringify orderInfo)

end Code

section Decoders

/-- The two shapes in which the column may hold a value: its text, or the value itself. -/
inductive Holds (v : Value) : Value → Prop
  | text : Holds v (eventPayload v)
  | object : Holds v v

inductive Delivered (p : String) : Value → Prop
  | raw : Delivered p (.string p)
  | parsed : Delivered p (received p)

/-- All five decoders make the same value of a payload. -/
structure Decodes (p : String) (v : Value) : Prop where
  processOutboxEvent : OutboxPollingService.parsePayload p = some v
  executeCompensation : OutboxPollingService.rawPayload p = some v
  handleOrderCreated : ∀ payload, Delivered p payload →
    ProductEventConsumer.orderInfo payload = some v
  handleDeductStock : ∀ payload, Delivered p payload → UserEventConsumer.orderInfo payload = some v
  handleOrderPayment : ∀ payload, Delivered p payload → OrderEventConsumer.orderInfo payload = some v

/-- The payloads of the events of an order, from the first one on. A consumer decodes the payload
it is given, and the facade encodes the result for the next event. -/
inductive Chain (info : CreateOrderInfo) : String → Value → Prop
  | orderCreated {payload : Value} : Holds info.toJson payload →
      Chain info OutboxEventTypes.orderCreated payload
  | orderDeductStock {payload message orderInfo next : Value} :
      Chain info OutboxEventTypes.orderCreated payload → Delivered (stringify payload) message →
      ProductEventConsumer.orderInfo message = some orderInfo → Holds orderInfo next →
      Chain info OutboxEventTypes.orderDeductStock next
  | orderPayment {payload message orderInfo next : Value} :
      Chain info OutboxEventTypes.orderDeductStock payload → Delivered (stringify payload) message →
      UserEventConsumer.orderInfo message = some orderInfo → Holds orderInfo next →
      Chain info OutboxEventTypes.orderPayment next

variable {info : CreateOrderInfo} {v payload message : Value} {members : List (String × Value)}

theorem received_eventPayload (v : Value) :
    received (stringify (eventPayload v)) = .string (stringify (eventPayload v)) := by
  simp [received, eventPayload, head_write_string]

theorem received_object : received (stringify (.object members)) = .object members := by
  simp [received, head_write_object]

theorem decodes_text : Decodes (stringify (eventPayload (.object members))) (.object members) := by
  have hconsumer : ∀ message, Delivered (stringify (eventPayload (.object members))) message →
      orderInfoOf message = some (.object members) := by
    intro message h
    have hmessage : message = .string (stringify (eventPayload (.object members))) := by
      cases h with
      | raw => rfl
      | parsed => exact received_eventPayload _
    have hbrace : startsWith '\x7b' (stringify (eventPayload (.object members))) = false := by
      simp [eventPayload, head_write_string]
    simp only [hmessage, orderInfoOf, hbrace, Bool.false_eq_true, if_false, parse_stringify,
      Option.bind_some]
    simp only [eventPayload, Value.toText_string, parse_stringify]
  refine ⟨?_, ?_, hconsumer, hconsumer, hconsumer⟩
  · simp [OutboxPollingService.parsePayload, eventPayload, head_write_string]
  · simp [OutboxPollingService.rawPayload, eventPayload]

theorem decodes_object : Decodes (stringify (.object members)) (.object members) := by
  have hconsumer : ∀ message, Delivered (stringify (.object members)) message →
      orderInfoOf message = some (.object members) := by
    intro message h
    cases h with
    | raw => simp [orderInfoOf, head_write_object]
    | parsed => rw [received_object, orderInfoOf]; rintro payload ⟨⟩
  refine ⟨?_, ?_, hconsumer, hconsumer, hconsumer⟩
  · simp [OutboxPollingService.parsePayload, head_write_object]
  · simp [OutboxPollingService.rawPayload]

theorem Holds.decodes (h : Holds (.object members) payload) :
    Decodes (stringify payload) (.object members) := by
  cases h with
  | text => exact decodes_text
  | object => exact decodes_object

theorem ofJson_items (items : List OrderItemInfo) :
    (items.map (·.toJson)).mapM OrderItemInfo.ofJson = some items := by
  induction items with
  | nil => rfl
  | cons item items ih =>
    rw [List.map_cons, List.mapM_cons, ih]
    rfl

theorem ofJson_toJson (info : CreateOrderInfo) : CreateOrderInfo.ofJson info.toJson = some info := by
  have horder : (info.toJson.member "order").bind OrderInfo.ofJson = some info.order := rfl
  have hitems : info.toJson.member "orderItems" = some (.array (info.orderItems.map (·.toJson))) := rfl
  simp only [CreateOrderInfo.ofJson, horder, hitems, ofJson_items, Option.map_some]

theorem Chain.holds {eventType : String} (h : Chain info eventType payload) :
    Holds info.toJson payload := by
  induction h with
  | orderCreated hholds => exact hholds
  | orderDeductStock _ hdelivered hread hholds ih =>
    cases (ih.decodes.handleOrderCreated _ hdelivered).symm.trans hread
    exact hholds
  | orderPayment _ hdelivered hread hholds ih =>
    cases (ih.decodes.handleDeductStock _ hdelivered).symm.trans hread
    exact hholds

/-- On every payload of the chain the decoders agree, and what they return reads as the order. -/
theorem payload_decoded {row : OutboxEvent} (h : Chain info row.eventType row.payload) :
    ∃ v, Decodes (OutboxEventModel.from row).payload v ∧ CreateOrderInfo.ofJson v = some info :=
  ⟨info.toJson, h.holds.decodes, ofJson_toJson info⟩

def sample : CreateOrderInfo :=
  ⟨⟨.scaled 7 0, .scaled 3 0, "PENDING_PAYMENT"⟩,
    [⟨.scaled 1 0, .scaled 2 0, .scaled 1250 (-2)⟩, ⟨.scaled 2 0, .scaled 1 0, .scaled 99 (-1)⟩]⟩

def sampleRow : OutboxEvent :=
  ⟨"order-7", OutboxEventTypes.orderDeductStock, eventPayload sample.toJson, .init⟩

theorem payload_decoded_sample : ∃ v, Decodes (OutboxEventModel.from sampleRow).payload v ∧
    CreateOrderInfo.ofJson v = some sample := by
  have hfirst : Holds sample.toJson sample.toJson := .object
  have hsecond : Chain sample sampleRow.eventType sampleRow.payload :=
    .orderDeductStock (.orderCreated hfirst) .parsed
      (hfirst.decodes.handleOrderCreated _ .parsed) .text
  exact payload_decoded hsecond

end Decoders

section Saga

def statusText : OrderStatus → String
  | .pendingPayment => "PENDING_PAYMENT"
  | .paid => "PAID"
  | .processing => "PROCESSING"
  | .shipped => "SHIPPED"
  | .delivered => "DELIVERED"
  | .cancelled => "CANCELLED"
  | .refundRequested => "REFUND_REQUESTED"
  | .refunded => "REFUNDED"
  | .completed => "COMPLETED"
  | .failed => "FAILED"

structure CreateOrderInfo.Shows (info : CreateOrderInfo) (model : Models.CreateOrderInfo) : Prop where
  id : info.order.id.toRat = model.order.id
  userId : info.order.userId.toRat = model.order.userId
  status : info.order.status = statusText model.order.status
  orderItems : List.Forall₂ (fun item item' => item.productId.toRat = (item'.productId : ℚ) ∧
    item.quantity.toRat = (item'.quantity : ℚ) ∧ item.price.toRat = item'.price)
    info.orderItems model.orderItems

inductive Shows : Value → Json → Prop
  | order {info : CreateOrderInfo} {model : Models.CreateOrderInfo} : info.Shows model →
      Shows info.toJson (.order model)
  | text {v : Value} {j : Json} : Shows v j → Shows (eventPayload v) j.stringify

variable {info info' : CreateOrderInfo} {payload : Value} {j : Json}

theorem toJson_inj (h : info.toJson = info'.toJson) : info = info' := by
  have hread := ofJson_toJson info
  rw [h, ofJson_toJson] at hread
  exact (Option.some.inj hread).symm

theorem eventPayload_inj {v v' : Value} (h : eventPayload v = eventPayload v') : v = v' := by
  have hparse := parse_stringify v
  rw [Value.string.inj h, parse_stringify] at hparse
  exact (Option.some.inj hparse).symm

theorem Shows.of_toJson (h : Shows info.toJson j) : ∃ model, info.Shows model ∧ j = .order model := by
  generalize hv : info.toJson = v at h
  cases h with
  | order hm => exact ⟨_, toJson_inj hv ▸ hm, rfl⟩
  | text _ => cases hv

theorem Shows.of_eventPayload {v : Value} (h : Shows (eventPayload v) j) :
    ∃ j', Shows v j' ∧ j = j'.stringify := by
  generalize hv : eventPayload v = payload at h
  cases h with
  | order _ => cases hv
  | text hj => exact ⟨_, eventPayload_inj hv ▸ hj, rfl⟩

theorem Shows.decoded (hj : Shows payload j) (h : Holds info.toJson payload) :
    ∃ model, info.Shows model ∧
      OutboxPolling.parsePayload j.stringify = some (.order model) ∧
      OutboxPolling.rawPayload j.stringify = some (.order model) ∧
      Facades.orderInfoOf j.stringify = some model ∧
      Facades.orderInfoOf (Facades.received j.stringify) = some model := by
  cases h with
  | text =>
    obtain ⟨j', hj', rfl⟩ := hj.of_eventPayload
    obtain ⟨model, hm, rfl⟩ := hj'.of_toJson
    exact ⟨model, hm, rfl, rfl, rfl, rfl⟩
  | object =>
    obtain ⟨model, hm, rfl⟩ := hj.of_toJson
    exact ⟨model, hm, rfl, rfl, rfl, rfl⟩

end Saga

end EcommerceService.Payloads
