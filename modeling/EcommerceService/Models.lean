import Mathlib.Algebra.Order.Field.Rat
import EcommerceService.Errors
import EcommerceService.Lib.Effects

namespace EcommerceService.Models

open EcommerceService.Effects EcommerceService.Errors

inductive OrderStatus where
  | pendingPayment
  | paid
  | processing
  | shipped
  | delivered
  | cancelled
  | refundRequested
  | refunded
  | completed
  | failed
deriving DecidableEq, Repr

inductive TransactionType where
  | charge
  | withdraw
  | use
  | refund
  | cashback
  | promotionCredit
  | expiration
  | giftSent
  | giftReceived
deriving DecidableEq, Repr

inductive OutboxEventStatus where
  | init
  | success
  | fail
deriving DecidableEq, Repr

/-- The event types of the source; `other` is any other text the column may hold. -/
inductive OutboxEventType where
  | orderCreated
  | orderPayment
  | orderDeductStock
  | orderSuccess
  | orderFailed
  | other (text : String)
deriving DecidableEq, Repr

structure OrderModel where
  id : ℕ
  userId : ℕ
  status : OrderStatus
deriving DecidableEq, Repr

structure OrderItemModel where
  orderId : ℕ
  productId : ℕ
  quantity : ℤ
  price : ℚ
deriving DecidableEq, Repr

structure OrderItemInfo where
  productId : ℕ
  quantity : ℤ
  price : ℚ
deriving DecidableEq, Repr

structure CreateOrderInfo where
  order : OrderModel
  orderItems : List OrderItemInfo
deriving DecidableEq, Repr

namespace CreateOrderInfo

def ofModels (order : OrderModel) (orderItems : List OrderItemModel) : CreateOrderInfo :=
  ⟨order, orderItems.map (fun item => ⟨item.productId, item.quantity, item.price⟩)⟩

def totalAmount (info : CreateOrderInfo) : ℚ :=
  (info.orderItems.map (fun item => item.price * (item.quantity : ℚ))).foldl (· + ·) 0

end CreateOrderInfo

structure ProductStockModel where
  productId : ℕ
  stock : ℤ
deriving DecidableEq, Repr

namespace ProductStockModel

variable {C : Type*} {R : C → Type}

def inStock (model : ProductStockModel) (quantity : ℤ) : Bool := model.stock ≥ quantity

def deduct (model : ProductStockModel) (quantity : ℤ) : Effect C R Error ProductStockModel :=
  if model.inStock quantity then .succeed { model with stock := model.stock - quantity }
  else .fail (.appConflict ErrorCodes.productOutOfStock)

def add (model : ProductStockModel) (quantity : ℤ) : Effect C R Error ProductStockModel :=
  .succeed { model with stock := model.stock + quantity }

end ProductStockModel

structure WalletModel where
  id : ℕ
  userId : ℕ
  totalPoint : ℚ
  version : ℕ
deriving DecidableEq, Repr

namespace WalletModel

variable {C : Type*} {R : C → Type}

def payable (wallet : WalletModel) (amount : ℚ) : Effect C R Error Bool :=
  if wallet.totalPoint ≥ amount then .succeed true
  else .fail (.appConflict ErrorCodes.walletInsufficientPoint)

def charge (wallet : WalletModel) (amount : ℚ) : WalletModel :=
  { wallet with totalPoint := wallet.totalPoint + amount }

end WalletModel

structure PointModel where
  walletId : ℕ
  amount : ℚ
  transactionType : TransactionType
deriving DecidableEq, Repr

/-- A JavaScript value as far as a payload needs it: an order, the text that
`JSON.stringify` makes of a value, a text that is no JSON, or anything else. -/
inductive Json where
  | order (info : CreateOrderInfo)
  | text (written : Json)
  | rawText (characters : String)
  | other
deriving DecidableEq, Repr

namespace Json

def stringify (v : Json) : Json := .text v

def parse : Json → Option Json
  | text v => some v
  | _ => none

def isString : Json → Bool
  | text _ => true
  | rawText _ => true
  | _ => false

def startsWithQuote : Json → Bool
  | text v => v.isString
  | _ => false

def startsWithBrace : Json → Bool
  | text (order _) => true
  | _ => false

def asOrder : Json → Option CreateOrderInfo
  | order info => some info
  | _ => none

end Json

def aggregateId (orderId : ℕ) : String := "order-" ++ Nat.repr orderId

theorem repr_inj {n n' : ℕ} : Nat.repr n = Nat.repr n' ↔ n = n' := by
  refine ⟨fun h => ?_, fun h => h ▸ rfl⟩
  have hl := congrArg String.toList h
  rw [Nat.toList_repr, Nat.toList_repr] at hl
  calc n = Nat.ofDigitChars 10 (Nat.toDigits 10 n) 0 :=
        (Nat.ofDigitChars_toDigits (by omega) (by omega)).symm
    _ = Nat.ofDigitChars 10 (Nat.toDigits 10 n') 0 := by rw [hl]
    _ = n' := Nat.ofDigitChars_toDigits (by omega) (by omega)

@[simp] theorem aggregateId_inj {o o' : ℕ} : aggregateId o = aggregateId o' ↔ o = o' := by
  refine ⟨fun h => repr_inj.mp (String.toList_inj.mp ?_), fun h => h ▸ rfl⟩
  have hl := congrArg String.toList h
  simpa only [aggregateId, String.toList_append, List.append_cancel_left_eq] using hl

structure OutboxEventModel where
  aggregateId : String
  eventType : OutboxEventType
  payload : Json
  status : OutboxEventStatus
deriving DecidableEq, Repr

end EcommerceService.Models
