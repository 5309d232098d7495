namespace EcommerceService.Errors

structure ErrorCode where
  tag : String
  code : Nat
  message : String
deriving DecidableEq, Repr

namespace ErrorCodes

def userNotFound : ErrorCode := ⟨"USER_NOT_FOUND", 1001, "사용자를 찾을 수 없습니다."⟩

def userAlreadyExists : ErrorCode := ⟨"USER_ALREADY_EXISTS", 1002, "이미 존재하는 사용자입니다."⟩

def userAuthFailed : ErrorCode := ⟨"USER_AUTH_FAILED", 1003, "사용자 인증에 실패했습니다."⟩

def userTokenExpired : ErrorCode := ⟨"USER_TOKEN_EXPIRED", 1004, "토큰이 만료되었습니다."⟩

def walletNotFound : ErrorCode := ⟨"WALLET_NOT_FOUND", 2001, "지갑을 찾을 수 없습니다."⟩

def walletInsufficientPoint : ErrorCode := ⟨"WALLET_INSUFFICIENT_POINT", 2002, "잔액이 부족합니다."⟩

def pointChargeFailed : ErrorCode := ⟨"POINT_CHARGE_FAILED", 3001, "포인트 충전에 실패했습니다."⟩

def productNotFound : ErrorCode := ⟨"PRODUCT_NOT_FOUND", 4001, "상품을 찾을 수 없습니다."⟩

def productOutOfStock : ErrorCode := ⟨"PRODUCT_OUT_OF_STOCK", 4002, "재고가 부족합니다."⟩

def temporaryOutOfStock : ErrorCode := ⟨"TEMPORARY_OUT_OF_STOCK", 4004, "일시 품절"⟩

def orderNotFound : ErrorCode := ⟨"ORDER_NOT_FOUND", 5001, "주문을 찾을 수 없습니다."⟩

def paymentFailed : ErrorCode := ⟨"PAYMENT_FAILED", 5001, "결제에 실패했습니다."⟩

def orderFailed : ErrorCode := ⟨"ORDER_FAILED", 5002, "주문에 실패했습니다."⟩

def cartNotFound : ErrorCode := ⟨"CART_NOT_FOUND", 6001, "장바구니를 찾을 수 없습니다."⟩

def cartItemNotFound : ErrorCode := ⟨"CART_ITEM_NOT_FOUND", 6002, "장바구니 상품을 찾을 수 없습니다."⟩

end ErrorCodes

inductive ExceptionClass where
  | auth
  | conflict
  | notFound
  | badRequest
deriving DecidableEq, Repr

/-- What an effect fails with: an application exception, the exception that
`Effect.tryPromise` makes of a rejected promise, or a plain `Error`. -/
inductive Error where
  | application (kind : ExceptionClass) (errorCode : Option ErrorCode) (message : Option String)
  | unknownException
  | error (message : String)
deriving DecidableEq, Repr

namespace Error

def appAuth (code : ErrorCode) : Error := .application .auth (some code) none

def appConflict (code : ErrorCode) : Error := .application .conflict (some code) none

def appNotFound (code : ErrorCode) : Error := .application .notFound (some code) none

def appBadRequest (code : ErrorCode) : Error := .application .badRequest (some code) none

def message : Error → String
  | application _ errorCode message => message.getD ((errorCode.map (·.message)).getD "")
  | unknownException => "An unknown error occurred"
  | error message => message

def isApplication : Error → Bool
  | application _ _ _ => true
  | _ => false

def isConflict : Error → Bool
  | application .conflict _ _ => true
  | _ => false

def isBadRequest : Error → Bool
  | application .badRequest _ _ => true
  | _ => false

theorem isApplication_of_isConflict {e : Error} (h : e.isConflict = true) :
    e.isApplication = true := by
  cases e with
  | application kind errorCode message => rfl
  | unknownException => cases h
  | error message => cases h

end Error

end EcommerceService.Errors
