import EcommerceService.SignUp
import EcommerceService.Storefront

namespace EcommerceService.Carts

open EcommerceService.Effects EcommerceService.Errors EcommerceService.Models
open EcommerceService.SignUp (UserRow UserModel)
open EcommerceService.Cache (ProductModel)
open EcommerceService.Storefront (ProductRow)

section Code

structure CartRow where
  id : ℕ
  userId : ℕ
  createdAt : ℕ
  updatedAt : ℕ
deriving DecidableEq, Repr

structure CartItemRow where
  id : ℕ
  cartId : ℕ
  productId : ℕ
  quantity : ℤ
  createdAt : ℕ
  updatedAt : ℕ
deriving DecidableEq, Repr

structure Tables where
  user : List UserRow
  cart : List CartRow
  cartItem : List CartItemRow
  product : ℕ → Option ProductRow
  productStock : ℕ → Option ℤ

/-- The statements, a method of the Prisma client each. -/
inductive Call where
  | findUniqueOrThrowUser (id : ℕ)
  | createCart (userId : ℕ)
  | findUniqueOrThrowCart (id : ℕ)
  | findUniqueOrThrowCartOf (userId : ℕ)
  | updateCart (id : ℕ)
  | createCartItem (cartId productId : ℕ) (quantity : ℤ)
  | deleteCartItem (cartId productId : ℕ)
  | findManyCartItems (cartId : ℕ)
  | findUniqueOrThrowProduct (id : ℕ)
  | findUniqueOrThrowProductStock (productId : ℕ)
deriving DecidableEq, Repr

namespace Call

@[reducible] def Answer : Call → Type
  | findUniqueOrThrowUser _ => UserRow
  | createCart _ => CartRow
  | findUniqueOrThrowCart _ => CartRow
  | findUniqueOrThrowCartOf _ => CartRow
  | updateCart _ => CartRow
  | createCartItem _ _ _ => CartItemRow
  | deleteCartItem _ _ => Unit
  | findManyCartItems _ => List CartItemRow
  | findUniqueOrThrowProduct _ => ProductRow
  | findUniqueOrThrowProductStock _ => ℤ

/-- The answers of a statement that succeeds. A new row gets any id that is free, and the
dates are what the clocks say. -/
def Allows : (c : Call) → Tables → c.Answer → Prop
  | findUniqueOrThrowUser id, s, row => row ∈ s.user ∧ row.id = id
  | createCart userId, s, row => (∀ old ∈ s.cart, old.userId ≠ userId) ∧
      (∀ old ∈ s.cart, old.id ≠ row.id) ∧ row.userId = userId
  | findUniqueOrThrowCart id, s, row => row ∈ s.cart ∧ row.id = id
  | findUniqueOrThrowCartOf userId, s, row => row ∈ s.cart ∧ row.userId = userId
  | updateCart id, s, row => row.id = id ∧
      ∃ old ∈ s.cart, old.id = id ∧ row = { old with updatedAt := row.updatedAt }
  | createCartItem cartId productId quantity, s, row =>
      (∀ old ∈ s.cartItem, old.cartId = cartId → old.productId ≠ productId) ∧
      (∀ old ∈ s.cartItem, old.id ≠ row.id) ∧
      row.cartId = cartId ∧ row.productId = productId ∧ row.quantity = quantity
  | deleteCartItem cartId productId, s, _ =>
      ∃ old ∈ s.cartItem, old.cartId = cartId ∧ old.productId = productId
  | findManyCartItems cartId, s, rows => rows.Perm (s.cartItem.filter (fun row => row.cartId = cartId))
  | findUniqueOrThrowProduct id, s, row => s.product id = some row
  | findUniqueOrThrowProductStock productId, s, stock => s.productStock productId = some stock

def after : (c : Call) → Tables → c.Answer → Tables
  | createCart _, s, row => { s with cart := s.cart ++ [row] }
  | updateCart id, s, row =>
      { s with cart := s.cart.map (fun old => if old.id = id then row else old) }
  | createCartItem _ _ _, s, row => { s with cartItem := s.cartItem ++ [row] }
  | deleteCartItem cartId productId, s, _ => { s with
      cartItem := s.cartItem.filter (fun row => ¬ (row.cartId = cartId ∧ row.productId = productId)) }
  | _, s, _ => s

end Call

/-- A statement that `rejects` rules out fails whatever the tables hold, and any other one
fails if no answer is allowed. One that fails writes nothing. -/
def exec (rejects : Call → Prop) : (c : Call) → Tables → Option c.Answer → Tables → Prop
  | c, s, none, t => (rejects c ∨ ∀ v, ¬ c.Allows s v) ∧ t = s
  | c, s, some v, t => c.Allows s v ∧ t = c.after s v

abbrev Statements (A : Type) : Type := Effect Call (fun c => Option c.Answer) Error A

def tryPromise (c : Call) : Statements c.Answer := .attempt .unknownException c

structure CartModel where
  id : ℕ
  userId : ℕ
  createdAt : ℕ
  updatedAt : ℕ
deriving DecidableEq, Repr

def CartModel.from (cart : CartRow) : CartModel :=
  ⟨cart.id, cart.userId, cart.createdAt, cart.updatedAt⟩

structure CartItemModel where
  id : ℕ
  cartId : ℕ
  productId : ℕ
  quantity : ℤ
  createdAt : ℕ
  updatedAt : ℕ
deriving DecidableEq, Repr

namespace CartItemModel

def «from» (item : CartItemRow) : CartItemModel :=
  ⟨item.id, item.cartId, item.productId, item.quantity, item.createdAt, item.updatedAt⟩

def fromList (items : List CartItemRow) : List CartItemModel := items.map CartItemModel.from

end CartItemModel

structure CartInfo where
  id : ℕ
  userId : ℕ
  createdAt : ℕ
  updatedAt : ℕ
deriving DecidableEq, Repr

def CartInfo.from (domain : CartModel) : CartInfo :=
  ⟨domain.id, domain.userId, domain.createdAt, domain.updatedAt⟩

structure CartItemInfo where
  id : ℕ
  cartId : ℕ
  productId : ℕ
  quantity : ℤ
  createdAt : ℕ
  updatedAt : ℕ
deriving DecidableEq, Repr

def CartItemInfo.from (domain : CartItemModel) : CartItemInfo :=
  ⟨domain.id, domain.cartId, domain.productId, domain.quantity, domain.createdAt, domain.updatedAt⟩

structure GetCartByInfo where
  cart : CartInfo
  cartItems : List CartItemInfo
deriving DecidableEq, Repr

def GetCartByInfo.from (domain : CartModel) (cartItems : List CartItemModel) : GetCartByInfo :=
  ⟨CartInfo.from domain, cartItems.map CartItemInfo.from⟩

def UserRepository.getById (id : ℕ) : Statements UserModel :=
  ((tryPromise (.findUniqueOrThrowUser id)).map UserModel.from).catchAll
    (fun _ => .fail (.appNotFound ErrorCodes.userNotFound))

namespace CartRepository

def create (userId : ℕ) : Statements CartModel := (tryPromise (.createCart userId)).map CartModel.from

/-- The update with no data: Prisma sets `updatedAt` alone. -/
def update (id : ℕ) : Statements CartModel := (tryPromise (.updateCart id)).map CartModel.from

def getById (cartId : ℕ) : Statements CartModel :=
  ((tryPromise (.findUniqueOrThrowCart cartId)).map CartModel.from).catchAll
    (fun _ => .fail (.appNotFound ErrorCodes.cartNotFound))

def getByUserId (userId : ℕ) : Statements CartModel :=
  ((tryPromise (.findUniqueOrThrowCartOf userId)).map CartModel.from).catchAll
    (fun _ => .fail (.appNotFound ErrorCodes.cartNotFound))

end CartRepository

namespace CartItemRepository

def create (cartId productId : ℕ) (quantity : ℤ) : Statements CartItemModel :=
  (tryPromise (.createCartItem cartId productId quantity)).map CartItemModel.from

def deleteByCartIdAndProductId (cartId productId : ℕ) : Statements Unit :=
  ((tryPromise (.deleteCartItem cartId productId)).map (fun _ => ())).catchAll
    (fun _ => .fail (.appNotFound ErrorCodes.cartItemNotFound))

def findByCartId (cartId : ℕ) : Statements (List CartItemModel) :=
  (tryPromise (.findManyCartItems cartId)).map CartItemModel.fromList

end CartItemRepository

def ProductRepository.getById (id : ℕ) : Statements ProductModel :=
  ((tryPromise (.findUniqueOrThrowProduct id)).map (Storefront.ProductModel.from id)).catchAll
    (fun _ => .fail (.appNotFound ErrorCodes.productNotFound))

def ProductStockRepository.getById (productId : ℕ) : Statements ProductStockModel :=
  ((tryPromise (.findUniqueOrThrowProductStock productId)).map (fun stock => ⟨productId, stock⟩)).catchAll
    (fun _ => .fail (.appNotFound ErrorCodes.productNotFound))

structure AddCartItemCommand where
  cartId : ℕ
  productId : ℕ
  quantity : ℤ
deriving DecidableEq, Repr

structure RemoveCartItemCommand where
  userId : ℕ
  productId : ℕ
deriving DecidableEq, Repr

namespace CartService

def create (userId : ℕ) : Statements CartInfo :=
  ((UserRepository.getById userId).flatMap (fun user => CartRepository.create user.id)).map
    CartInfo.from

def getCartBy (userId : ℕ) : Statements GetCartByInfo :=
  (((UserRepository.getById userId).flatMap (fun user => CartRepository.getByUserId user.id)).flatMap
    (fun cart => (CartItemRepository.findByCartId cart.id).map (fun cartItems => (cart, cartItems)))).map
    (fun read => GetCartByInfo.from read.1 read.2)

def checkStockAvailability (quantity : ℤ) (productStock : ProductStockModel) :
    Statements ProductStockModel :=
  if productStock.inStock quantity then .succeed productStock
  else .fail (.appConflict ErrorCodes.productOutOfStock)

def createCartItem (command : AddCartItemCommand) (cart : CartModel) : Statements CartItemModel :=
  CartItemRepository.create cart.id command.productId command.quantity

/-- The cart is updated before its item is created, and no transaction holds the two. -/
def addCartItem (command : AddCartItemCommand) : Statements CartItemInfo :=
  (((((ProductStockRepository.getById command.productId).flatMap
    (checkStockAvailability command.quantity)).flatMap
    (fun _ => CartRepository.getById command.cartId)).tap
    (fun cart => CartRepository.update cart.id)).flatMap
    (createCartItem command)).map CartItemInfo.from

def getCartAndProductEffect (command : RemoveCartItemCommand) :
    Statements (CartModel × ProductModel) :=
  (CartRepository.getByUserId command.userId).flatMap (fun cart =>
    (ProductRepository.getById command.productId).map (fun product => (cart, product)))

/-- The item is deleted before the cart is updated, and no transaction holds the two. -/
def deleteCartItemEffect (read : CartModel × ProductModel) : Statements Unit :=
  (CartItemRepository.deleteByCartIdAndProductId read.1.id read.2.id).flatMap (fun _ =>
    (CartRepository.update read.1.id).map (fun _ => ()))

def removeCartItem (command : RemoveCartItemCommand) : Statements Unit :=
  ((getCartAndProductEffect command).flatMap deleteCartItemEffect).catchAll (fun e => .fail e)

end CartService

namespace OrderFacade

def getCartBy (userId : ℕ) : Statements GetCartByInfo := CartService.getCartBy userId

def addCartItem (userId productId : ℕ) (quantity : ℤ) : Statements CartItemInfo :=
  ((CartService.getCartBy userId).map (fun read =>
    (⟨read.cart.id, productId, quantity⟩ : AddCartItemCommand))).flatMap CartService.addCartItem

def removeCartItem (userId productId : ℕ) : Statements Unit :=
  CartService.removeCartItem ⟨userId, productId⟩

end OrderFacade

end Code

end EcommerceService.Carts
