import EcommerceService.Cache
import EcommerceService.Saga

namespace EcommerceService.Storefront

open EcommerceService.Effects EcommerceService.Errors EcommerceService.Models
open EcommerceService.Database EcommerceService.Backend EcommerceService.Services
open EcommerceService.Cache

structure ProductRow where
  name : String
  price : ℚ
deriving DecidableEq, Repr

/-- The calls of the storefront, besides those of the services: the commands for Redis, the
clock and the random ids, and the statements on `product` and on a stock without a lock. -/
inductive Request : Type 1 where
  | redis (c : Command)
  | dateNow
  | randomUUID
  | findUniqueOrThrowProduct (id : ℕ)
  | updateProduct (id : ℕ) (data : ProductModel)
  | findUniqueOrThrowProductStock (productId : ℕ)
  | backend (c : Backend.Call)

@[reducible] def Request.Reply : Request → Type
  | redis c => Option c.Answer
  | dateNow => ℕ
  | randomUUID => Uuid
  | findUniqueOrThrowProduct _ => Option ProductRow
  | updateProduct _ _ => Option ProductRow
  | findUniqueOrThrowProductStock _ => Option ℤ
  | backend c => c.Reply

abbrev Shopping (A : Type) : Type 1 := Effect Request Request.Reply Error A

def settle {A : Type} : Option A → Shopping A
  | some a => .succeed a
  | none => .fail .unknownException

def backend {A : Type} (service : Service A) : Shopping A := service.embed .backend (fun _ r => r)

namespace RedisClient

def tryPromise (c : Command) : Shopping c.Answer := .perform (.redis c) settle

/-- A failure counts as no value. -/
def get (keyspace key : String) : Shopping (Option ProductText) :=
  (tryPromise (.get (keyspace ++ ":" ++ key))).catchAll (fun _ => .succeed none)

def setWithExpiry (keyspace key : String) (value : ProductText) (expiry : ℕ) : Shopping Unit :=
  tryPromise (.set (keyspace ++ ":" ++ key) value expiry)

def zadd (keyspace key : String) (score : ℕ) (value : String) : Shopping ℕ :=
  tryPromise (.zadd (keyspace ++ ":" ++ key) score value)

def zcount (keyspace key : String) : Shopping ℕ :=
  tryPromise (.zcount (keyspace ++ ":" ++ key) .negInf .posInf)

def zremrangebyscore (keyspace key : String) (min max : Bound) : Shopping ℕ :=
  tryPromise (.zremrangebyscore (keyspace ++ ":" ++ key) min max)

end RedisClient

def ProductModel.from (id : ℕ) (row : ProductRow) : ProductModel := ⟨id, row.name, row.price⟩

structure ProductInfo where
  id : ℕ
  name : String
  price : ℚ
deriving DecidableEq, Repr

def ProductInfo.from (domain : ProductModel) : ProductInfo := ⟨domain.id, domain.name, domain.price⟩

namespace ProductRepository

def getById (id : ℕ) : Shopping ProductModel :=
  ((Effect.perform (.findUniqueOrThrowProduct id) settle).map (ProductModel.from id)).catchAll
    (fun _ => .fail (.appNotFound ErrorCodes.productNotFound))

/-- The row may get another id, as `data` holds all its columns. -/
def update (id : ℕ) (data : ProductModel) : Shopping ProductModel :=
  (Effect.perform (.updateProduct id data) settle).map (ProductModel.from data.id)

end ProductRepository

namespace ProductStockRepository

def getById (productId : ℕ) : Shopping ProductStockModel :=
  ((Effect.perform (.findUniqueOrThrowProductStock productId) settle).map
    (fun stock => ⟨productId, stock⟩)).catchAll
    (fun _ => .fail (.appNotFound ErrorCodes.productNotFound))

end ProductStockRepository

namespace ProductCacheStore

def productCacheTtl : ℕ := 60 * 60 * 24

def cache (data : ProductModel) : Shopping Unit :=
  RedisClient.setWithExpiry "product" (Nat.repr data.id) ⟨data⟩ productCacheTtl

def findBy (productId : ℕ) : Shopping (Option ProductInfo) :=
  (RedisClient.get "product" (Nat.repr productId)).map
    (fun cachedProduct => cachedProduct.map (fun text => ProductInfo.from text.written))

end ProductCacheStore

namespace ProductStockCacheStore

def ttl : ℕ := 300

def reservationSpace : String := "product-stock-reservation"

def second : Shopping ℕ := .perform .dateNow (fun ms => .succeed (ms / 1000))

/-- `Effect.loop` from 1 on, while `seq <= quantity`. -/
def loop {A : Type} (quantity : ℤ) (body : ℕ → Shopping A) : Shopping (List A) :=
  Effect.all ((List.range' 1 quantity.toNat).map body)

def addUnit (productId userId score : ℕ) (reservationId : Uuid) (seq : ℕ) : Shopping ℕ :=
  RedisClient.zadd reservationSpace (Nat.repr productId) score (member userId reservationId seq)

def reserveStock (productId userId : ℕ) (quantity : ℤ) : Shopping (List ℕ) :=
  second.flatMap (fun now => .perform .randomUUID (fun reservationId =>
    loop quantity (addUnit productId userId (now + ttl) reservationId)))

def countReservedStockAt (now productId : ℕ) : Shopping ℕ :=
  (RedisClient.zremrangebyscore reservationSpace (Nat.repr productId) .negInf (.score now)).flatMap
    (fun _ => RedisClient.zcount reservationSpace (Nat.repr productId))

def countReservedStock (productId : ℕ) : Shopping ℕ :=
  second.flatMap (fun now => countReservedStockAt now productId)

end ProductStockCacheStore

structure ReserveStockCommand where
  productId : ℕ
  userId : ℕ
  quantity : ℤ
deriving DecidableEq, Repr

namespace ProductService

def fetchAndCacheProduct (id : ℕ) : Shopping ProductInfo :=
  ((ProductRepository.getById id).tap ProductCacheStore.cache).map ProductInfo.from

def getBy (productId : ℕ) : Shopping ProductInfo :=
  (ProductCacheStore.findBy productId).flatMap (fun
    | some cachedProduct => .succeed cachedProduct
    | none => fetchAndCacheProduct productId)

/-- `Math.floor(stock * 1.2)`. -/
def cap (stock : ℤ) : ℤ := 6 * stock / 5

def reserve (command : ReserveStockCommand) : Shopping Unit :=
  (ProductStockCacheStore.reserveStock command.productId command.userId command.quantity).asVoid

def reserveIfAvailable (command : ReserveStockCommand) (availableStock : ℤ) : Shopping Unit :=
  if availableStock ≥ command.quantity then reserve command
  else .fail (.appBadRequest ErrorCodes.temporaryOutOfStock)

/-- What `reserveStock` makes when it is called at the second `now`: the clock is read at the
call, and the purge runs later. -/
def reserveStockAt (now : ℕ) (command : ReserveStockCommand) : Shopping Unit :=
  (ProductStockRepository.getById command.productId).flatMap (fun stock =>
    (ProductStockCacheStore.countReservedStockAt now command.productId).flatMap (fun (reserved : ℕ) =>
      reserveIfAvailable command (cap stock.stock - reserved)))

def reserveStock (command : ReserveStockCommand) : Shopping Unit :=
  ProductStockCacheStore.second.flatMap (fun now => reserveStockAt now command)

end ProductService

structure CreateOrderItemDto where
  productId : ℕ
  quantity : ℤ
deriving DecidableEq, Repr

def CreateOrderItemCommand.ofProduct (product : ProductInfo) (orderItem : CreateOrderItemDto) :
    CreateOrderItemCommand := ⟨product.id, orderItem.quantity, product.price⟩

namespace OrderFacade

def createOrderItemCommands (orderItems : List CreateOrderItemDto) :
    Shopping (List CreateOrderItemCommand) :=
  Effect.all (orderItems.map (fun item => (ProductService.getBy item.productId).map
    (fun product => CreateOrderItemCommand.ofProduct product item)))

/-- The services are called for all items before the first of their effects runs. -/
def reserveStock (userId : ℕ) (orderItems : List CreateOrderItemDto) : Shopping (List Unit) :=
  (Effect.all (orderItems.map (fun _ => ProductStockCacheStore.second))).flatMap (fun nows =>
    Effect.all ((nows.zip orderItems).map (fun e =>
      ProductService.reserveStockAt e.1 ⟨e.2.productId, userId, e.2.quantity⟩)))

def createOrder (userId : ℕ) (orderItems : List CreateOrderItemCommand) :
    Shopping CreateOrderInfo :=
  backend (PrismaService.transaction .order
    ((OrderService.createOrder userId orderItems).flatMap Facades.OrderFacade.createOutboxEvent))

def order (userId : ℕ) (orderItemDtos : List CreateOrderItemDto) :
    Shopping (CreateOrderInfo ⊕ String) :=
  ((((reserveStock userId orderItemDtos).flatMap (fun _ =>
    createOrderItemCommands orderItemDtos)).flatMap (createOrder userId)).map .inl).catchIf
    Error.isBadRequest (fun _ => .succeed (.inr "일시 품절"))

end OrderFacade

section Confinement

variable {good : (c : Request) → c.Reply → Prop} {P : Request → Prop} {Q : Error → Prop}

theorem confined_settle {A : Type} (hQ : Q .unknownException) (a : Option A) :
    Effect.Confined good P Q (settle a) := by
  cases a with
  | none => exact Effect.confined_fail.mpr hQ
  | some a => exact Effect.confined_succeed

theorem confined_tryPromise {c : Command} (hc : P (.redis c)) (hQ : Q .unknownException) :
    Effect.Confined good P Q (RedisClient.tryPromise c) :=
  Effect.confined_perform.mpr ⟨hc, fun r _ => confined_settle hQ r⟩

theorem confined_getById {A B : Type} {c : Request} {k : c.Reply → Option B} {f : B → A} (hc : P c)
    (hQ : Q (.appNotFound ErrorCodes.productNotFound)) :
    Effect.Confined good P Q (((Effect.perform c (fun r => settle (k r))).map f).catchAll
      (fun _ => .fail (.appNotFound ErrorCodes.productNotFound))) := by
  have hlook : Effect.Confined good P (fun _ => True)
      (Effect.perform c (fun r => settle (k r)) : Shopping B) :=
    Effect.confined_perform.mpr ⟨hc, fun r _ => confined_settle trivial (k r)⟩
  exact hlook.map.catchAll (fun _ _ => Effect.confined_fail.mpr hQ)

theorem ProductStockCacheStore.confined_reserveStock {productId userId : ℕ} {quantity : ℤ}
    (hnow : P .dateNow) (hid : P .randomUUID)
    (hadd : ∀ key score value, P (.redis (.zadd key score value))) (hQ : Q .unknownException) :
    Effect.Confined good P Q (ProductStockCacheStore.reserveStock productId userId quantity) := by
  refine Effect.confined_perform.mpr ⟨hnow, fun now _ => Effect.confined_perform.mpr
    ⟨hid, fun reservationId _ => Effect.Confined.all (fun p hp => ?_)⟩⟩
  obtain ⟨seq, _, rfl⟩ := List.mem_map.mp hp
  exact confined_tryPromise (hadd _ _ _) hQ

theorem ProductService.confined_getBy {productId : ℕ} (hget : ∀ key, P (.redis (.get key)))
    (hset : ∀ product : ProductModel, P (.redis (.set ("product" ++ ":" ++ Nat.repr product.id) ⟨product⟩
      ProductCacheStore.productCacheTtl)))
    (hfind : P (.findUniqueOrThrowProduct productId)) (hQ : Q .unknownException)
    (hnone : Q (.appNotFound ErrorCodes.productNotFound)) :
    Effect.Confined good P Q (ProductService.getBy productId) := by
  have hcached : Effect.Confined good P Q (ProductCacheStore.findBy productId) :=
    Effect.Confined.map (Effect.Confined.catchAll (Q := fun _ => True)
      (confined_tryPromise (hget _) trivial) (fun _ _ => Effect.confined_succeed))
  have hrow : Effect.Confined good P Q (ProductRepository.getById productId) :=
    confined_getById hfind hnone
  have hcache : ∀ product, Effect.Confined good P Q (ProductCacheStore.cache product) :=
    fun product => Effect.confined_perform.mpr ⟨hset product, fun r _ => confined_settle hQ r⟩
  refine hcached.flatMap (fun cached => ?_)
  cases cached with
  | some cachedProduct => exact Effect.confined_succeed
  | none => exact (hrow.tap hcache).map

theorem OrderFacade.confined_createOrderItemCommands {items : List CreateOrderItemDto}
    (h : ∀ productId, Effect.Confined good P Q (ProductService.getBy productId)) :
    Effect.Confined good P Q (OrderFacade.createOrderItemCommands items) := by
  refine Effect.Confined.all (fun p hp => ?_)
  obtain ⟨item, _, rfl⟩ := List.mem_map.mp hp
  exact (h item.productId).map

theorem ProductService.confined_reserveStockAt {now : ℕ} {command : ReserveStockCommand}
    (hnow : P .dateNow) (hid : P .randomUUID)
    (hstock : ∀ productId, P (.findUniqueOrThrowProductStock productId))
    (hadd : ∀ key score value, P (.redis (.zadd key score value)))
    (hcount : ∀ key, P (.redis (.zcount key .negInf .posInf)))
    (hpurge : ∀ key now, P (.redis (.zremrangebyscore key .negInf (.score now)))) (hQ : ∀ e, Q e) :
    Effect.Confined good P Q (ProductService.reserveStockAt now command) := by
  have hget : Effect.Confined good P Q (ProductStockRepository.getById command.productId) :=
    confined_getById (hstock _) (hQ _)
  have hcounted : Effect.Confined good P Q
      (ProductStockCacheStore.countReservedStockAt now command.productId) :=
    (confined_tryPromise (hpurge _ _) (hQ _)).flatMap (fun _ => confined_tryPromise (hcount _) (hQ _))
  refine hget.flatMap (fun stock => hcounted.flatMap (fun reserved => ?_))
  rw [ProductService.reserveIfAvailable]
  split
  · exact (ProductStockCacheStore.confined_reserveStock hnow hid hadd (hQ _)).map
  · exact Effect.confined_fail.mpr (hQ _)

theorem OrderFacade.confined_reserveStock {userId : ℕ} {items : List CreateOrderItemDto}
    (hnow : P .dateNow) (hreserve : ∀ now command,
      Effect.Confined good P Q (ProductService.reserveStockAt now command)) :
    Effect.Confined good P Q (OrderFacade.reserveStock userId items) := by
  refine Effect.Confined.flatMap (Effect.Confined.all (fun p hp => ?_))
    (fun nows => Effect.Confined.all (fun p hp => ?_))
  · obtain ⟨item, _, rfl⟩ := List.mem_map.mp hp
    exact Effect.confined_perform.mpr ⟨hnow, fun ms _ => Effect.confined_succeed⟩
  · obtain ⟨e, _, rfl⟩ := List.mem_map.mp hp
    exact hreserve _ _

end Confinement

end EcommerceService.Storefront
