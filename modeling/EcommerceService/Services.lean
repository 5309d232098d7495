import EcommerceService.Backend

namespace EcommerceService.Services

open EcommerceService.Effects EcommerceService.Errors EcommerceService.Models
open EcommerceService.Database EcommerceService.Repositories EcommerceService.Backend

/-- Assignment to a key of an object whose keys are integers. Such keys come in
ascending order. -/
def assign (key : ℕ) (value : ℤ) : List (ℕ × ℤ) → List (ℕ × ℤ)
  | [] => [(key, value)]
  | e :: es =>
      if key < e.1 then (key, value) :: e :: es
      else if key = e.1 then (key, value) :: es
      else e :: assign key value es

/-- `Object.fromEntries`: a later entry of a key replaces an earlier one. -/
def fromEntries (entries : List (ℕ × ℤ)) : List (ℕ × ℤ) :=
  entries.foldl (fun object e => assign e.1 e.2 object) []

theorem assign_keys {key k : ℕ} {value : ℤ} {es : List (ℕ × ℤ)} :
    k ∈ (assign key value es).map Prod.fst ↔ k = key ∨ k ∈ es.map Prod.fst := by
  induction es with
  | nil => simp [assign]
  | cons e es ih =>
    simp only [assign]
    split
    · simp
    · split
      · rename_i he
        simp [he]
      · simp only [List.map_cons, List.mem_cons, ih]
        tauto

theorem assign_ascending {key : ℕ} {value : ℤ} {es : List (ℕ × ℤ)}
    (h : (es.map Prod.fst).Pairwise (· < ·)) :
    ((assign key value es).map Prod.fst).Pairwise (· < ·) := by
  induction es with
  | nil => simp [assign]
  | cons e es ih =>
    obtain ⟨he, hes⟩ := List.pairwise_cons.mp h
    simp only [assign]
    split
    · rename_i hlt
      refine List.pairwise_cons.mpr ⟨fun k hk => ?_, h⟩
      obtain rfl | hk := List.mem_cons.mp hk
      · exact hlt
      · exact hlt.trans (he k hk)
    · split
      · rename_i heq
        exact List.pairwise_cons.mpr ⟨fun k hk => heq ▸ he k hk, hes⟩
      · refine List.pairwise_cons.mpr ⟨fun k hk => ?_, ih hes⟩
        obtain rfl | hk := assign_keys.mp hk
        · omega
        · exact he k hk

theorem fromEntries_ascending (entries : List (ℕ × ℤ)) :
    ((fromEntries entries).map Prod.fst).Pairwise (· < ·) := by
  have h : ∀ object : List (ℕ × ℤ), (object.map Prod.fst).Pairwise (· < ·) →
      ((entries.foldl (fun object e => assign e.1 e.2 object) object).map Prod.fst).Pairwise
        (· < ·) := by
    induction entries with
    | nil => exact fun _ h => h
    | cons e entries ih => exact fun object h => ih _ (assign_ascending h)
  exact h [] List.Pairwise.nil

theorem fromEntries_keys {k : ℕ} {entries : List (ℕ × ℤ)} :
    k ∈ (fromEntries entries).map Prod.fst ↔ k ∈ entries.map Prod.fst := by
  have h : ∀ object : List (ℕ × ℤ),
      k ∈ (entries.foldl (fun object e => assign e.1 e.2 object) object).map Prod.fst ↔
        k ∈ object.map Prod.fst ∨ k ∈ entries.map Prod.fst := by
    induction entries with
    | nil => simp
    | cons e entries ih =>
      intro object
      rw [List.foldl_cons, ih, assign_keys, List.map_cons, List.mem_cons]
      tauto
  simpa [fromEntries] using h []

theorem lookup_entry {k p : ℕ} {v : ℤ} {es : List (ℕ × ℤ)} :
    ((k, v) :: es).lookup p = if p = k then some v else es.lookup p := by
  by_cases hp : p = k
  · simp [hp]
  · have hp' : (p == k) = false := by simpa using hp
    simp [List.lookup_cons, hp, hp']

theorem lookup_assign {key p : ℕ} {value : ℤ} {es : List (ℕ × ℤ)} :
    (assign key value es).lookup p = if p = key then some value else es.lookup p := by
  induction es with
  | nil => exact lookup_entry
  | cons e es ih =>
    obtain ⟨k, v⟩ := e
    simp only [assign]
    split
    · exact lookup_entry
    · split
      · rename_i hkey
        subst hkey
        rw [lookup_entry, lookup_entry]
        split
        · rfl
        · rfl
      · rename_i hne
        rw [lookup_entry, lookup_entry, ih]
        by_cases hk : p = k
        · rw [if_pos hk, if_neg (by omega), if_pos hk]
        · rw [if_neg hk, if_neg hk]

theorem lookup_fromEntries {p : ℕ} {entries : List (ℕ × ℤ)} (hn : (entries.map Prod.fst).Nodup) :
    (fromEntries entries).lookup p = entries.lookup p := by
  have h : ∀ object : List (ℕ × ℤ),
      (entries.foldl (fun object e => assign e.1 e.2 object) object).lookup p =
        (entries.lookup p).or (object.lookup p) := by
    induction entries with
    | nil => exact fun _ => rfl
    | cons e entries ih =>
      obtain ⟨k, v⟩ := e
      obtain ⟨hout, hn⟩ := List.nodup_cons.mp hn
      intro object
      rw [List.foldl_cons, ih hn, lookup_assign, lookup_entry]
      by_cases hp : p = k
      · have hnone : entries.lookup p = none := by
          refine List.lookup_eq_none_iff.mpr (fun e he => ?_)
          rw [bne_iff_ne]
          rintro rfl
          exact hout (List.mem_map.mpr ⟨e, he, hp⟩)
        rw [if_pos hp, if_pos hp, hnone]
        rfl
      · rw [if_neg hp, if_neg hp]
  simpa [fromEntries] using h []

structure DeductStockCommand where
  orderItems : List (ℕ × ℤ)
  ascending : (orderItems.map Prod.fst).Pairwise (· < ·)

namespace DeductStockCommand

def ofEntries (entries : List (ℕ × ℤ)) : DeductStockCommand :=
  ⟨fromEntries entries, fromEntries_ascending entries⟩

def productIds (command : DeductStockCommand) : List ℕ := command.orderItems.map Prod.fst

/-- `command.orderItems[productId]`, which may be undefined. -/
def quantity (command : DeductStockCommand) (productId : ℕ) : Option ℤ :=
  command.orderItems.lookup productId

end DeductStockCommand

namespace ProductService

/-- No stock is at least an undefined quantity. -/
def deduct (command : DeductStockCommand) (stock : ProductStockModel) :
    Statements ProductStockModel :=
  match command.quantity stock.productId with
  | some quantity => stock.deduct quantity
  | none => .fail (.appConflict ErrorCodes.productOutOfStock)

def deductStocks (command : DeductStockCommand) (stocks : List ProductStockModel) :
    Statements (List ProductStockModel) := Effect.all (stocks.map (deduct command))

def deductStock (command : DeductStockCommand) : Statements Unit :=
  ((ProductStockRepository.findByIdsWithXLock command.productIds).flatMap
    (deductStocks command)).flatMap ProductStockRepository.updateBulk

end ProductService

namespace WalletService

def createPoint (amount : ℚ) (wallet : WalletModel) : Statements PointModel :=
  PointRepository.create ⟨wallet.id, -amount, .use⟩

def updateWallet (amount : ℚ) (wallet : WalletModel) : Statements WalletModel :=
  WalletRepository.update wallet.id (wallet.totalPoint - amount) (some wallet.version)

def completePayment (userId : ℕ) (amount : ℚ) : Statements WalletModel :=
  ((((WalletRepository.getByUserId userId).tap (fun wallet => wallet.payable amount)).tap
    (createPoint amount)).flatMap (updateWallet amount)).catchIf
    (fun e => !e.isApplication) (fun _ => .fail (.appConflict ErrorCodes.paymentFailed))

end WalletService

namespace PointService

def charging (userId : ℕ) (amount : ℚ) : Statements PointModel :=
  (((WalletRepository.getByUserId userId).map (fun wallet => wallet.charge amount)).flatMap
    WalletRepository.updatePoint).flatMap
    (fun wallet => PointRepository.create ⟨wallet.id, amount, .charge⟩)

def chargePoint (userId : ℕ) (amount : ℚ) : Service PointModel :=
  PrismaService.transaction (.chargePoint userId) (charging userId amount)

end PointService

structure CreateOrderItemCommand where
  productId : ℕ
  quantity : ℤ
  price : ℚ
deriving DecidableEq, Repr

namespace OrderService

def createOrderItems (orderItems : List CreateOrderItemCommand) (order : OrderModel) :
    Statements CreateOrderInfo :=
  (OrderItemRepository.createMany (orderItems.map (fun item =>
    ⟨order.id, item.productId, item.quantity, item.price⟩))).map (CreateOrderInfo.ofModels order)

def createOrder (userId : ℕ) (orderItems : List CreateOrderItemCommand) :
    Statements CreateOrderInfo :=
  (OrderRepository.create userId).flatMap (createOrderItems orderItems)

def updateOrderStatus (orderId : ℕ) (status : OrderStatus) : Statements OrderModel :=
  (OrderRepository.getById orderId).flatMap (fun order => OrderRepository.update order.id status)

end OrderService

namespace OutboxEventService

def createOutboxEvent (aggregateId : String) (eventType : OutboxEventType) (payload : Json)
    (status : OutboxEventStatus) : Statements OutboxEventModel :=
  OutboxEventRepository.create (aggregateId, eventType) payload status

def findByAggregate (aggregateId : String) (eventType : OutboxEventType) :
    Statements (Option OutboxEventModel) :=
  OutboxEventRepository.findOneByAggregateIdAndEventType aggregateId eventType

def updateOutboxEvent (aggregateId : String) (eventType : OutboxEventType)
    (status : OutboxEventStatus) : Statements OutboxEventModel :=
  OutboxEventRepository.updateByAggregateIdAndEventType aggregateId eventType status

end OutboxEventService

end EcommerceService.Services
